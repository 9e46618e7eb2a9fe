import Iscp.Lib.Machine
import Mathlib.Logic.Function.Basic

/-!
# Counting failed opens

`Upstream::new` cancels its wire connection when `ERR_COUNTER` has come to four. The counter is a static:
the opens of all streams on all connections of the process use it, each in several steps. There are any
number of opens; what `request_open` returns is open.

A failure on one connection counts for the next open of any other, and a success clears the count for all.
Each connection is treated as if it were alone as long as no count mixes two of them.
-/

namespace Iscp.ErrCounter

/-- Where `Upstream::new` stands. -/
inductive Phase
  /-- In `request_open`. -/
  | requesting
  /-- Past `fetch_add`. -/
  | counting
  /-- Past a `load` of four or more. -/
  | cancelling
  | resetting
  | ended
deriving DecidableEq

inductive Move
  | respond (ok : Bool)
  /-- The future is dropped in `request_open`. -/
  | drop
  | proceed
deriving DecidableEq

inductive What
  | called
  | failed
  | succeeded
  | dropped
  /-- `load` gave four or more, or less. -/
  | reached
  | passed
  | cancelled
  | reset
deriving DecidableEq

/-- A step of an open on a wire connection. -/
structure Event where
  opening : Nat
  conn : Nat
  what : What
deriving DecidableEq

structure State where
  errCounter : UInt64 := 0
  opens : Nat → Option (Nat × Phase) := fun _ => none
  cancelled : Nat → Bool := fun _ => false

inductive Action
  /-- `Upstream::new` gets its wire connection. -/
  | call (opening conn : Nat)
  | move (opening : Nat) (m : Move)

/-- A response and the access to the counter that follows it are one step. -/
def next (errCounter : UInt64) : Phase → Move → Option (Phase × UInt64 × What)
  | .requesting, .respond false => some (.counting, errCounter + 1, .failed)
  | .requesting, .respond true => some (.ended, 0, .succeeded)
  | .requesting, .drop => some (.ended, errCounter, .dropped)
  | .counting, .proceed =>
    if 4 ≤ errCounter then some (.cancelling, errCounter, .reached) else some (.ended, errCounter, .passed)
  | .cancelling, .proceed => some (.resetting, errCounter, .cancelled)
  | .resetting, .proceed => some (.ended, 0, .reset)
  | _, _ => none

open Function (update)

def State.put (s : State) (opening conn : Nat) : Phase × UInt64 × What → State
  | (phase, errCounter, what) =>
    { errCounter
      opens := update s.opens opening (some (conn, phase))
      cancelled := if what = .cancelled then update s.cancelled conn true else s.cancelled }

def step (s : State) : Action → Option (State × List Event)
  | .call opening conn =>
    match s.opens opening with
    | none => some (s.put opening conn (.requesting, s.errCounter, .called), [⟨opening, conn, .called⟩])
    | some _ => none
  | .move opening m =>
    match s.opens opening with
    | some (conn, phase) =>
      (next s.errCounter phase m).map fun r => (s.put opening conn r, [⟨opening, conn, r.2.2⟩])
    | none => none

def machine : Machine State Action Event where
  init := {}
  log₀ := []
  step := step

/-! ### What the history says -/

/-- The event sets the counter to 0. -/
def Event.clears (e : Event) : Bool := e.what = .succeeded || e.what = .reset

/-- The connection whose failure the event counts. -/
def Event.failure? (e : Event) : Option Nat := if e.what = .failed then some e.conn else none

/-- The connections of the failures counted since the counter was last set to 0. -/
def counted (log : List Event) : List Nat := (History.since Event.clears log).filterMap Event.failure?

/-- The outcome of an open on `conn`. -/
def Event.outcome? (conn : Nat) (e : Event) : Option Bool :=
  if e.conn = conn then
    match e.what with
    | .failed => some false
    | .succeeded => some true
    | _ => none
  else none

/-- The outcomes of the opens on `conn`, in order. -/
def outcomes (conn : Nat) (log : List Event) : List Bool := log.filterMap (Event.outcome? conn)

def Event.on (conn : Nat) (e : Event) : Bool := e.conn = conn

/-- Every connection is cancelled only after four failed opens of its own, and its opens go as in a process
without the other connections. -/
structure Separate (log : List Event) : Prop where
  failed : History.Each (fun pre e => e.what = .cancelled →
    List.replicate 4 false <:+ outcomes e.conn pre) log
  alone : ∀ conn, ∃ s, machine.Run (log.filter (Event.on conn)) s

/-- A step at the counter finds no failures of other connections counted, and no open succeeds on a
connection that another open is about to cancel. -/
def Unmixed (log : List Event) (s : State) : Action → Prop
  | .call _ _ => True
  | .move opening m => ∀ r ∈ s.opens opening,
    (m = .drop ∨ r.2 = .cancelling ∨ ∀ conn ∈ counted log, conn = r.1) ∧
      (m = .respond true → ∀ e ∈ log, s.opens e.opening ≠ some (r.1, .cancelling))

/-! ### Steps -/

variable {log : List Event} {s s' : State} {a : Action} {evs : List Event} {opening conn : Nat}

/-- What an event does to the counter. -/
def What.count (errCounter : UInt64) : What → UInt64
  | .failed => errCounter + 1
  | .succeeded | .reset => 0
  | _ => errCounter

theorem next_cases {k k' : UInt64} {phase phase' : Phase} {m : Move} {what : What}
    (h : next k phase m = some (phase', k', what)) :
    k' = what.count k ∧ what ≠ .called ∧ (what = .cancelled → phase = .cancelling) ∧
      (what = .succeeded → m = .respond true) ∧
      (m = .drop ∨ phase = .cancelling → what ≠ .succeeded ∧ what ≠ .reset) ∧
      (phase' = .cancelling → what = .reached ∧ phase = .counting ∧ 4 ≤ k) := by
  cases phase with
  | requesting =>
    cases m with
    | respond ok => cases ok <;> (cases h; simp [What.count])
    | drop => cases h; simp [What.count]
    | proceed => cases h
  | counting =>
    cases m with
    | proceed =>
      rw [next] at h
      split at h
      · rename_i hk
        cases h
        simp [What.count, hk]
      · cases h
        simp [What.count]
    | respond | drop => cases h
  | cancelling | resetting =>
    cases m with
    | proceed => cases h; simp [What.count]
    | respond | drop => cases h
  | ended => cases h

/-- A step reads of the counter only whether it has come to four. -/
theorem next_congr {k k₁ k' : UInt64} {phase phase' : Phase} {m : Move} {what : What}
    (hk : m = .drop ∨ phase = .cancelling ∨ k₁ = k) (h : next k phase m = some (phase', k', what)) :
    next k₁ phase m = some (phase', what.count k₁, what) := by
  rcases hk with rfl | rfl | rfl
  · cases phase <;> cases h
    rfl
  · cases m <;> cases h
    rfl
  · rw [h, (next_cases h).1]

/-- A call, or the next step of an open. -/
theorem step_cases (h : step s a = some (s', evs)) :
    (∃ opening conn, a = .call opening conn ∧ s.opens opening = none ∧
      s' = s.put opening conn (.requesting, s.errCounter, .called) ∧ evs = [⟨opening, conn, .called⟩]) ∨
    ∃ opening m conn phase phase' what, a = .move opening m ∧ s.opens opening = some (conn, phase) ∧
      next s.errCounter phase m = some (phase', what.count s.errCounter, what) ∧
      s' = s.put opening conn (phase', what.count s.errCounter, what) ∧ evs = [⟨opening, conn, what⟩] := by
  cases a with
  | call opening conn =>
    simp only [step] at h
    split at h
    · rename_i ho
      cases h
      exact .inl ⟨opening, conn, rfl, ho, rfl, rfl⟩
    · cases h
  | move opening m =>
    simp only [step] at h
    split at h
    · rename_i conn phase ho
      obtain ⟨⟨phase', k', what⟩, hn, hs⟩ := Option.map_eq_some_iff.1 h
      obtain rfl := (next_cases hn).1
      cases hs
      exact .inr ⟨opening, m, conn, phase, phase', what, rfl, ho, hn, rfl, rfl⟩
    · cases h

/-! ### The count -/

theorem counted_append (log : List Event) (e : Event) :
    counted (log ++ [e]) = if e.clears then [] else counted log ++ e.failure?.toList := by
  rw [counted, History.since_append_singleton]
  split
  · rfl
  · rw [List.filterMap_append]
    cases he : e.failure? with
    | none => simp [he, counted]
    | some conn => simp [he, counted]

/-- The counter, or that of the failures that `p` picks out of those counted. -/
theorem count_append (p : Nat → Bool) (log : List Event) (e : Event)
    (hp : e.what = .failed → p e.conn = true) :
    UInt64.ofNat ((counted (log ++ [e])).countP p) = e.what.count (.ofNat ((counted log).countP p)) := by
  rw [counted_append]
  obtain ⟨opening, conn, what⟩ := e
  cases what with
  | failed =>
    have hp := hp rfl
    simp [Event.clears, Event.failure?, What.count, hp]
  | _ => simp [Event.clears, Event.failure?, What.count]

theorem outcomes_append (log : List Event) (e : Event) :
    outcomes conn (log ++ [e]) = outcomes conn log ++ (e.outcome? conn).toList := by
  rw [outcomes, List.filterMap_append]
  cases he : e.outcome? conn <;> simp [outcomes, he]

/-- The failures of a connection that are counted are its latest outcomes. -/
theorem tail_append {e : Event} (h : List.replicate ((counted log).count conn) false <:+ outcomes conn log) :
    List.replicate ((counted (log ++ [e])).count conn) false <:+ outcomes conn (log ++ [e]) := by
  rw [counted_append, outcomes_append]
  split
  · exact List.nil_suffix
  · rename_i hc
    by_cases hf : e.what = .failed ∧ e.conn = conn
    · rw [Event.failure?, Event.outcome?, if_pos hf.1, if_pos hf.2, hf.1, hf.2]
      simpa [List.replicate_succ', List.suffix_append_self_iff] using h
    · have hcount : e.failure?.toList.count conn = 0 := by
        rw [Event.failure?]
        split
        · rename_i hw
          have hd : e.conn ≠ conn := fun hd => hf ⟨hw, hd⟩
          simp [hd]
        · rfl
      have hout : e.outcome? conn = none := by
        rw [Event.outcome?]
        split
        · rename_i hd
          cases hw : e.what <;> simp_all [Event.clears]
        · rfl
      simpa [hcount, hout] using h

/-- An event that is no success on `conn` leaves a failed end of its outcomes one. -/
theorem failed_append {e : Event} {n : ℕ} (he : e.conn = conn → e.what ≠ .succeeded)
    (h : List.replicate n false <:+ outcomes conn log) :
    List.replicate n false <:+ outcomes conn (log ++ [e]) := by
  rw [outcomes_append, Event.outcome?]
  split
  · rename_i hd
    cases hw : e.what with
    | failed =>
      have hsuf : List.replicate n false ++ [false] <:+ outcomes conn log ++ [false] :=
        List.suffix_append_self_iff.2 h
      rw [← List.replicate_succ', List.replicate_succ] at hsuf
      exact (List.suffix_cons _ _).trans hsuf
    | succeeded => exact absurd hw (he hd)
    | _ => simpa using h
  · simpa using h

/-! ### Runs -/

structure Inv (log : List Event) (s : State) : Prop where
  counter : s.errCounter = .ofNat (counted log).length
  tail : ∀ conn, List.replicate ((counted log).count conn) false <:+ outcomes conn log
  logged : ∀ opening conn phase, s.opens opening = some (conn, phase) → ∃ e ∈ log, e.opening = opening
  cancelling : ∀ opening conn, s.opens opening = some (conn, .cancelling) →
    List.replicate 4 false <:+ outcomes conn log
  failed : History.Each (fun pre e => e.what = .cancelled →
    List.replicate 4 false <:+ outcomes e.conn pre) log

/-- `s'` is what `s` looks like to the opens on `conn`. -/
structure Alone (conn : Nat) (log : List Event) (s s' : State) : Prop where
  counter : s'.errCounter = .ofNat ((counted log).count conn)
  opens : ∀ opening, s'.opens opening = (s.opens opening).filter fun r => r.1 = conn

theorem Inv.put {phase : Phase} {what : What} (hi : Inv log s)
    (hreached : phase = .cancelling →
      what = .reached ∧ 4 ≤ s.errCounter ∧ ∀ d ∈ counted log, d = conn)
    (hsucceeded : what = .succeeded → ∀ e ∈ log, s.opens e.opening ≠ some (conn, .cancelling))
    (hcancelled : what = .cancelled → s.opens opening = some (conn, .cancelling)) :
    Inv (log ++ [⟨opening, conn, what⟩]) (s.put opening conn (phase, what.count s.errCounter, what)) := by
  refine ⟨?_, fun d => tail_append (hi.tail d), ?_, ?_, ?_⟩
  · have hcount := count_append (fun _ => true) log ⟨opening, conn, what⟩ fun _ => rfl
    simp only [List.countP_true] at hcount
    rw [hcount, ← hi.counter]
    rfl
  · intro o d ph ho
    by_cases heq : o = opening
    · exact ⟨⟨opening, conn, what⟩, by simp, heq.symm⟩
    · simp only [State.put, Function.update_of_ne heq] at ho
      obtain ⟨e, he, heo⟩ := hi.logged o d ph ho
      exact ⟨e, List.mem_append_left _ he, heo⟩
  · intro o d ho
    by_cases heq : o = opening
    · subst heq
      simp only [State.put, Function.update_self, Option.some.injEq, Prod.mk.injEq] at ho
      obtain ⟨rfl, rfl⟩ := ho
      obtain ⟨rfl, hk, hall⟩ := hreached rfl
      refine failed_append (fun _ => by simp) ?_
      -- The count is of `conn` alone, so it is the end of the outcomes of `conn`.
      have htail := hi.tail conn
      rw [List.count_eq_length.2 fun d hd => (hall d hd).symm] at htail
      have hlen : 4 ≤ (counted log).length := by
        rw [hi.counter, UInt64.le_iff_toNat_le, UInt64.toNat_ofNat'] at hk
        have : (4 : UInt64).toNat = 4 := rfl
        have := Nat.mod_le (counted log).length (2 ^ 64)
        omega
      obtain ⟨n, hn⟩ := Nat.exists_eq_add_of_le hlen
      rw [hn, Nat.add_comm, List.replicate_add] at htail
      exact (List.suffix_append _ _).trans htail
    · simp only [State.put, Function.update_of_ne heq] at ho
      refine failed_append ?_ (hi.cancelling o d ho)
      rintro rfl rfl
      obtain ⟨e, he, rfl⟩ := hi.logged o _ _ ho
      exact hsucceeded rfl e he ho
  · refine History.each_append_singleton.2 ⟨hi.failed, ?_⟩
    intro hw
    exact hi.cancelling opening conn (hcancelled hw)

theorem inv (h : machine.Exec Unmixed log s) : Inv log s := by
  refine h.invariant (I := Inv) ?_ ?_
  · exact ⟨rfl, fun _ => List.nil_suffix, by simp [machine], by simp [machine], .nil⟩
  · intro log s a s' evs _ hi hc hs
    rcases step_cases hs with ⟨opening, conn, rfl, ho, rfl, rfl⟩ |
      ⟨opening, m, conn, phase, phase', what, rfl, ho, hn, rfl, rfl⟩
    · exact hi.put (by simp) (by simp) (by simp)
    · obtain ⟨hown, hsucc⟩ := hc (conn, phase) ho
      obtain ⟨-, -, hcancelled, hsucceeded, -, hreached⟩ := next_cases hn
      refine hi.put ?_ (fun hw => hsucc (hsucceeded hw)) (fun hw => hcancelled hw ▸ ho)
      intro hp
      obtain ⟨hw, rfl, hk⟩ := hreached hp
      refine ⟨hw, hk, ?_⟩
      rcases hown with rfl | h | h
      · cases hn
      · cases h
      · exact h

namespace Alone

variable {s₁ : State} {phase : Phase} {what : What}

/-- The same step of an open on the connection. -/
theorem put (ha : Alone conn log s s₁) (k : UInt64) :
    Alone conn (log ++ [⟨opening, conn, what⟩]) (s.put opening conn (phase, k, what))
      (s₁.put opening conn (phase, what.count s₁.errCounter, what)) := by
  constructor
  · have hcount := count_append (· == conn) log ⟨opening, conn, what⟩ fun _ => beq_self_eq_true conn
    show what.count s₁.errCounter = .ofNat ((counted _).countP (· == conn))
    rw [hcount, ha.counter]
    rfl
  · intro o
    by_cases heq : o = opening
    · subst heq
      simp [State.put, Option.filter_some]
    · simp only [State.put, Function.update_of_ne heq]
      exact ha.opens o

/-- A step of an open on another connection. -/
theorem put_other {d : Nat} (ha : Alone conn log s s₁) (hd : d ≠ conn) (k : UInt64)
    (hclears : Event.clears ⟨opening, d, what⟩ → ∀ c ∈ counted log, c = d)
    (ho : (s.opens opening).filter (fun r => r.1 = conn) = none) :
    Alone conn (log ++ [⟨opening, d, what⟩]) (s.put opening d (phase, k, what)) s₁ := by
  constructor
  · rw [ha.counter, counted_append]
    split
    · rename_i hc
      have hnot : conn ∉ counted log := fun hmem => hd (hclears hc conn hmem).symm
      rw [List.count_eq_zero_of_not_mem hnot, List.count_nil]
    · rw [List.count_append, Event.failure?]
      split
      · simp [hd]
      · simp
  · intro o
    by_cases heq : o = opening
    · subst heq
      rw [ha.opens, ho]
      simp [State.put, Option.filter_some, hd]
    · simp only [State.put, Function.update_of_ne heq]
      exact ha.opens o

end Alone

theorem filter_on {log : List Event} {e : Event} :
    (log ++ [e]).filter (Event.on conn) =
      log.filter (Event.on conn) ++ if e.conn = conn then [e] else [] := by
  rw [List.filter_append, List.filter_singleton]
  simp [Event.on]

/-- What the opens on a connection do is a run without the others. -/
theorem alone (conn : Nat) (h : machine.Exec Unmixed log s) :
    ∃ s₁, machine.Run (log.filter (Event.on conn)) s₁ ∧ Alone conn log s s₁ := by
  refine h.invariant (I := fun log s => ∃ s₁, machine.Run (log.filter (Event.on conn)) s₁ ∧
    Alone conn log s s₁) ?_ ?_
  · exact ⟨{}, .init, rfl, fun _ => rfl⟩
  · rintro log s a s' evs hr ⟨s₁, hr₁, ha⟩ hc hs
    rcases step_cases hs with ⟨opening, d, rfl, ho, rfl, rfl⟩ |
      ⟨opening, m, d, phase, phase', what, rfl, ho, hn, rfl, rfl⟩
    · rw [filter_on]
      by_cases hd : d = conn
      · subst hd
        have ho₁ : s₁.opens opening = none := by rw [ha.opens, ho]; rfl
        refine ⟨_, hr₁.step (a := .call opening d) trivial ?_, ha.put _⟩
        simp [machine, step, ho₁, What.count]
      · rw [if_neg hd, List.append_nil]
        exact ⟨s₁, hr₁, ha.put_other hd _ (fun hcl => by simp [Event.clears] at hcl) (by rw [ho]; rfl)⟩
    · rw [filter_on]
      obtain ⟨hown, -⟩ := hc (d, phase) ho
      by_cases hd : d = conn
      · subst hd
        have ho₁ : s₁.opens opening = some (d, phase) := by simp [ha.opens, ho]
        -- At the counter only its own failures are counted, so both see the same number.
        have hk : m = .drop ∨ phase = .cancelling ∨ s₁.errCounter = s.errCounter := by
          refine hown.imp id (Or.imp id fun hall => ?_)
          rw [ha.counter, (inv hr).counter, List.count_eq_length.2 fun c hc => (hall c hc).symm]
        refine ⟨_, hr₁.step (a := .move opening m) trivial ?_, ha.put _⟩
        simp [machine, step, ho₁, next_congr hk hn]
      · rw [if_neg hd, List.append_nil]
        refine ⟨s₁, hr₁, ha.put_other hd _ (fun hcl => ?_) (by simp [ho, hd])⟩
        obtain ⟨-, -, -, -, hkeeps, -⟩ := next_cases hn
        rcases or_assoc.2 hown with hat | hall
        · simp [Event.clears, hkeeps hat] at hcl
        · exact hall

/-- In every run whose steps are unmixed, connections are cancelled for four failed opens of their own, and
each goes as if it were alone. -/
theorem unmixed_separate (h : machine.Exec Unmixed log s) : Separate log :=
  ⟨(inv h).failed, fun conn => (alone conn h).imp fun _ h => h.1⟩

instance {log : List Event} {s : State} {a : Action} : Decidable (Unmixed log s a) := by
  unfold Unmixed; induction a using Action.casesOn with | _ => infer_instance

/-- An open that is made and whose request fails, up to its look at the counter. -/
def failRun (opening conn : Nat) : List Action :=
  [.call opening conn, .move opening (.respond false), .move opening .proceed]

/-- One connection is cancelled after four failures, then another; a third has an open in flight all the
time. -/
theorem unmixed_separate_two :
    ∃ log s, machine.Exec Unmixed log s ∧ s.cancelled 0 ∧ s.cancelled 1 ∧ ¬ s.cancelled 2 ∧
      Separate log := by
  obtain ⟨log, s, h, hs⟩ := Machine.Exec.exists_of_any (M := machine) (C := Unmixed)
    (.call 9 2 :: failRun 0 0 ++ failRun 1 0 ++ failRun 2 0 ++ failRun 3 0 ++
      ([.move 3 .proceed, .move 3 .proceed] : List Action) ++
      failRun 4 1 ++ failRun 5 1 ++ failRun 6 1 ++ failRun 7 1 ++
      ([.move 7 .proceed, .move 7 .proceed, .move 9 (.respond true)] : List Action))
    (P := fun _ s => s.cancelled 0 ∧ s.cancelled 1 ∧ ¬ s.cancelled 2) (by decide +kernel)
  exact ⟨log, s, h, hs.1, hs.2.1, hs.2.2, unmixed_separate h⟩

/-- Four opens fail on four connections, and the last one's is cancelled. -/
theorem mixed_cancel : ¬ ∀ log s, machine.Run log s → Separate log := by
  intro hall
  obtain ⟨log, s, h, hno⟩ := Machine.Exec.exists_of_any (M := machine) (C := fun _ _ _ => True)
    (failRun 0 0 ++ failRun 1 1 ++ failRun 2 2 ++ failRun 3 3 ++ ([.move 3 .proceed] : List Action))
    (P := fun log _ => ¬ History.Each (fun pre e => e.what = .cancelled →
      List.replicate 4 false <:+ outcomes e.conn pre) log) (by decide +kernel)
  exact hno (hall log s h).failed

end Iscp.ErrCounter
