import Iscp.Config
import Iscp.Error
import Iscp.Lib.Machine

/-!
# The resume loop

`get_conn_and_resume` of an upstream and the resume loop of `downstream_loop` are one loop over the same
cells; `Side` tells the few places where they differ. A step ends at an await, or where the loop starts
over. `add_upstream` and `add_downstream` do not wait, and fail only when the connection's read loop
is gone (`added = false`), in which case the loop goes around.

Proved here for both sides: what the loop knows about the token (`TokenInv`) and about the alias
(`AliasInv`) is kept by its steps, the first unless the connection is found lost between a successful
resume and the registration (`Stale`).
-/

namespace Iscp

/-- A wire connection, named by the version of the watch channel that published it. -/
abbrev ConnId := Nat

/-- The wire connections of a `Conn`, as `SharedWireConn` and their cancellation tokens show them. -/
structure WireConns where
  version : Nat
  closed : Bool := false
  cancelled : List ConnId := []
deriving DecidableEq

inductive WireAction
  | disconnect (conn : ConnId)
  | publish
  | close
deriving DecidableEq

namespace WireConns

def isConnected (w : WireConns) (conn : ConnId) : Bool := conn ∉ w.cancelled

/-- A connection is lost, or `reconnection_loop`, which waits for that, publishes the next or ends. -/
def step (w : WireConns) : WireAction → Option WireConns
  | .disconnect conn => some { w with cancelled := conn :: w.cancelled }
  | .publish =>
    if w.isConnected w.version ∨ w.closed then none else some { w with version := w.version + 1 }
  | .close => some { w with closed := true }

end WireConns

inductive Side
  | up
  | down
deriving DecidableEq

inductive ResumePc
  /-- At the head of the loop. -/
  | poll
  /-- In `request_resume`; a downstream asks for the alias `desired`. -/
  | request (desired : Option UInt32)
  /-- In `resume_retry_waiter.wait`. -/
  | wait
  /-- In `shared_wire_conn.get_updated`. -/
  | update
  /-- Left with `Ok(Some(_))`, `Ok(None)` or `Err(_)`. -/
  | registered
  | gaveUp
  | failed (e : Error)
deriving DecidableEq

/-- Where the loop neither waits for an answer or a connection nor has registered. -/
def ResumePc.plain : ResumePc → Bool
  | .poll | .wait | .gaveUp | .failed _ => true
  | .request _ | .update | .registered => false

namespace ResumePc

variable {pc : ResumePc}

theorem ne_registered (h : pc.plain) : pc ≠ .registered := by
  rintro rfl; cases h

theorem ne_update (h : pc.plain) : pc ≠ .update := by
  rintro rfl; cases h

theorem ne_request {desired} (h : pc.plain) : pc ≠ .request desired := by
  rintro rfl; cases h

end ResumePc

/-- The loop and the cells it shares: `stream_id_alias` and `resume_token` of `inner`, `need_resume`.
`wireConn` is also the connection the stream loop works on once the resume loop is left. -/
structure Resume where
  pc : ResumePc
  wireConn : ConnId
  /-- The last version `shared_wire_conn` has seen. -/
  seen : Nat
  /-- The loop's own `resume_token`. -/
  localToken : String
  needResume : Bool
  streamIdAlias : UInt32
  resumeToken : String
deriving DecidableEq

inductive ResumeAction
  | poll (desired : UInt32) (added : Bool)
  | responded (result : Except Error (UInt32 × String))
  | waited
  | updated (seen : Nat)
  | watchClosed
  | timedOut
  | cancelled

inductive ResumeEvent
  | opened (conn : ConnId) (idAlias : UInt32) (token : String)
  | requested (conn : ConnId) (token : String)
  | resumed (conn : ConnId) (idAlias : UInt32) (token : String)
  | registered (conn : ConnId) (idAlias : UInt32)
deriving DecidableEq

namespace ResumeEvent

def token? : ResumeEvent → Option String
  | opened _ _ token | resumed _ _ token => some token
  | _ => none

/-- The alias that an open or resume response on `conn` assigned. -/
def assigned? (conn : ConnId) : ResumeEvent → Option UInt32
  | opened c idAlias _ | resumed c idAlias _ => if c = conn then some idAlias else none
  | _ => none

/-- The connection of an open or resume response, and the alias it assigned. -/
def success? : ResumeEvent → Option (ConnId × UInt32)
  | opened c idAlias _ | resumed c idAlias _ => some (c, idAlias)
  | _ => none

end ResumeEvent

namespace Resume

/-- The loop as it starts again: its local token is a new, empty string. -/
def restart (r : Resume) (seen : Nat) : Resume :=
  { r with pc := .poll, seen := seen, localToken := "" }

/-- `if resume_token.is_empty() { resume_token = inner.resume_token.take() }` -/
def takeToken (r : Resume) : Resume :=
  if r.localToken = "" then { r with localToken := r.resumeToken, resumeToken := "" } else r

/-- The `Err` arm of `request_resume`. -/
def requestFailed (r : Resume) (e : Error) : Resume :=
  if e.resultCode.isSome then { r with pc := .gaveUp }
  else if e.canRetryResume then { r with pc := .wait }
  else { r with pc := .gaveUp }

def requestResume (r : Resume) (desired : Option UInt32) : Resume × List ResumeEvent :=
  ({ r with pc := .request desired }, [.requested r.wireConn r.localToken])

/-- The `need_resume` branch: an upstream takes the token before it looks at `expiry_interval`, a
downstream needs an alias of its own choice for the request. -/
def tryResume (side : Side) (expiryZero : Bool) (desired : UInt32) (r : Resume) :
    Resume × List ResumeEvent :=
  match side with
  | .up =>
    let r := r.takeToken
    if expiryZero then ({ r with pc := .gaveUp }, []) else r.requestResume none
  | .down =>
    if expiryZero then ({ r with pc := .gaveUp }, [])
    else
      let r := r.takeToken
      if desired = 0 then (r.requestFailed (.unexpected "stream id alias max reached"), [])
      else r.requestResume (some desired)

def poll (side : Side) (expiryZero : Bool) (wire : WireConns) (desired : UInt32) (added : Bool)
    (r : Resume) : Resume × List ResumeEvent :=
  if wire.isConnected r.wireConn then
    if r.needResume then r.tryResume side expiryZero desired
    else if added then ({ r with pc := .registered }, [.registered r.wireConn r.streamIdAlias])
    else (r, [])
  else ({ r with pc := .update }, [])

/-- The result of `request_resume`. The `resume_token` stored on success is the response's, which
hides the loop's own of the same name; the loop's own stays as it is. -/
def responded (r : Resume) (desired : Option UInt32) :
    Except Error (UInt32 × String) → Resume × List ResumeEvent
  | .ok (assigned, token) =>
    let idAlias := desired.getD assigned
    ({ r with pc := .poll, streamIdAlias := idAlias, resumeToken := token, needResume := false },
      [.resumed r.wireConn idAlias token])
  | .error e => (r.requestFailed e, [])

/-- Whether the loop waits, so that `timeout_with_ct` can abandon it. -/
def waiting (r : Resume) : Bool :=
  match r.pc with
  | .request _ | .wait | .update => true
  | _ => false

def step (side : Side) (expiryZero ct : Bool) (wire : WireConns) (r : Resume) :
    ResumeAction → Option (Resume × List ResumeEvent)
  | .poll desired added =>
    if r.pc = .poll then some (r.poll side expiryZero wire desired added) else none
  | .responded result =>
    match r.pc with
    | .request desired => some (r.responded desired result)
    | _ => none
  | .waited => if r.pc = .wait then some ({ r with pc := .poll }, []) else none
  | .updated seen =>
    if r.pc = .update ∧ r.seen < seen ∧ seen ≤ wire.version then
      some ({ r with pc := .poll, seen := seen, wireConn := wire.version, needResume := true }, [])
    else none
  | .watchClosed =>
    if r.pc = .update ∧ wire.closed ∧ r.seen = wire.version then some ({ r with pc := .gaveUp }, [])
    else none
  | .timedOut => if r.waiting then some ({ r with pc := .failed (.timeout "") }, []) else none
  | .cancelled =>
    if ct ∧ (r.waiting ∨ r.pc = .poll) then some ({ r with pc := .failed .cancelledByClose }, [])
    else none

variable {r r' : Resume} {side : Side} {expiryZero ct : Bool} {wire : WireConns} {a : ResumeAction}
  {es evs : List ResumeEvent}

@[simp] theorem restart_pc (n : Nat) : (r.restart n).pc = .poll := rfl

@[simp] theorem restart_wireConn (n : Nat) : (r.restart n).wireConn = r.wireConn := rfl

@[simp] theorem restart_localToken (n : Nat) : (r.restart n).localToken = "" := rfl

@[simp] theorem restart_needResume (n : Nat) : (r.restart n).needResume = r.needResume := rfl

@[simp] theorem restart_streamIdAlias (n : Nat) : (r.restart n).streamIdAlias = r.streamIdAlias := rfl

@[simp] theorem restart_resumeToken (n : Nat) : (r.restart n).resumeToken = r.resumeToken := rfl

/-- The step lemma of the loop: what it can do, with the parts of the state it leaves alone. -/
inductive Step (wire : WireConns) (r : Resume) : ResumeAction → Resume → List ResumeEvent → Prop
  /-- Moves that touch neither the tokens nor the registration. -/
  | move {a : ResumeAction} {pc : ResumePc} : pc.plain → Step wire r a { r with pc := pc } []
  /-- The token is taken, whether or not a request follows. -/
  | take {a : ResumeAction} {pc : ResumePc} : r.needResume → pc.plain → Step wire r a { r.takeToken with pc := pc } []
  | request {a : ResumeAction} {desired} : r.needResume → wire.isConnected r.wireConn →
      Step wire r a { r.takeToken with pc := .request desired }
        [.requested r.takeToken.wireConn r.takeToken.localToken]
  | resumed {a : ResumeAction} {desired idAlias token} : r.pc = .request desired → Step wire r a
      { r with pc := .poll, streamIdAlias := idAlias, resumeToken := token, needResume := false }
      [.resumed r.wireConn idAlias token]
  | register {a : ResumeAction} : r.needResume = false → wire.isConnected r.wireConn →
      Step wire r a { r with pc := .registered } [.registered r.wireConn r.streamIdAlias]
  | lost {desired added} : r.pc = .poll → wire.isConnected r.wireConn = false →
      Step wire r (.poll desired added) { r with pc := .update } []
  | updated {a : ResumeAction} {seen} : r.pc = .update → Step wire r a
      { r with pc := .poll, seen := seen, wireConn := wire.version, needResume := true } []

@[simp] theorem takeToken_needResume : r.takeToken.needResume = r.needResume := by
  unfold takeToken; split <;> rfl

/-- The loop registers only when no resume is due. -/
theorem Step.needResume (h : Step wire r a r' evs) (hpc : r'.pc = .registered) :
    r'.needResume = false := by
  cases h with
  | move hp | take _ hp => exact absurd hpc (ResumePc.ne_registered hp)
  | resumed => rfl
  | register hn => exact hn
  | request | lost | updated => cases hpc

theorem requestFailed_eq (r : Resume) (e : Error) :
    ∃ pc : ResumePc, pc.plain ∧ r.requestFailed e = { r with pc := pc } := by
  unfold requestFailed
  split
  · exact ⟨.gaveUp, rfl, rfl⟩
  · split
    · exact ⟨.wait, rfl, rfl⟩
    · exact ⟨.gaveUp, rfl, rfl⟩

theorem poll_step {desired : UInt32} {added : Bool} (hpc : r.pc = .poll)
    (h : r.poll side expiryZero wire desired added = (r', evs)) :
    Step wire r (.poll desired added) r' evs := by
  unfold poll at h
  split at h
  · rename_i hconn
    split at h
    · rename_i hneed
      cases side with
      | up =>
        simp only [tryResume, requestResume] at h
        split at h <;> obtain ⟨rfl, rfl⟩ := Prod.mk.inj h
        · exact .take hneed rfl
        · exact .request hneed hconn
      | down =>
        simp only [tryResume, requestResume] at h
        split at h
        · obtain ⟨rfl, rfl⟩ := Prod.mk.inj h
          exact .move rfl
        · split at h <;> obtain ⟨rfl, rfl⟩ := Prod.mk.inj h
          · obtain ⟨pc, hpc, he⟩ := requestFailed_eq r.takeToken (.unexpected "stream id alias max reached")
            rw [he]
            exact .take hneed hpc
          · exact .request hneed hconn
    · rename_i hneed
      split at h <;> obtain ⟨rfl, rfl⟩ := Prod.mk.inj h
      · exact .register (by simpa using hneed) hconn
      · have h0 : Step wire r (.poll desired added) { r with pc := r.pc } [] :=
           .move (by rw [hpc]; rfl)
        exact h0
  · rename_i hconn
    obtain ⟨rfl, rfl⟩ := Prod.mk.inj h
    exact .lost hpc (by simpa using hconn)

theorem step_step (h : r.step side expiryZero ct wire a = some (r', evs)) :
    Step wire r a r' evs := by
  cases a with
  | poll desired added =>
    simp only [step, Option.ite_none_right_eq_some, Option.some.injEq] at h
    exact poll_step h.1 h.2
  | responded result =>
    simp only [step] at h
    split at h
    · rename_i desired hpc
      cases result with
      | ok response =>
        obtain ⟨rfl, rfl⟩ := Prod.mk.inj (Option.some.inj h)
        exact .resumed hpc
      | error e =>
        obtain ⟨pc, hplain, he⟩ := requestFailed_eq r e
        simp only [responded, he] at h
        obtain ⟨rfl, rfl⟩ := Prod.mk.inj (Option.some.inj h)
        exact .move hplain
    · cases h
  | updated seen =>
    simp only [step, Option.ite_none_right_eq_some, Option.some.injEq, Prod.mk.injEq] at h
    obtain ⟨⟨hpc, -, -⟩, rfl, rfl⟩ := h
    exact .updated hpc
  | waited | watchClosed | timedOut | cancelled =>
    simp only [step, Option.ite_none_right_eq_some, Option.some.injEq, Prod.mk.injEq] at h
    obtain ⟨-, rfl, rfl⟩ := h
    exact .move rfl

/-- Whether the loop goes on. -/
def running (r : Resume) : Bool := r.waiting || r.pc = .poll

/-- A cancellation ends the loop wherever it is. -/
theorem step_cancelled : r.step side expiryZero ct wire .cancelled =
    if ct ∧ r.running then some ({ r with pc := .failed .cancelledByClose }, []) else none := by
  simp [step, running]

theorem step_of_registered (h : r.pc = .registered) : r.step side expiryZero ct wire a = none := by
  cases a <;> simp [step, h, waiting]

/-! ### The token -/

/-- A resume response has been stored, and the loop is about to find the connection lost before it could
register: its own token, which it will send next, is older than the stored one. -/
def Stale (wire : WireConns) (r : Resume) : Prop :=
  wire.isConnected r.wireConn = false ∧ r.needResume = false ∧ r.localToken ≠ "" ∧
    r.localToken ≠ r.resumeToken

/-- The loop does not look at the connection in such a state. -/
def NeverStale (wire : WireConns) (r : Resume) : ResumeAction → Prop
  | .poll _ _ => ¬ Stale wire r
  | _ => True

instance : Decidable (Stale wire r) := inferInstanceAs (Decidable (_ ∧ _ ∧ _ ∧ _))

instance : Decidable (NeverStale wire r a) := by
  unfold NeverStale; split <;> infer_instance

/-- A resume request carries the token of the latest response. -/
def TokenFresh (pre : List ResumeEvent) : ResumeEvent → Prop
  | .requested _ token => History.last ResumeEvent.token? pre = some token
  | _ => True

instance (pre : List ResumeEvent) : (e : ResumeEvent) → Decidable (TokenFresh pre e)
  | .requested _ _ => inferInstanceAs (Decidable (_ = _))
  | .opened _ _ _ | .resumed _ _ _ | .registered _ _ => .isTrue trivial

/-- Every resume request carried the token of the response before it. -/
abbrev TokensFresh (es : List ResumeEvent) : Prop := History.Each TokenFresh es

/-- Where the latest token is: in the cell, or in the loop's hands while it asks for a resume. -/
structure TokenInv (es : List ResumeEvent) (r : Resume) : Prop where
  fresh : TokensFresh es
  cell : r.localToken = "" ∨ r.needResume = false →
    History.last ResumeEvent.token? es = some r.resumeToken
  held : r.localToken ≠ "" → r.needResume → History.last ResumeEvent.token? es = some r.localToken
  /-- A loop that waits for a new connection has no stale token of its own. -/
  waiting : r.pc = .update → r.needResume = false → r.localToken = "" ∨ r.localToken = r.resumeToken
  registered : r.pc = .registered → r.needResume = false

/-- After the token is taken it is the one that a request must carry. -/
theorem TokenInv.takeToken (h : TokenInv es r) (hneed : r.needResume) :
    History.last ResumeEvent.token? es = some r.takeToken.localToken ∧
      (r.takeToken.localToken = "" → r.takeToken.resumeToken = "") := by
  unfold Resume.takeToken
  split
  · rename_i hl
    exact ⟨h.cell (.inl hl), fun _ => rfl⟩
  · rename_i hl
    exact ⟨h.held hl hneed, fun h0 => absurd h0 hl⟩

theorem TokenInv.take (h : TokenInv es r) (hneed : r.needResume) {pc : ResumePc} (hf : TokensFresh (es ++ evs))
    (hl : History.last ResumeEvent.token? (es ++ evs) = History.last ResumeEvent.token? es)
    (hpc : pc ≠ .registered) : TokenInv (es ++ evs) { r.takeToken with pc := pc } := by
  obtain ⟨ht, hc⟩ := h.takeToken hneed
  refine ⟨hf, fun h0 => ?_, fun _ _ => by rw [hl, ht], fun _ h0 => ?_, fun h0 => absurd h0 hpc⟩
  · rcases h0 with h0 | h0
    · rw [hl, ht]
      simp only at h0 ⊢
      rw [h0, hc h0]
    · simp [hneed] at h0
  · simp [hneed] at h0

/-- A loop that starts again has no token of its own, and the cell has the latest. -/
theorem TokenInv.restart (h : TokenInv es r) (hn : r.needResume = false) (b : Bool) (n : Nat) :
    TokenInv es ({ r with needResume := b }.restart n) :=
  ⟨h.fresh, fun _ => by simpa using h.cell (.inr hn), by simp, by simp, by simp⟩

theorem TokenInv.step (h : TokenInv es r) (hs : NeverStale wire r a) (st : Step wire r a r' evs) :
    TokenInv (es ++ evs) r' := by
  cases st with
  | move hp =>
    refine ⟨by simpa using h.fresh, by simpa using h.cell, by simpa using h.held, ?_, ?_⟩
    · exact fun h0 => absurd h0 (ResumePc.ne_update hp)
    · exact fun h0 => absurd h0 (ResumePc.ne_registered hp)
  | take hneed hp =>
    exact h.take hneed (by simpa using h.fresh) (by simp) (ResumePc.ne_registered hp)
  | request hneed hconn =>
    refine h.take hneed (History.each_append_singleton.2 ⟨h.fresh, ?_⟩) (by simp [ResumeEvent.token?])
      (by simp)
    exact (h.takeToken hneed).1
  | resumed hpc =>
    refine ⟨h.fresh.append_of_forall (by simp [TokenFresh]), fun _ => by simp [ResumeEvent.token?], by simp, by simp, by simp⟩
  | register hneed hconn =>
    refine ⟨h.fresh.append_of_forall (by simp [TokenFresh]), fun h0 => ?_, by simp [hneed], by simp, fun _ => hneed⟩
    simpa [ResumeEvent.token?] using h.cell h0
  | lost hpc hconn =>
    refine ⟨by simpa using h.fresh, by simpa using h.cell, by simpa using h.held, fun _ hn => ?_, by simp⟩
    by_cases hl : r.localToken = ""
    · exact .inl hl
    · by_cases hc : r.localToken = r.resumeToken
      · exact .inr hc
      · exact absurd ⟨hconn, hn, hl, hc⟩ hs
  | updated hpc =>
    refine ⟨by simpa using h.fresh, fun h0 => ?_, fun h0 _ => ?_, by simp, by simp⟩
    · simpa using h.cell (.inl (by simpa using h0))
    · have h0 : r.localToken ≠ "" := h0
      rw [List.append_nil]
      by_cases hn : r.needResume
      · exact h.held h0 hn
      · -- The loop's own token is the one that was stored last.
        have hn : r.needResume = false := by simpa using hn
        have hl := (h.waiting hpc hn).resolve_left h0
        rw [h.cell (.inr hn)]
        exact congrArg some hl.symm

/-! ### The alias -/

/-- Unless a resume is due, the alias cell holds what the latest response on this connection assigned. -/
def AliasInv (es : List ResumeEvent) (r : Resume) : Prop :=
  r.needResume = false →
    History.last (ResumeEvent.assigned? r.wireConn) es = some r.streamIdAlias

theorem AliasInv.step (h : AliasInv es r) (st : Step wire r a r' evs) :
    AliasInv (es ++ evs) r' := by
  cases st with
  | move | lost => simpa [AliasInv] using h
  | take hneed | request hneed =>
    intro hn
    rw [takeToken_needResume, hneed] at hn
    cases hn
  | resumed hpc => intro _; simp [ResumeEvent.assigned?]
  | register hneed =>
    intro _
    simpa [ResumeEvent.assigned?] using h hneed
  | updated => intro hn; cases hn

/-- A registration is on the connection of the latest open or resume response, under its alias. -/
def RegistersLatest (pre : List ResumeEvent) : ResumeEvent → Prop
  | .registered conn idAlias => History.last ResumeEvent.success? pre = some (conn, idAlias)
  | _ => True

/-- Unless a resume is due, the latest response came on this connection, with the alias of the cell. -/
structure LatestInv (es : List ResumeEvent) (r : Resume) : Prop where
  latest : r.needResume = false →
    History.last ResumeEvent.success? es = some (r.wireConn, r.streamIdAlias)
  each : History.Each RegistersLatest es

theorem LatestInv.step (h : LatestInv es r) (st : Step wire r a r' evs) : LatestInv (es ++ evs) r' := by
  cases st with
  | move | lost => simpa using ⟨by simpa using h.latest, h.each⟩
  | take hneed =>
    refine ⟨fun hn => ?_, by simpa using h.each⟩
    rw [takeToken_needResume, hneed] at hn
    cases hn
  | request hneed =>
    refine ⟨fun hn => ?_, h.each.append_of_forall (by simp [RegistersLatest])⟩
    rw [takeToken_needResume, hneed] at hn
    cases hn
  | resumed =>
    exact ⟨fun _ => by simp [ResumeEvent.success?], h.each.append_of_forall (by simp [RegistersLatest])⟩
  | register hneed =>
    refine ⟨fun _ => ?_, History.each_append_singleton.2 ⟨h.each, h.latest hneed⟩⟩
    simpa [ResumeEvent.success?] using h.latest hneed
  | updated => exact ⟨nofun, by simpa using h.each⟩

/-- A loop that starts again may have a resume due. -/
theorem LatestInv.restart (h : LatestInv es r) (hn : r.needResume = false) (b : Bool) (n : Nat) :
    LatestInv es ({ r with needResume := b }.restart n) :=
  ⟨fun _ => h.latest hn, h.each⟩

end Resume
end Iscp
