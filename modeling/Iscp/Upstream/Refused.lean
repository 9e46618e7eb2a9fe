import Iscp.Upstream.Points

/-!
# What a refused write leaves behind

`write_data_points` pushes its group and then looks at the token: a write that finds the stream cancelled
returns an error, and its data points are in the buffer all the same, or already in a chunk. So the
refused writes are without effect exactly if none of them had any data points.
-/

namespace Iscp.Upstream

variable {o : Opened} {s : State} {log : List Event}

/-- The groups whose write has returned an error. -/
def refused (log : List Event) : List DataPointGroup :=
  ((pushes log).zip (writes log)).filterMap fun
    | (dpg, .error _) => some dpg
    | (_, .ok ()) => none

/-- The groups whose write has returned `Ok`, and that of the write that has not returned. -/
def accepted (log : List Event) : List DataPointGroup :=
  ((pushes log).zip (writes log)).filterMap (fun
    | (dpg, .ok ()) => some dpg
    | (_, .error _) => none) ++ (pushes log).drop (writes log).length

theorem pushes_perm (log : List Event) : (pushes log).Perm (accepted log ++ refused log) := by
  rw [accepted, refused]
  generalize pushes log = dpgs
  generalize writes log = results
  induction dpgs generalizing results with
  | nil => simp
  | cons dpg dpgs ih =>
    cases results with
    | nil => simp
    | cons result results =>
      cases result with
      | ok => simpa using ih results
      | error e =>
        have := (ih results).cons dpg
        simpa using this.trans List.perm_middle.symm

/-- The points in the issued chunks and in the buffer, in `total_data_points` and in the callbacks are those
of the writes that have not been refused. -/
structure NoEffect (log : List Event) (s : State) : Prop where
  held : ((issued log).flatMap (·.points) ++ points s.state.dataPointsBuffer).Perm (points (accepted log))
  total : s.state.totalDataPoints + .ofNat (points s.state.dataPointsBuffer).length =
    .ofNat (points (accepted log)).length
  called : (points (called log)).Subperm (points (accepted log))

theorem points_eq_nil {dpgs : List DataPointGroup} : points dpgs = [] ↔ ∀ dpg ∈ dpgs, dpg.dataPoints = [] :=
  List.flatMap_eq_nil_iff

theorem held_perm {C : List Event → State → Action → Prop} (h : o.machine.Exec C log s) :
    ((issued log).flatMap (·.points) ++ points s.state.dataPointsBuffer).Perm
      (points (accepted log) ++ points (refused log)) := by
  have hall : (points (pushes log)).Perm (points (accepted log) ++ points (refused log)) := by
    rw [← points_append]
    exact (pushes_perm log).flatMap_right _
  rw [(account h).pushes, points_append] at hall
  exact ((counted h).chunks.append_right _).trans hall

/-- In every run: the refused writes are without effect if and only if they had no data points. -/
theorem refused_without_effect_iff (o : Opened) (h : o.machine.Run log s) :
    NoEffect log s ↔ ∀ dpg ∈ refused log, dpg.dataPoints = [] := by
  have hheld := held_perm h
  have hcount := counted h
  rw [← points_eq_nil]
  constructor
  · intro hno
    have hlen := (hno.held.symm.trans hheld).length_eq
    rw [List.length_append] at hlen
    exact List.eq_nil_of_length_eq_zero (by omega)
  · intro hnil
    rw [hnil, List.append_nil] at hheld
    refine ⟨hheld, ?_, ?_⟩
    · rw [hcount.total, ← UInt64.ofNat_add, ← hheld.length_eq, List.length_append,
        hcount.chunks.length_eq]
    · refine hcount.called.trans ((hcount.chunks.symm.subperm).trans ?_)
      exact (List.sublist_append_left _ _).subperm.trans hheld.subperm

/-- A write of nothing is refused on a stream that has one group in a chunk and one in the buffer. -/
theorem refused_without_effect_empty :
    ∃ log s, defaultOpened.machine.Run log s ∧ (refused log).length = 1 ∧ (accepted log).length = 2 ∧
      NoEffect log s := by
  obtain ⟨log, s, h, hr, ha, hno⟩ := Machine.Exec.exists_of_any (M := defaultOpened.machine)
    (C := fun _ _ _ => True) (startRun ++
      ([.app (.write ⟨⟨"a", "t"⟩, [⟨0, [7]⟩]⟩), .app .writeCheck, .app .writeNotify,
        .loop (.flush .interval .asIs), .app (.write ⟨⟨"b", "t"⟩, [⟨1, [8]⟩]⟩), .app .writeCheck,
        .app .writeNotify, .cancel, .app (.write ⟨⟨"b", "t"⟩, []⟩), .app .writeCheck] : List Action))
    (P := fun log _ => (refused log).length = 1 ∧ (accepted log).length = 2 ∧
      ∀ dpg ∈ refused log, dpg.dataPoints = []) (by decide +kernel)
  exact ⟨log, s, h, hr, ha, (refused_without_effect_iff defaultOpened h).2 hno⟩

/-- A write is refused, and the flush that ends the stream sends its data point. -/
theorem refused_sent :
    ∃ log s, defaultOpened.machine.Run log s ∧ writes log = [.error .streamClosed] ∧
      (issued log).flatMap (·.points) = [⟨0, [7]⟩] ∧ ¬ NoEffect log s := by
  obtain ⟨log, s, h, hw, hi, hno⟩ := Machine.Exec.exists_of_any (M := defaultOpened.machine)
    (C := fun _ _ _ => True) (startRun ++
      ([.cancel, .app (.write ⟨⟨"a", "t"⟩, [⟨0, [7]⟩]⟩), .app .writeCheck,
        .loop (.flush .cancelled .asIs), .loop (.sent (.ok ()))] : List Action))
    (P := fun log s => writes log = [.error .streamClosed] ∧
      (issued log).flatMap (·.points) = [⟨0, [7]⟩] ∧
      ¬ ((issued log).flatMap (·.points) ++ points s.state.dataPointsBuffer).Perm (points (accepted log)))
    (by decide +kernel)
  exact ⟨log, s, h, hw, hi, fun hf => hno hf.held⟩

end Iscp.Upstream
