import Iscp.Token

/-!
# Where and under which alias a stream is registered

A stream is registered on a connection only after an open or resume response on that connection, and
under the alias of the latest one: `need_resume` is set with every connection that the watch channel
hands out, be it a new one or the old one again, and at the end of every connection that the loop of an
upstream has worked on.
-/

namespace Iscp

theorem Upstream.latestInv {o : Opened} {C : List Event → State → Action → Prop} {log : List Event}
    {s : State} (h : o.machine.Exec C log s) : s.resume.LatestInv (resumeEvents log) := by
  refine resume_invariant (I := fun es r => r.LatestInv es) h ?_ ?_ ?_
  · exact ⟨fun _ => rfl, History.each_singleton.2 trivial⟩
  · intro log s a r es _ hi hs
    exact hi.step hs
  · intro es r b n hn hi
    exact hi.restart hn b n

theorem Downstream.latestInv {o : Opened} {C : List Event → State → Action → Prop} {log : List Event}
    {s : State} (h : o.machine.Exec C log s) : s.resume.LatestInv (resumeEvents log) := by
  refine resume_invariant (I := fun es r => r.LatestInv es) h ?_ ?_ ?_
  · exact ⟨fun _ => rfl, History.each_singleton.2 trivial⟩
  · intro log s a r es _ hi hs
    exact hi.step hs
  · intro es r n hn hi
    exact hi.restart hn r.needResume n

/-- In every run of an upstream or of a downstream, each registration is on the connection of the latest
open or resume response, under the alias that it assigned. -/
theorem registrations_latest (up : Upstream.Opened) (down : Downstream.Opened) :
    (∀ log s, up.machine.Run log s →
      History.Each Resume.RegistersLatest (Upstream.resumeEvents log)) ∧
    ∀ log s, down.machine.Run log s →
      History.Each Resume.RegistersLatest (Downstream.resumeEvents log) :=
  ⟨fun _ _ h => (Upstream.latestInv h).each, fun _ _ h => (Downstream.latestInv h).each⟩

/-- Each stream is registered anew, on the connection of its resume. -/
theorem registrations_latest_resumed :
    (∃ log s, Upstream.defaultOpened.machine.Run log s ∧ .registered 1 2 ∈ Upstream.resumeEvents log ∧
      History.Each Resume.RegistersLatest (Upstream.resumeEvents log)) ∧
    ∃ log s, Downstream.defaultOpened.machine.Run log s ∧
      .registered 1 2 ∈ Downstream.resumeEvents log ∧
      History.Each Resume.RegistersLatest (Downstream.resumeEvents log) := by
  constructor
  · obtain ⟨log, s, h, hr⟩ := Machine.Exec.exists_of_any (M := Upstream.defaultOpened.machine)
      (C := fun _ _ _ => True)
      (Upstream.reconnectRun ++
        ([.resume (.responded (.ok (2, "b"))), .resume (.poll 0 true)] : List Upstream.Action))
      (P := fun log _ => .registered 1 2 ∈ Upstream.resumeEvents log) (by decide +kernel)
    exact ⟨log, s, h, hr, (registrations_latest Upstream.defaultOpened Downstream.defaultOpened).1 log s h⟩
  · obtain ⟨log, s, h, hr⟩ := Machine.Exec.exists_of_any (M := Downstream.defaultOpened.machine)
      (C := fun _ _ _ => True)
      (Downstream.startRun ++ ([.senderDropped, .loop .recv] : List Downstream.Action) ++
        Downstream.reconnectRun ++
        ([.resume (.responded (.ok (0, "b"))), .resume (.poll 0 true)] : List Downstream.Action))
      (P := fun log _ => .registered 1 2 ∈ Downstream.resumeEvents log) (by decide +kernel)
    exact ⟨log, s, h, hr, (registrations_latest Upstream.defaultOpened Downstream.defaultOpened).2 log s h⟩

end Iscp
