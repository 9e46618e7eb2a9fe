import Iscp.Downstream.Control
import Iscp.Upstream.Control

/-!
# The tokens of the resume requests

Upstreams and downstreams share the resume loop, and with it what happens to a loop whose connection is
lost again after a successful resume and before the registration: it still holds the token that the
resume has used up, and sends that one again.
-/

namespace Iscp

/-- In every run of an upstream or of a downstream whose resume loop never finds the connection lost in
this place, each resume request carries the token of the latest open or resume response. -/
theorem resume_tokens_fresh (up : Upstream.Opened) (down : Downstream.Opened) :
    (∀ log s, up.machine.Exec (fun _ => Upstream.NeverStale) log s →
      Resume.TokensFresh (Upstream.resumeEvents log)) ∧
    ∀ log s, down.machine.Exec (fun _ => Downstream.NeverStale) log s →
      Resume.TokensFresh (Downstream.resumeEvents log) :=
  ⟨fun _ _ h => (Upstream.tokenInv h).fresh, fun _ _ h => (Downstream.tokenInv h).fresh⟩

/-! ### Sample runs -/

/-- The loop of an upstream joins its resume task and finds its connection lost; the new task asks for a
resume on the next connection. -/
def Upstream.reconnectRun : List Upstream.Action :=
  startRun ++ ([.wire (.disconnect 0), .wire .publish, .loop .ackClosed, .loop .recover,
    .resume (.poll 0 true), .resume (.updated 1), .resume (.poll 0 true)] : List Upstream.Action)

/-- A resume succeeds, and the stream is registered again. -/
theorem resume_tokens_fresh_resumed :
    (∃ log s, Upstream.defaultOpened.machine.Exec (fun _ => Upstream.NeverStale) log s ∧
      .registered 1 2 ∈ Upstream.resumeEvents log ∧ Resume.TokensFresh (Upstream.resumeEvents log)) ∧
    ∃ log s, Downstream.defaultOpened.machine.Exec (fun _ => Downstream.NeverStale) log s ∧
      .registered 1 2 ∈ Downstream.resumeEvents log ∧ Resume.TokensFresh (Downstream.resumeEvents log) := by
  constructor
  · obtain ⟨log, s, h, hr⟩ := Machine.Exec.exists_of_any (M := Upstream.defaultOpened.machine)
      (C := fun _ => Upstream.NeverStale)
      (Upstream.reconnectRun ++
        ([.resume (.responded (.ok (2, "b"))), .resume (.poll 0 true)] : List Upstream.Action))
      (P := fun log _ => .registered 1 2 ∈ Upstream.resumeEvents log) (by decide +kernel)
    exact ⟨log, s, h, hr, (resume_tokens_fresh Upstream.defaultOpened Downstream.defaultOpened).1 log s h⟩
  · obtain ⟨log, s, h, hr⟩ := Machine.Exec.exists_of_any (M := Downstream.defaultOpened.machine)
      (C := fun _ => Downstream.NeverStale)
      (Downstream.startRun ++ ([.senderDropped, .loop .recv] : List Downstream.Action) ++
        Downstream.reconnectRun ++
        ([.resume (.responded (.ok (0, "b"))), .resume (.poll 0 true)] : List Downstream.Action))
      (P := fun log _ => .registered 1 2 ∈ Downstream.resumeEvents log) (by decide +kernel)
    exact ⟨log, s, h, hr, (resume_tokens_fresh Upstream.defaultOpened Downstream.defaultOpened).2 log s h⟩

/-- The connection of the resume is lost before the registration: the next request carries the token
that the resume has used up, and not the one its response brought. -/
theorem resume_token_stale :
    (∃ log s, Upstream.defaultOpened.machine.Run log s ∧
      ¬ Resume.TokensFresh (Upstream.resumeEvents log)) ∧
    ∃ log s, Downstream.defaultOpened.machine.Run log s ∧
      ¬ Resume.TokensFresh (Downstream.resumeEvents log) := by
  constructor
  · exact Machine.Exec.exists_of_any (Upstream.reconnectRun ++
      ([.resume (.responded (.ok (2, "b"))), .wire (.disconnect 1), .wire .publish,
        .resume (.poll 0 true), .resume (.updated 2), .resume (.poll 0 true)] : List Upstream.Action))
      (by decide +kernel)
  · exact Machine.Exec.exists_of_any (Downstream.startRun ++
      ([.senderDropped, .loop .recv] : List Downstream.Action) ++ Downstream.reconnectRun ++
      ([.resume (.responded (.ok (0, "b"))), .wire (.disconnect 1), .wire .publish,
        .resume (.poll 3 true), .resume (.updated 2), .resume (.poll 3 true)] : List Downstream.Action))
      (by decide +kernel)

end Iscp
