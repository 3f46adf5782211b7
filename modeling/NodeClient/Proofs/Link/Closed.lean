import NodeClient.Link.Basic

/-!
# Closed links — what a link does after it was told to disconnect

A link that is closed stays closed, whatever it is told and whatever its task meets; and it accepts
no text.

* `closed_step`, `closed_run`: a closed link stays closed.
* `disconnect_state`: a link is closed from the moment on that it is told to disconnect.
* `send_of_closed`: a send on a closed link fails at once.
-/

namespace NodeClient
namespace Link

variable {link : Link}

theorem answer_state (link : Link) (k : Nat) (result : Except TransportError Unit) :
    (link.answer k result).1.state = link.state := by
  unfold answer
  split <;> rfl

theorem closed_listen (h : link.state = .closed) (i : Input) :
    (link.listen i).1.state = .closed := by
  unfold listen
  split
  · exact h
  · rfl
  · rfl
  · split <;> exact h
  · split
    · rfl
    · exact h
  · exact h

theorem closed_work (h : link.state = .closed) (i : Input) : (link.work i).1.state = .closed := by
  have hdialing : ∀ reason, (link.failDialing reason).state = .closed := fun reason => by
    simp [failDialing, h]
  unfold work
  split
  · rw [if_neg (by simp [h])]
    exact h
  · exact hdialing _
  · exact hdialing _
  · exact closed_listen h _
  · exact (answer_state ..).trans h
  · rfl
  · exact h

theorem closed_step (h : link.state = .closed) (i : Input) : (link.step i).1.state = .closed := by
  cases i with
  | connect => simp [step, connect, h]
  | disconnect => simp [step, disconnect, h]
  | send text => simp [step, send, h]
  | sendExpired k => exact (answer_state ..).trans h
  | _ => exact closed_work h _

theorem closed_run (h : link.state = .closed) (inputs : List Input) :
    (link.run inputs).1.state = .closed := by
  induction inputs generalizing link with
  | nil => exact h
  | cons i rest ih => exact ih (closed_step h i)

theorem disconnect_state (link : Link) : link.disconnect.state = .closed := by
  unfold disconnect
  split <;> rfl

/-- A send on a closed link fails at once, and leaves nothing to write. -/
theorem send_of_closed (h : link.state = .closed) (text : String) :
    (link.send text).2 = [.answer link.nextSend (.error .notConnected)] ∧
      (link.send text).1.outbox = link.outbox := by
  simp [send, h]

end Link
end NodeClient
