import NodeClient.Proofs.Link.Lifecycle

/-!
# Wire — a link whose peer sends at any time

The frames of the peer wait on the connection until the task of the link reads them, one at a time
and only while it listens: none is read while a text is being written.  A run interleaves the frames
that come in, the reads of the task and all else that can happen to the link, in any order.

* `link_step`, `link_run`: a run is a schedule of the link.
* `reads_append_inbox`: frames are read once each, in the order in which they come in.
* `heard_inputs`: the task hears the texts that it reads.
* `one_shot`: what holds of a link in every run, from before it is told to connect.
-/

namespace NodeClient
namespace Link

/-- What the connection brings: a frame of the peer, or its end. -/
inductive Frame where
  | text (content : String)
  /-- A frame that is no text. -/
  | other
  /-- The peer closed the connection. -/
  | close
  /-- The connection broke. -/
  | broken (reason : String)
deriving DecidableEq, Repr

/-- What a frame is to the task that reads it. -/
def Frame.input : Frame → Input
  | .text content => .text content
  | .other => .otherFrame
  | .close => .peerClosed
  | .broken reason => .broken reason

/-- The text of a frame. -/
def Frame.text? : Frame → Option String
  | .text content => some content
  | _ => none

/-- Whether an input is a frame. -/
def Input.isFrame : Input → Bool
  | .text _ | .otherFrame | .peerClosed | .broken _ => true
  | _ => false

end Link

/-- A link, and the frames that its task has not read. -/
structure Wire where
  link : Link
  inbox : List Link.Frame := []
deriving DecidableEq, Repr

namespace Wire

open Link (Frame Effect)

/-- What can happen on a wire. -/
inductive Move where
  /-- A frame comes in. -/
  | arrive (frame : Frame)
  /-- The task reads the next frame. -/
  | read
  /-- A call, an outcome of the handshake or of a write, or another step of the task. -/
  | input (i : Link.Input) (h : i.isFrame = false)

/-- What a move does; a task that does not listen reads nothing. -/
def step (w : Wire) : Move → Wire × List Effect
  | .arrive frame => ({ w with inbox := w.inbox ++ [frame] }, [])
  | .read =>
    match w.link.task, w.inbox with
    | .listening, frame :: rest =>
      ({ link := (w.link.step frame.input).1, inbox := rest }, (w.link.step frame.input).2)
    | _, _ => (w, [])
  | .input i _ => ({ w with link := (w.link.step i).1 }, (w.link.step i).2)

/-- A run, with all that the link does in it. -/
def run (w : Wire) : List Move → Wire × List Effect
  | [] => (w, [])
  | m :: rest => (((w.step m).1.run rest).1, (w.step m).2 ++ ((w.step m).1.run rest).2)

/-- The frame that comes in with a move. -/
def Move.arrived? : Move → Option Frame
  | .arrive frame => some frame
  | _ => none

/-- The text that a caller asks to send. -/
def Move.asked? : Move → Option String
  | .input i _ => i.asked?
  | _ => none

/-- The frame that the task reads. -/
def readsBy (w : Wire) : Move → List Frame
  | .read =>
    match w.link.task, w.inbox with
    | .listening, frame :: _ => [frame]
    | _, _ => []
  | _ => []

/-- What happens to the link. -/
def inputsBy (w : Wire) : Move → List Link.Input
  | .arrive _ => []
  | .read => (w.readsBy .read).map Frame.input
  | .input i _ => [i]

/-- The frames that are read in a run. -/
def reads (w : Wire) : List Move → List Frame
  | [] => []
  | m :: rest => w.readsBy m ++ (w.step m).1.reads rest

/-- What happens to the link in a run. -/
def inputs (w : Wire) : List Move → List Link.Input
  | [] => []
  | m :: rest => w.inputsBy m ++ (w.step m).1.inputs rest

/-! ### A run is a schedule of the link -/

/-- A task that listens reads the next frame, if there is one. -/
theorem read_cases (w : Wire) :
    (w.step .read = (w, []) ∧ w.readsBy .read = []) ∨
      ∃ frame rest, w.link.task = .listening ∧ w.inbox = frame :: rest ∧
        w.readsBy .read = [frame] ∧
        w.step .read =
          ({ link := (w.link.step frame.input).1, inbox := rest },
            (w.link.step frame.input).2) := by
  obtain ⟨link, inbox⟩ := w
  by_cases ht : link.task = .listening
  · cases inbox with
    | nil => exact .inl ⟨by simp [step], by simp [readsBy]⟩
    | cons frame rest =>
      exact .inr ⟨frame, rest, ht, rfl, by simp [readsBy, ht], by simp [step, ht]⟩
  · exact .inl ⟨by simp [step, ht], by simp [readsBy, ht]⟩

/-- **A move is a step of the link** or leaves the link alone. -/
theorem link_step (w : Wire) (m : Move) :
    (∃ i, w.inputsBy m = [i] ∧ (w.step m).1.link = (w.link.step i).1 ∧
        (w.step m).2 = (w.link.step i).2) ∨
      (w.inputsBy m = [] ∧ (w.step m).1.link = w.link ∧ (w.step m).2 = []) := by
  cases m with
  | arrive frame => exact .inr ⟨rfl, rfl, rfl⟩
  | input i _ => exact .inl ⟨i, rfl, rfl, rfl⟩
  | read =>
    rcases w.read_cases with ⟨hstep, hreads⟩ | ⟨frame, rest, -, -, hreads, hstep⟩
    · exact .inr ⟨by rw [inputsBy, hreads]; rfl, by rw [hstep], by rw [hstep]⟩
    · exact .inl ⟨frame.input, by rw [inputsBy, hreads]; rfl, by rw [hstep], by rw [hstep]⟩

/-- **A run is a schedule of the link.** -/
theorem link_run (w : Wire) (moves : List Move) :
    ((w.run moves).1.link, (w.run moves).2) = w.link.run (w.inputs moves) := by
  induction moves generalizing w with
  | nil => rfl
  | cons m rest ih =>
    rw [inputs]
    rcases w.link_step m with ⟨i, hinputs, hlink, heffects⟩ | ⟨hinputs, hlink, heffects⟩
    · rw [hinputs, List.singleton_append, Link.run_cons, ← hlink, ← ih, run, heffects]
    · rw [hinputs, List.nil_append, ← hlink, ← ih, run, heffects, List.nil_append]

/-! ### Frames -/

theorem reads_step (w : Wire) (m : Move) :
    w.readsBy m ++ (w.step m).1.inbox = w.inbox ++ [m].filterMap Move.arrived? := by
  cases m with
  | arrive frame => rfl
  | input i _ => exact (List.append_nil _).symm
  | read =>
    rcases w.read_cases with ⟨hstep, hreads⟩ | ⟨frame, rest, -, hinbox, hreads, hstep⟩
    · rw [hstep, hreads]
      exact (List.append_nil _).symm
    · rw [hstep, hreads, hinbox]
      exact (List.append_nil _).symm

/-- **Frames are read once each**, in the order in which they come in. -/
theorem reads_append_inbox (w : Wire) (moves : List Move) :
    w.reads moves ++ (w.run moves).1.inbox = w.inbox ++ moves.filterMap Move.arrived? := by
  induction moves generalizing w with
  | nil => exact (List.append_nil _).symm
  | cons m rest ih =>
    calc w.reads (m :: rest) ++ (w.run (m :: rest)).1.inbox
        = w.readsBy m ++ ((w.step m).1.reads rest ++ ((w.step m).1.run rest).1.inbox) := by
          rw [reads, List.append_assoc, run]
      _ = w.readsBy m ++ (w.step m).1.inbox ++ rest.filterMap Move.arrived? := by
          rw [ih, List.append_assoc]
      _ = w.inbox ++ ([m] ++ rest).filterMap Move.arrived? := by
          rw [reads_step, List.append_assoc, List.filterMap_append]

/-- The task hears a text when it reads its frame. -/
theorem heard_inputsBy (w : Wire) (m : Move) :
    (w.inputsBy m).flatMap w.link.heardBy = (w.readsBy m).filterMap Frame.text? := by
  cases m with
  | arrive frame => rfl
  | input i h =>
    cases i with
    | text content => cases h
    | _ => rfl
  | read =>
    rw [inputsBy]
    rcases w.read_cases with ⟨-, hreads⟩ | ⟨frame, rest, ht, -, hreads, -⟩ <;> rw [hreads]
    · rfl
    · cases frame with
      | text content => simp [Frame.input, Frame.text?, Link.heardBy, ht]
      | _ => rfl

/-- **The task hears the texts that it reads.** -/
theorem heard_inputs (w : Wire) (moves : List Move) :
    w.link.heard (w.inputs moves) = (w.reads moves).filterMap Frame.text? := by
  induction moves generalizing w with
  | nil => rfl
  | cons m rest ih =>
    rw [inputs, reads, List.filterMap_append, ← heard_inputsBy, ← ih]
    rcases w.link_step m with ⟨i, hinputs, hlink, -⟩ | ⟨hinputs, hlink, -⟩
    · rw [hinputs, hlink, List.singleton_append, Link.heard, List.flatMap_singleton]
    · rw [hinputs, hlink]
      rfl

theorem asked_inputs (w : Wire) (moves : List Move) :
    (w.inputs moves).filterMap Link.Input.asked? = moves.filterMap Move.asked? := by
  induction moves generalizing w with
  | nil => rfl
  | cons m rest ih =>
    have hm : (w.inputsBy m).filterMap Link.Input.asked? = [m].filterMap Move.asked? := by
      cases m with
      | arrive frame => rfl
      | input i _ => rfl
      | read =>
        rw [inputsBy]
        rcases w.read_cases with ⟨-, hreads⟩ | ⟨frame, rest, -, -, hreads, -⟩
        · rw [hreads]
          rfl
        · rw [hreads]
          cases frame <;> rfl
    rw [inputs, List.filterMap_append, ih, hm, ← List.filterMap_append, List.singleton_append]

/-! ### Links that were torn down -/

theorem run_append (w : Wire) (first rest : List Move) :
    (w.run (first ++ rest)).1 = ((w.run first).1.run rest).1 := by
  induction first generalizing w with
  | nil => rfl
  | cons m first ih => exact ih _

theorem stays_closed {w : Wire} (h : w.link.state = .closed) (moves : List Move) :
    (w.run moves).1.link.state = .closed := by
  have hlink : (w.run moves).1.link = (w.link.run (w.inputs moves)).1 :=
    congrArg Prod.fst (w.link_run moves)
  rw [hlink]
  exact Link.closed_run h _

theorem closed_after_disconnect (w : Wire) (before after : List Move)
    (h : Link.Input.disconnect.isFrame = false) :
    (w.run (before ++ .input .disconnect h :: after)).1.link.state = .closed := by
  rw [run_append]
  exact stays_closed (Link.disconnect_state (w.run before).1.link) after

/-! ### The main result -/

/-- Sends with different numbers. -/
theorem nodup_numbered (n : Nat) (texts : List String) :
    ((Link.numbered n texts).map (·.1)).Nodup := by
  have hkeys : (Link.numbered n texts).map (·.1) = List.range' n texts.length := by
    rw [Link.numbered, List.map_map, ← List.zipIdx_map_snd n texts]
    rfl
  rw [hkeys]
  exact List.nodup_range'

/-- **A link is used once.**  In every run of a link, whatever its callers, the handshake, the peer
and the writes do, and in whatever order:

* each move leaves its state or takes it forward, and it dials at most once;
* the texts that are written are a prefix of those that were accepted, which are some of those that
  callers asked to send, in the order of their calls; none is written twice, and a send returns well
  only if the task has written its text;
* the frames of the peer are read once each and in order, and what is reported are the texts that
  were read, once each and in order, and then at most one event that ends the connection;
* once it was told to disconnect, waiting for the connection fails as closed, and a send fails at
  once as not connected and leaves nothing to write, whatever came since. -/
theorem one_shot (sendTimeout connectTimeout : Nat) (moves : List Move) :
    let start : Wire := { link := { sendTimeout, connectTimeout } }
    let now := (start.run moves).1
    let effects := (start.run moves).2
    let accepted := start.link.accepted (start.inputs moves)
    let writes := start.link.writes (start.inputs moves)
    (∀ m, now.link.state.Leads (now.step m).1.link.state) ∧
      effects.countP Effect.isDial ≤ 1 ∧
      (writes <+: accepted ∧
        accepted.Sublist (Link.numbered 0 (moves.filterMap Move.asked?)) ∧
        (writes.map (·.1)).Nodup ∧
        effects.filterMap Effect.written? = writes.map (·.2) ∧
        (effects.filterMap Effect.acked?).Sublist (writes.map (·.1))) ∧
      (start.reads moves ++ now.inbox = moves.filterMap Move.arrived? ∧
        ∃ ending : List LinkEvent,
          effects.filterMap Effect.event? =
            ((start.reads moves).filterMap Frame.text?).map .message ++ ending ∧
          ending.length ≤ 1 ∧ ∀ e ∈ ending, ∀ text, e ≠ .message text) ∧
      ∀ before h after, moves = before ++ .input .disconnect h :: after →
        now.link.connected? = some (.error .closed) ∧
          ∀ text, (now.link.send text).2 =
              [.answer now.link.nextSend (.error .notConnected)] ∧
            (now.link.send text).1.outbox = now.link.outbox := by
  intro start now effects accepted writes
  have horderly : start.link.Orderly := Link.orderly_start sendTimeout connectTimeout
  have hrun : (now.link, effects) = start.link.run (start.inputs moves) := start.link_run moves
  have heffects : effects = (start.link.run (start.inputs moves)).2 := congrArg Prod.snd hrun
  have haccepted : accepted.Sublist (Link.numbered 0 (moves.filterMap Move.asked?)) := by
    rw [← start.asked_inputs]
    exact start.link.accepted_sublist _
  have hwrites : writes <+: accepted := Link.writes_prefix horderly _
  refine ⟨fun m => ?_, ?_, ⟨hwrites, haccepted, ?_, ?_, ?_⟩,
    ⟨start.reads_append_inbox moves, ?_⟩, ?_⟩
  · rcases now.link_step m with ⟨i, -, hlink, -⟩ | ⟨-, hlink, -⟩ <;> rw [hlink]
    · exact Link.leads_step _ i
    · exact .stay _
  · rw [heffects]
    exact Link.dials_run _ _
  · exact ((hwrites.sublist.trans haccepted).map _).nodup (nodup_numbered ..)
  · rw [heffects]
    exact Link.written_run _ _
  · rw [heffects]
    exact Link.acked_sublist _ _
  · rw [heffects, ← start.heard_inputs]
    exact Link.events_run horderly _
  · intro before h after hmoves
    have hclosed : now.link.state = .closed := by
      rw [show now = (start.run moves).1 from rfl, hmoves]
      exact start.closed_after_disconnect before after h
    exact ⟨by simp [Link.connected?, hclosed], Link.send_of_closed hclosed⟩

/-- A frame that comes in while a text is being written waits for the end of the write. -/
def writeAndFrame : List Move :=
  [.input .connect rfl, .input .opened rfl, .input (.send "a") rfl, .input .take rfl,
    .arrive (.text "b"), .read, .input .wrote rfl, .read]

/-- The text is written once and the frame reported once; told to disconnect, the link sends
nothing more. -/
theorem text_written_then_frame_reported :
    let start : Wire := { link := { sendTimeout := 1, connectTimeout := 1 } }
    let moves := writeAndFrame ++ [.input .disconnect rfl]
    let now := (start.run moves).1
    (start.run moves).2 =
        [.dial, .written "a", .answer 0 (.ok ()), .event (.message "b")] ∧
      start.link.writes (start.inputs moves) = [(0, "a")] ∧
      start.reads moves = [.text "b"] ∧
      now.link.connected? = some (.error .closed) ∧
      (now.link.send "c").2 = [.answer 1 (.error .notConnected)] := by
  intro start moves now
  obtain ⟨-, -, -, -, hclosed⟩ := one_shot 1 1 moves
  obtain ⟨hconnected, hsend⟩ := hclosed writeAndFrame rfl [] rfl
  exact ⟨rfl, rfl, rfl, hconnected, (hsend "c").1⟩

end Wire
end NodeClient
