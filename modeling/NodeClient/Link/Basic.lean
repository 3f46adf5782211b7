import NodeClient.Error
import NodeClient.Link.Event

/-!
# Link — one connection, made at most once

A link is told to connect once and then lives until its connection ends; a new connection takes a
new link.  One task works for it: it dials, hands on the texts of the peer and writes the texts that
are to be sent, one at a time and in the order in which they were accepted.  A send waits until its
text is written.

`Link.step` takes any input: a call, or something that the task meets.  Events and the answers to
sends are returned as a list of `Effect`s.
-/

namespace NodeClient
namespace Link

/-- The state of a link. -/
inductive State where
  | idle
  | connecting
  | opened
  | failed (reason : String)
  | closed
deriving DecidableEq, Repr

/-- The name of a state. -/
def State.name : State → String
  | .idle => "Idle"
  | .connecting => "Connecting"
  | .opened => "Open"
  | .failed _ => "Failed"
  | .closed => "Closed"

/-- Where the task of a link stands. -/
inductive Task where
  | unstarted
  /-- It waits for the end of the handshake. -/
  | dialing
  /-- It waits for a frame of the peer and for a text to send. -/
  | listening
  /-- It writes the text of a send. -/
  | writing (send : Nat) (text : String)
  | ended
deriving DecidableEq, Repr

/-- What a link does. -/
inductive Effect where
  /-- It starts to connect. -/
  | dial
  /-- A text was written. -/
  | written (text : String)
  /-- It says to the peer that it closes the connection. -/
  | hangUp
  | event (e : LinkEvent)
  /-- A send returns. -/
  | answer (send : Nat) (result : Except TransportError Unit)

end Link

/-- A link. -/
structure Link where
  /-- How long a send waits, in milliseconds. -/
  sendTimeout : Nat
  /-- How long the handshake may take, in milliseconds. -/
  connectTimeout : Nat
  state : Link.State := .idle
  task : Link.Task := .unstarted
  /-- The number of the next send. -/
  nextSend : Nat := 0
  /-- The sends that have not returned. -/
  waiting : List Nat := []
  /-- The texts that were accepted and that the task has not taken. -/
  outbox : List (Nat × String) := []
deriving DecidableEq, Repr

namespace Link

/-! ### Calls -/

/-- Starts to connect, the first time. -/
def connect (link : Link) : Link × List Effect :=
  if link.state = .idle then ({ link with state := .connecting, task := .dialing }, [.dial])
  else (link, [])

/-- What waiting for the connection comes to, once that is known. -/
def connected? (link : Link) : Option (Except TransportError Unit) :=
  match link.state with
  | .idle | .connecting => none
  | .opened => some (.ok ())
  | .failed reason => some (.error (.connect reason))
  | .closed => some (.error .closed)

/-- Accepts a text if the link is open. -/
def send (link : Link) (text : String) : Link × List Effect :=
  let k := link.nextSend
  let link := { link with nextSend := k + 1 }
  if link.state = .opened then
    ({ link with waiting := link.waiting ++ [k], outbox := link.outbox ++ [(k, text)] }, [])
  else (link, [.answer k (.error .notConnected)])

/-- Tears the link down.  Texts that were accepted are still written. -/
def disconnect (link : Link) : Link :=
  if link.state = .connecting then { link with state := .closed, task := .ended }
  else { link with state := .closed }

/-! ### The task -/

/-- A send returns, if it has not yet. -/
def answer (link : Link) (k : Nat) (result : Except TransportError Unit) : Link × List Effect :=
  if link.waiting.contains k then
    ({ link with waiting := link.waiting.erase k }, [.answer k result])
  else (link, [])

/-- The connection ends; the texts that were not written are lost. -/
def stop (link : Link) : Link × List Effect :=
  let lost := (link.outbox.map (·.1)).filter link.waiting.contains
  ({ link with
      state := .closed
      task := .ended
      waiting := link.waiting.filter fun k => !lost.contains k
      outbox := [] },
    lost.map fun k => .answer k (.error .closed))

/-- The connection ends after an event. -/
def stopWith (link : Link) (e : LinkEvent) : Link × List Effect :=
  let (link, effects) := link.stop
  (link, .event e :: effects)

/-- The handshake failed. -/
def failDialing (link : Link) (reason : String) : Link :=
  let link := { link with task := .ended }
  if link.state = .connecting then { link with state := .failed reason } else link

/-- What can happen to a link. -/
inductive Input where
  | connect
  | disconnect
  | send (text : String)
  /-- The handshake succeeded. -/
  | opened
  /-- The handshake failed. -/
  | refused (reason : String)
  /-- The handshake took too long. -/
  | dialExpired
  /-- The peer sent a text. -/
  | text (text : String)
  /-- The peer sent a frame that is no text. -/
  | otherFrame
  /-- The peer closed the connection. -/
  | peerClosed
  /-- The connection broke. -/
  | broken (reason : String)
  /-- The task takes the next text to send. -/
  | take
  /-- The text that the task was writing is written. -/
  | wrote
  /-- It could not be written. -/
  | writeFailed (reason : String)
  /-- The task finds that the link was torn down and nothing is left to send. -/
  | finish
  /-- A send took too long. -/
  | sendExpired (send : Nat)
deriving DecidableEq, Repr

/-- What an input does while the task waits for frames and texts. -/
def listen (link : Link) : Input → Link × List Effect
  | .text text => (link, [.event (.message text)])
  | .peerClosed => link.stopWith .closed
  | .broken reason => link.stopWith (.error reason)
  | .take =>
    match link.outbox with
    | [] => (link, [])
    | (k, text) :: rest => ({ link with task := .writing k text, outbox := rest }, [])
  | .finish =>
    if link.state = .closed ∧ link.outbox = [] then
      let (link, effects) := link.stop
      (link, .hangUp :: effects)
    else (link, [])
  | _ => (link, [])

/-- What an input does to the task. -/
def work (link : Link) (i : Input) : Link × List Effect :=
  match link.task, i with
  | .dialing, .opened =>
    if link.state = .connecting then ({ link with state := .opened, task := .listening }, [])
    else ({ link with task := .ended }, [])
  | .dialing, .refused reason => (link.failDialing reason, [])
  | .dialing, .dialExpired =>
    (link.failDialing ("timed out after " ++ millisText link.connectTimeout), [])
  | .listening, i => link.listen i
  | .writing k text, .wrote =>
    let (link, effects) := { link with task := .listening }.answer k (.ok ())
    (link, .written text :: effects)
  | .writing k _, .writeFailed reason =>
    let (link, first) := link.answer k (.error (.frame reason))
    let (link, rest) := link.stopWith (.error "write failed")
    (link, first ++ rest)
  | _, _ => (link, [])

/-- What an input does; one that does not fit the state does nothing. -/
def step (link : Link) : Input → Link × List Effect
  | .connect => link.connect
  | .disconnect => (link.disconnect, [])
  | .send text => link.send text
  | .sendExpired k => link.answer k (.error (.sendTimeout link.sendTimeout))
  | i => link.work i

/-- The effects of a schedule. -/
def run (link : Link) : List Input → Link × List Effect
  | [] => (link, [])
  | i :: rest =>
    let (link, first) := link.step i
    let (link, others) := link.run rest
    (link, first ++ others)

end Link
end NodeClient
