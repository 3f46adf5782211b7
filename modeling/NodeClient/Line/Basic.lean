import NodeClient.Link.Event

/-!
# Line — a lasting line to a node over links that are used once

A link connects at most once.  A line owns one link at a time and replaces it when it is told to
reconnect; the links are numbered in the order in which they were made.  Requests are queued while
there is no connection and sent in order once there is one.

Four parties work on a line: its callers, one forwarder per link, one task per attempt to connect
and one task that drains the queue.  A task is a small machine: `Forwarder`, `Attempt` and `Drain`
say between which of its actions it stands.  What a line does to its links and tells its owner is
returned as a list of `Effect`s.
-/

namespace NodeClient

/-- The state of the connection. -/
inductive Status where
  | unconnected
  | connecting
  | connected
  | disconnected
deriving DecidableEq, Repr, Inhabited

/-- The name of a status. -/
def Status.name : Status → String
  | .unconnected => "Unconnected"
  | .connecting => "Connecting"
  | .connected => "Connected"
  | .disconnected => "Disconnected"

namespace Line

/-- What a caller can ask of a line. -/
inductive Call where
  | queue (text : String)
  | connect
  | disconnect
  | reconnect
deriving DecidableEq, Repr

/-- What a line does to its links or tells its owner. -/
inductive Effect where
  /-- The status changed to this. -/
  | status (s : Status)
  /-- An event of a link is handed on. -/
  | event (link : Nat) (e : LinkEvent)
  /-- A link was made. -/
  | create (link : Nat)
  /-- A link is told to connect. -/
  | connect (link : Nat)
  /-- A link is torn down. -/
  | disconnect (link : Nat)
  /-- A text is given to a link to be sent. -/
  | send (link : Nat) (text : String)
deriving DecidableEq, Repr

/-- Where the forwarder of a link stands. -/
inductive ForwarderPhase where
  /-- It waits for an event. -/
  | listening
  /-- It took an event. -/
  | taken (e : LinkEvent)
  /-- It saw that the link is the current one and is about to set the status. -/
  | losing (e : LinkEvent)
  /-- It is about to hand on the event. -/
  | passing (e : LinkEvent)
deriving DecidableEq, Repr

/-- The task that hands on the events of one link.  Once stopped it takes no further event. -/
structure Forwarder where
  phase : ForwarderPhase := .listening
  stopped : Bool := false
deriving DecidableEq, Repr

/-- Where an attempt to connect stands. -/
inductive AttemptPhase where
  /-- It waits for the link to open or fail. -/
  | waiting
  /-- The link opened, or failed. -/
  | settled (opened : Bool)
  /-- It is about to greet the new connection; the owner says how. -/
  | due
  /-- It makes the calls of the greeting. -/
  | greeting (calls : List Call)
  /-- It is about to set the status to connected. -/
  | confirming
  /-- The link failed; it has not looked yet whether the link is still the current one. -/
  | failing
  /-- It saw that it is, and is about to set the status. -/
  | losing
  | over
deriving DecidableEq, Repr

/-- The task that waits for a link to open. -/
structure Attempt where
  link : Nat
  /-- It was started by a reconnect. -/
  again : Bool
  phase : AttemptPhase := .waiting
deriving DecidableEq, Repr

/-- Where the task that drains the queue stands. -/
inductive Drain where
  /-- It holds nothing and waits for a request. -/
  | idle
  /-- It holds requests and waits for a connection. -/
  | holding
  /-- It saw a connection and is about to take the current link. -/
  | picking
  /-- It is about to send the next request on a link. -/
  | draining (link : Nat)
  /-- It waits for a link to send a request. -/
  | sending (link : Nat) (text : String)
  /-- The link failed to send; it has not looked yet whether the link is still the current one. -/
  | failed (link : Nat)
  /-- It saw that it is, and is about to set the status. -/
  | losing
  | ended
deriving DecidableEq, Repr

end Line

/-- A line. -/
structure Line where
  status : Status := .unconnected
  /-- The current link. -/
  current : Nat := 0
  /-- The forwarders of the links made so far, by link. -/
  forwarders : List Line.Forwarder := [{}]
  /-- The attempts to connect so far. -/
  attempts : List Line.Attempt := []
  /-- Requests that the draining task has not taken yet. -/
  channel : List String := []
  /-- Requests that it has taken and not sent. -/
  pending : List String := []
  /-- The number of requests that were queued and not sent. -/
  outstanding : Nat := 0
  drain : Line.Drain := .idle
  /-- The owner greets new connections. -/
  greets : Bool := false
  /-- The owner let go of the line. -/
  dropped : Bool := false
deriving DecidableEq, Repr

namespace Line

/-- The effects of making a line: its first link. -/
def initialEffects : List Effect := [.create 0]

/-- One action after another. -/
def andThen (first : Line × List Effect) (next : Line → Line × List Effect) : Line × List Effect :=
  let second := next first.1
  (second.1, first.2 ++ second.2)

/-- Sets the status; a status that stays the same is not told. -/
def setStatus (s : Status) (line : Line) : Line × List Effect :=
  if line.status = s then (line, []) else ({ line with status := s }, [.status s])

/-- Whether somebody still holds the line: its owner, or the draining task at work. -/
def isHeld (line : Line) : Bool :=
  !line.dropped ||
    match line.drain with
    | .draining _ | .sending _ _ | .failed _ | .losing => true
    | _ => false

/-! ### Calls -/

/-- Connects the current link. -/
def startConnecting (again : Bool) (line : Line) : Line × List Effect :=
  andThen (setStatus .connecting line) fun line =>
    ({ line with attempts := line.attempts ++ [{ link := line.current, again }] },
      [.connect line.current])

/-- Stops the forwarder of a link. -/
def stopForwarder (link : Nat) (line : Line) : Line :=
  { line with forwarders := line.forwarders.modify link fun f => { f with stopped := true } }

/-- Makes a new link the current one, and tears down the one before it. -/
def replaceLink (line : Line) : Line × List Effect :=
  let fresh := line.forwarders.length
  let old := line.current
  let made := ({ line with forwarders := line.forwarders ++ [{}] }, [Effect.create fresh])
  andThen (andThen made (setStatus .connecting)) fun line =>
    (stopForwarder old { line with current := fresh }, [.disconnect old])

/-- Answers a call. -/
def call (line : Line) : Call → Line × List Effect
  | .queue text =>
    ({ line with channel := line.channel ++ [text], outstanding := line.outstanding + 1 }, [])
  | .connect =>
    if line.status = .connecting ∨ line.status = .connected then (line, [])
    else startConnecting false line
  | .disconnect =>
    andThen (setStatus .disconnected line) fun line => (line, [.disconnect line.current])
  | .reconnect => andThen (replaceLink line) (startConnecting true)

/-- The owner lets go of the line. -/
def drop (line : Line) : Line × List Effect :=
  (stopForwarder line.current { line with dropped := true }, [.disconnect line.current])

end Line
end NodeClient
