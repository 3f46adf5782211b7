import NodeClient.Line.Basic

/-!
# Line steps — the actions of the tasks of a line

`Line.act?` is the next single action of a task, none while it has to wait.  Looking whether a link
is the current one and setting the status afterwards are two actions, so that other parties can come
between them.  `Line.step` takes any input: a call, an outcome that a link reports, or one action of
a task; `Line.run` folds it over a schedule.  `Line.settle` lets one task act until it has to wait.
-/

namespace NodeClient
namespace Line

/-- The tasks of a line. -/
inductive Task where
  | forwarder (link : Nat)
  | attempt (index : Nat)
  | drain
deriving DecidableEq, Repr

/-! ### Forwarders -/

/-- Puts a forwarder into a phase. -/
def setForwarder (link : Nat) (phase : ForwarderPhase) (line : Line) : Line :=
  { line with forwarders := line.forwarders.modify link fun f => { f with phase } }

/-- The next action of the forwarder of a link. -/
def actForwarder? (line : Line) (link : Nat) : Option (Line × List Effect) :=
  match line.forwarders[link]? with
  | none => none
  | some f =>
    match f.phase with
    | .listening => none
    | .taken e =>
      if !line.isHeld then
        some (stopForwarder link (setForwarder link .listening line), [])
      else
        match e with
        | .message _ => some (setForwarder link (.passing e) line, [])
        | _ =>
          if line.current = link then some (setForwarder link (.losing e) line, [])
          else some (setForwarder link (.passing e) line, [])
    | .losing e => some (setStatus .disconnected (setForwarder link (.passing e) line))
    | .passing e => some (setForwarder link .listening line, [.event link e])

/-! ### Attempts -/

/-- Puts an attempt into a phase. -/
def setAttempt (index : Nat) (phase : AttemptPhase) (line : Line) : Line :=
  { line with attempts := line.attempts.modify index fun a => { a with phase } }

/-- The next action of an attempt to connect. -/
def actAttempt? (line : Line) (index : Nat) : Option (Line × List Effect) :=
  match line.attempts[index]? with
  | none => none
  | some a =>
    match a.phase with
    | .waiting | .due | .over => none
    | .settled opened =>
      if !line.isHeld || line.current ≠ a.link then some (setAttempt index .over line, [])
      else if !opened then some (setAttempt index .failing line, [])
      else if a.again && line.greets then some (setAttempt index .due line, [])
      else some (setAttempt index .confirming line, [])
    | .greeting [] => some (setAttempt index .confirming line, [])
    | .greeting (c :: calls) => some ((setAttempt index (.greeting calls) line).call c)
    | .confirming =>
      let line := setAttempt index .over line
      -- a disconnect that came first stays
      if line.status = .connecting then some (setStatus .connected line) else some (line, [])
    | .failing =>
      if line.current = a.link then some (setAttempt index .losing line, [])
      else some (setAttempt index .over line, [])
    | .losing => some (setStatus .disconnected (setAttempt index .over line))

/-! ### The draining task -/

/-- The next action of the draining task. -/
def actDrain? (line : Line) : Option (Line × List Effect) :=
  match line.drain with
  | .idle =>
    if line.dropped then some ({ line with drain := .ended }, [])
    else
      match line.channel with
      | [] => none
      | text :: rest =>
        let pending := line.pending ++ [text]
        some ({ line with channel := rest, pending, drain := .holding }, [])
  | .holding =>
    if line.dropped then some ({ line with drain := .ended }, [])
    else if line.status = .connected then some ({ line with drain := .picking }, [])
    else none
  | .picking =>
    if line.dropped then some ({ line with drain := .ended }, [])
    else if line.status = .connected then
      some ({ line with drain := .draining line.current }, [])
    else some ({ line with drain := .holding }, [])
  | .draining link =>
    match line.pending ++ line.channel with
    | [] => some ({ line with drain := .idle }, [])
    | text :: rest =>
      some ({ line with pending := rest, channel := [], drain := .sending link text },
        [.send link text])
  | .sending _ _ => none
  | .failed link =>
    if line.current = link then some ({ line with drain := .losing }, [])
    else some ({ line with drain := .holding }, [])
  | .losing => some (setStatus .disconnected { line with drain := .holding })
  | .ended => none

/-! ### Inputs -/

/-- The next action of a task, none while it has to wait. -/
def act? (line : Line) : Task → Option (Line × List Effect)
  | .forwarder link => actForwarder? line link
  | .attempt index => actAttempt? line index
  | .drain => actDrain? line

/-- What can happen to a line. -/
inductive Input where
  | call (c : Call)
  /-- A link emits an event and its forwarder takes it. -/
  | event (link : Nat) (e : LinkEvent)
  /-- The link of an attempt opened, or failed. -/
  | settled (attempt : Nat) (opened : Bool)
  /-- The link sent the request that it was given, or failed to. -/
  | sent (ok : Bool)
  /-- The owner says how an attempt greets the new connection. -/
  | greet (attempt : Nat) (calls : List Call)
  /-- A task makes its next action. -/
  | act (task : Task)
  /-- The owner lets go of the line. -/
  | drop
deriving DecidableEq, Repr

/-- The outcome of a send. -/
def sent (line : Line) (ok : Bool) : Line :=
  match line.drain with
  | .sending link text =>
    if ok then { line with outstanding := line.outstanding - 1, drain := .draining link }
    else { line with pending := text :: line.pending, drain := .failed link }
  | _ => line

/-- Puts an attempt that is in one phase into another. -/
def advanceAttempt (line : Line) (index : Nat) (source target : AttemptPhase) : Line :=
  match line.attempts[index]? with
  | some a => if a.phase = source then setAttempt index target line else line
  | none => line

/-- The forwarder of a link takes an event, if it waits for one. -/
def takeEvent (line : Line) (link : Nat) (e : LinkEvent) : Line :=
  match line.forwarders[link]? with
  | some f => if f.phase = .listening ∧ !f.stopped then setForwarder link (.taken e) line else line
  | none => line

/-- What an input does; one that does not fit the state does nothing. -/
def step (line : Line) : Input → Line × List Effect
  | .call c => if line.dropped then (line, []) else line.call c
  | .event link e => (line.takeEvent link e, [])
  | .settled index opened => (line.advanceAttempt index .waiting (.settled opened), [])
  | .sent ok => (line.sent ok, [])
  | .greet index calls => (line.advanceAttempt index .due (.greeting calls), [])
  | .act task => (line.act? task).getD (line, [])
  | .drop => if line.dropped then (line, []) else line.drop

/-- The effects of a schedule. -/
def run (line : Line) : List Input → Line × List Effect
  | [] => (line, [])
  | i :: rest => andThen (line.step i) fun line => line.run rest

/-! ### Settling a task -/

/-- Lets a task act at most `n` times. -/
def actUpTo : Nat → Task → Line → Line × List Effect
  | 0, _, line => (line, [])
  | n + 1, task, line =>
    match line.act? task with
    | none => (line, [])
    | some next => andThen next (actUpTo n task)

/-- How often a task can act before it has to wait. -/
def actions (line : Line) : Task → Nat
  | .forwarder _ => 3
  | .attempt index =>
    match line.attempts[index]? with
    | some { phase := .greeting calls, .. } => calls.length + 3
    | _ => 3
  | .drain => 6

/-- Lets a task act until it has to wait. -/
def settle (line : Line) (task : Task) : Line × List Effect :=
  actUpTo (line.actions task) task line

end Line
end NodeClient
