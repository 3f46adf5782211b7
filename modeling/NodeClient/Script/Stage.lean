import NodeClient.Line.Step

/-!
# Stage — a line on scripted links

A stage holds a line together with links whose behaviour is set by a script: whether they open,
whether they send, and when.  Tasks run one at a time in the order in which they were woken; a task
that is woken twice before it runs, runs once.  `Stage.run` lets them run until none can go on.

The owner of the line is a `Host`: it takes the events that the line hands on and says how a new
connection is greeted.
-/

namespace NodeClient
namespace Script

open Line (Effect Task)

/-- The state of a scripted link. -/
inductive LinkState where
  | idle
  | waiting
  | opened
  | failed
  | closed
deriving DecidableEq, Repr

/-- A scripted link, with the events that its forwarder has not taken. -/
structure ScriptedLink where
  state : LinkState := .idle
  inbox : List LinkEvent := []
deriving Repr

/-- What came of a send. -/
inductive SendResult where
  | sent
  | failed
  | notConnected
  | held
deriving DecidableEq, Repr

/-- What links were told to do. -/
inductive LogEntry where
  | create (link : Nat)
  | connect (link : Nat)
  | disconnect (link : Nat)
  | send (link : Nat) (text : String) (result : SendResult)
deriving DecidableEq, Repr

/-- The behaviour of the links. -/
structure Behaviour where
  /-- How many of the next attempts to connect fail. -/
  failConnects : Nat := 0
  /-- How many of the next sends fail. -/
  failSends : Nat := 0
  /-- Links wait to be told whether they open. -/
  holdConnects : Bool := false
  /-- Sends wait to be told whether they succeed. -/
  holdSends : Bool := false
deriving Repr

/-- What a script can do to the links. -/
inductive LinkStep where
  /-- Changes the behaviour. -/
  | behave (failConnects failSends : Option Nat) (holdConnects holdSends : Option Bool)
  /-- Lets a waiting link open or fail. -/
  | settleConnect (link : Option Nat) (ok : Bool)
  /-- Lets a waiting send succeed or fail. -/
  | settleSend (ok : Bool)
  /-- A link emits an event. -/
  | emit (link : Option Nat) (e : LinkEvent)
deriving Repr

/-- What the owner of a line does. -/
structure Host (σ : Type) where
  /-- Takes an event that the line hands on. -/
  take : LinkEvent → σ → σ
  /-- The calls that greet a new connection, while the line has this status. -/
  greet : Status → σ → List Line.Call × σ

/-- A line on scripted links, and its owner.  Lists of what happened hold the last entry first. -/
structure Stage (σ : Type) where
  line : Line
  links : List ScriptedLink
  behaviour : Behaviour
  /-- The tasks that are to run, in order. -/
  ready : List Task
  /-- The task that runs. -/
  running : Option Task
  log : List LogEntry
  updates : List Status
  host : σ

namespace Stage

variable {σ : Type}

/-- Puts a task at the end of those that are to run, unless it is among them or running. -/
def wake (task : Task) (stage : Stage σ) : Stage σ :=
  if stage.ready.contains task || stage.running == some task then stage
  else { stage with ready := stage.ready ++ [task] }

/-- Changes a link. -/
def setLink (link : Nat) (f : ScriptedLink → ScriptedLink) (stage : Stage σ) : Stage σ :=
  { stage with links := stage.links.modify link f }

/-- The state of a link. -/
def stateOf (stage : Stage σ) (link : Nat) : LinkState :=
  match stage.links[link]? with
  | some l => l.state
  | none => .idle

/-- Adds an entry to the log. -/
def note (entry : LogEntry) (stage : Stage σ) : Stage σ :=
  { stage with log := entry :: stage.log }

/-- Wakes the attempts that wait for a link. -/
def wakeAttempts (link : Nat) (stage : Stage σ) : Stage σ :=
  (stage.line.attempts.zipIdx).foldl (fun stage a =>
    if a.1.link = link ∧ a.1.phase = .waiting then stage.wake (.attempt a.2) else stage) stage

/-- A link is told to connect; only an idle one does. -/
def connectLink (link : Nat) (stage : Stage σ) : Stage σ :=
  let stage := stage.note (.connect link)
  if stage.stateOf link ≠ .idle then stage
  else
    let b := stage.behaviour
    if b.holdConnects then stage.setLink link fun l => { l with state := .waiting }
    else if b.failConnects ≠ 0 then
      wakeAttempts link { stage.setLink link fun l => { l with state := .failed } with
        behaviour := { b with failConnects := b.failConnects - 1 } }
    else wakeAttempts link (stage.setLink link fun l => { l with state := .opened })

/-- Feeds the outcome of a send to the line. -/
def finishSend (ok : Bool) (stage : Stage σ) : Stage σ :=
  { stage with line := stage.line.sent ok }

/-- A link is given a text to send. -/
def sendOn (link : Nat) (text : String) (stage : Stage σ) : Stage σ :=
  let b := stage.behaviour
  if stage.stateOf link ≠ .opened then
    finishSend false (stage.note (.send link text .notConnected))
  else if b.failSends ≠ 0 then
    finishSend false { stage.note (.send link text .failed) with
      behaviour := { b with failSends := b.failSends - 1 } }
  else if b.holdSends then stage.note (.send link text .held)
  else finishSend true (stage.note (.send link text .sent))

/-- Carries out an effect of the line. -/
def perform (h : Host σ) (stage : Stage σ) : Effect → Stage σ
  | .status s =>
    let stage := { stage with updates := s :: stage.updates }
    if stage.line.drain = .holding then stage.wake .drain else stage
  | .event _ e => { stage with host := h.take e stage.host }
  | .create link =>
    wake (.forwarder link) { stage.note (.create link) with links := stage.links ++ [{}] }
  | .connect link => stage.connectLink link
  | .disconnect link =>
    wakeAttempts link ((stage.note (.disconnect link)).setLink link fun l =>
      { l with state := .closed })
  | .send link text => stage.sendOn link text

/-- Takes over what an action made of the line: its effects in order, then the attempts that it
started, then a request for a draining task that waits for one. -/
def absorb (h : Host σ) (stage : Stage σ) (result : Line × List Effect) : Stage σ :=
  let before := stage.line.attempts.length
  let stage := result.2.foldl (perform h) { stage with line := result.1 }
  let stage := ((List.range stage.line.attempts.length).drop before).foldl
    (fun stage index => stage.wake (.attempt index)) stage
  if stage.line.drain = .idle ∧ !stage.line.channel.isEmpty then stage.wake .drain else stage

/-- A call of the owner. -/
def call (h : Host σ) (stage : Stage σ) (c : Line.Call) : Stage σ :=
  stage.absorb h (stage.line.step (.call c))

/-- The owner lets go of the line. -/
def drop (h : Host σ) (stage : Stage σ) : Stage σ :=
  wake .drain (stage.absorb h (stage.line.step .drop))

/-- Lets a task act until it has to wait. -/
def settle (h : Host σ) (stage : Stage σ) (task : Task) : Stage σ :=
  stage.absorb h (stage.line.settle task)

/-- Runs the forwarder of a link on `n` of the events that wait for it. -/
def runForwarder (h : Host σ) (link : Nat) : Nat → Stage σ → Stage σ
  | 0, stage => stage
  | n + 1, stage =>
    match stage.links[link]? with
    | some { inbox := e :: rest, .. } =>
      let stage := stage.setLink link fun l => { l with inbox := rest }
      let stage := { stage with line := stage.line.takeEvent link e }
      runForwarder h link n (stage.settle h (.forwarder link))
    | _ => stage

/-- Runs an attempt whose link opened or failed. -/
def runAttempt (h : Host σ) (index : Nat) (stage : Stage σ) : Stage σ :=
  match stage.line.attempts[index]? with
  | some { link, phase := .waiting, .. } =>
    match stage.stateOf link with
    | .idle | .waiting => stage
    | state =>
      let line := stage.line.advanceAttempt index .waiting (.settled (state == .opened))
      let stage := settle h { stage with line } (.attempt index)
      match stage.line.attempts[index]? with
      | some { phase := .due, .. } =>
        let (calls, host) := h.greet stage.line.status stage.host
        let line := stage.line.advanceAttempt index .due (.greeting calls)
        settle h { stage with line, host } (.attempt index)
      | _ => stage
  | _ => stage

/-- Runs the draining task until it has to wait, for at most `n` sends. -/
def runDrain (h : Host σ) : Nat → Stage σ → Stage σ
  | 0, stage => stage
  | n + 1, stage =>
    if (stage.line.act? .drain).isSome then runDrain h n (stage.settle h .drain) else stage

/-- Runs a task until it has to wait. -/
def runTask (h : Host σ) (task : Task) (stage : Stage σ) : Stage σ :=
  let stage := { stage with running := some task }
  let stage := match task with
    | .forwarder link =>
      match stage.links[link]? with
      | some l => runForwarder h link l.inbox.length stage
      | none => stage
    | .attempt index => runAttempt h index stage
    | .drain =>
      -- every request is sent once, and fails at most once on a link before that
      runDrain h (2 * (stage.line.pending.length + stage.line.channel.length) + 8) stage
  { stage with running := none }

/-- How many turns tasks get before a run ends. -/
def maxTurns : Nat := 4096

/-- Gives tasks at most `n` turns. -/
def turns (h : Host σ) : Nat → Stage σ → Stage σ
  | 0, stage => stage
  | n + 1, stage =>
    match stage.ready with
    | [] => stage
    | task :: rest => turns h n (runTask h task { stage with ready := rest })

/-- Lets the tasks run until none can go on. -/
def run (h : Host σ) (stage : Stage σ) : Stage σ :=
  turns h maxTurns stage

/-- The newest link. -/
def newest (stage : Stage σ) : Nat :=
  stage.links.length - 1

/-- Carries out a step of the script on the links. -/
def linkStep (stage : Stage σ) : LinkStep → Stage σ
  | .behave failConnects failSends holdConnects holdSends =>
    let b := stage.behaviour
    { stage with behaviour :=
      { failConnects := failConnects.getD b.failConnects
        failSends := failSends.getD b.failSends
        holdConnects := holdConnects.getD b.holdConnects
        holdSends := holdSends.getD b.holdSends } }
  | .settleConnect link ok =>
    let link := link.getD stage.newest
    if stage.stateOf link = .waiting then
      wakeAttempts link (stage.setLink link fun l =>
        { l with state := if ok then .opened else .failed })
    else stage
  | .settleSend ok =>
    match stage.line.drain with
    | .sending link text =>
      let result := if ok then SendResult.sent else .failed
      wake .drain (finishSend ok (stage.note (.send link text result)))
    | _ => stage
  | .emit link e =>
    let link := link.getD stage.newest
    match stage.line.forwarders[link]? with
    | some f =>
      if f.stopped then stage
      else wake (.forwarder link) (stage.setLink link fun l => { l with inbox := l.inbox ++ [e] })
    | none => stage

/-- A new line on its first link. -/
def start (h : Host σ) (line : Line) (host : σ) : Stage σ :=
  Line.initialEffects.foldl (perform h)
    { line, links := [], behaviour := {}, ready := [.drain], running := none, log := [],
      updates := [], host }

/-- Forgets what happened so far. -/
def clear (stage : Stage σ) : Stage σ :=
  { stage with log := [], updates := [] }

end Stage
end Script
end NodeClient
