import NodeClient.Exchange.Errand
import NodeClient.Script.Stage

/-!
# Exchange scripts — callers that share a line

A script lets callers come and go, works the links and moves the clock; after every step everything
runs until nothing can go on, and what happened since the step before is reported.  The script holds
the exchange until it lets go of it or makes a client of it, which then holds it.
-/

namespace NodeClient
namespace Script

/-- A step of a script for an exchange. -/
inductive ExchangeStep where
  | link (step : LinkStep)
  | reconnect
  | disconnect
  /-- Lets go of the exchange. -/
  | dropExchange
  /-- Moves the clock, in milliseconds. -/
  | advance (ms : Nat)
  | execute (c : Call)
  | subscribe (query : String) (topic : Topic) (family : Family)
  /-- Makes a client of the exchange. -/
  | start
  /-- The client makes a request. -/
  | ask (request : Request)
  /-- The client subscribes to the events of a topic that a query asks for. -/
  | follow (query : String) (topic : Topic)
  /-- Reads the subscription of a caller once. -/
  | next (caller : Nat)
  /-- Stops a caller, or drops its subscription. -/
  | drop (caller : Nat)
  /-- The newest link emits messages; in their text `$i` stands for their number, from 0. -/
  | emitMany (count : Nat) (text : String)

/-- Who holds the exchange. -/
inductive Holder where
  | script
  /-- A caller that makes a client of it. -/
  | starting (caller : Nat)
  | client (c : Client)
  | nobody

/-- What came of reading a subscription. -/
inductive Reading where
  | event (topic : Topic) (e : Except ClientError topic.Payload)
  /-- There is no event yet. -/
  | pending
  /-- There is none, and none can come. -/
  | closed
  /-- The caller holds no subscription. -/
  | none

/-- The owner of the line in a script. -/
structure Desk where
  exchange : Exchange
  holder : Holder := .script
  /-- What the callers want. -/
  errands : List Errand := []
  /-- Frames that the line handed on and nobody has looked at. -/
  inbound : List String := []
  /-- The errands that ended, the last one first. -/
  done : List (Nat × Errand.Result) := []

namespace Desk

/-- The calls that effects of the exchange make on the line. -/
def lineCalls (effects : List Exchange.Effect) : List Line.Call :=
  effects.filterMap fun e =>
    match e with
    | .queue text => some (.queue text)
    | .done _ _ => none

/-- The exchange takes the frames of the line, and asks for the events of all queries on a new
connection. -/
def host : Host Desk where
  take e desk :=
    match e with
    | .message text => { desk with inbound := desk.inbound ++ [text] }
    | _ => desk
  greet _ desk :=
    let (exchange, effects) := desk.exchange.step .greet
    (lineCalls effects, { desk with exchange })

/-- Lets go of the exchange. -/
def letGo (desk : Desk) : Desk :=
  { desk with holder := .nobody, exchange := (desk.exchange.step .drop).1 }

/-- A caller is done. -/
def finish (desk : Desk) (caller : Nat) (outcome : Exchange.Outcome) : Desk :=
  match desk.errands[caller]? with
  | none => desk
  | some errand =>
    let result := errand.result outcome
    let desk := { desk with done := (caller, result) :: desk.done }
    match errand, result with
    | .start, .started client => { desk with holder := .client client }
    | .start, _ => desk.letGo
    | _, _ => desk

end Desk

/-- What happened in a step. -/
structure ExchangeReport where
  status : Status
  updates : List Status
  /-- The requests that are not sent; unknown while the script does not hold the exchange. -/
  queued : Option Nat
  /-- The errands that ended, by caller. -/
  done : List (Nat × Errand.Result)
  log : List LogEntry
  next : Option Reading

namespace ExchangeScript

/-- Carries out an effect of the exchange. -/
def perform (stage : Stage Desk) : Exchange.Effect → Stage Desk
  | .queue text => stage.call Desk.host (.queue text)
  | .done caller outcome => { stage with host := stage.host.finish caller outcome }

/-- Lets go of the line once nobody holds the exchange. -/
def closeUnheld (stage : Stage Desk) : Stage Desk :=
  if stage.host.exchange.isHeld || stage.line.dropped then stage else stage.drop Desk.host

/-- Gives the exchange an input. -/
def feed (input : Exchange.Input) (stage : Stage Desk) : Stage Desk :=
  let (exchange, effects) := stage.host.exchange.step input
  closeUnheld (effects.foldl perform { stage with host := { stage.host with exchange } })

/-- Routes the frames that came in. -/
def routeAll (stage : Stage Desk) : Stage Desk :=
  stage.host.inbound.foldl (fun stage text => feed (.frame text) stage)
    { stage with host := { stage.host with inbound := [] } }

/-- Lets callers go on, at most `n` times. -/
def resumeUpTo : Nat → Stage Desk → Stage Desk
  | 0, stage => stage
  | n + 1, stage =>
    match stage.host.exchange.ready? with
    | none => stage
    | some k => resumeUpTo n (feed (.resume k) stage)

/-- Lets everything run until nothing can go on, in at most `n` rounds. -/
def runUpTo : Nat → Stage Desk → Stage Desk
  | 0, stage => stage
  | n + 1, stage =>
    let stage := stage.run Desk.host
    if stage.host.inbound.isEmpty && stage.host.exchange.ready?.isNone && stage.ready.isEmpty then
      stage
    else
      let stage := routeAll stage
      runUpTo n (resumeUpTo stage.host.exchange.callers.length stage)

/-- How many rounds a step can take. -/
def maxRounds : Nat := 64

/-- Lets everything run until nothing can go on. -/
def run (stage : Stage Desk) : Stage Desk :=
  runUpTo maxRounds stage

/-! ### Steps -/

/-- A new caller with an errand. -/
def begin (errand : Errand) (input : Exchange.Input) (stage : Stage Desk) : Stage Desk :=
  feed input { stage with host := { stage.host with errands := stage.host.errands ++ [errand] } }

/-- Whether the script, or the client that it made, holds the exchange. -/
def owned (stage : Stage Desk) : Bool :=
  match stage.host.holder with
  | .script | .client _ => true
  | _ => false

/-- Lets messages come in one by one; everything runs in between. -/
def emitMany (text : String) : List Nat → Stage Desk → Stage Desk
  | [], stage => stage
  | i :: rest, stage =>
    let e := LinkEvent.message (text.replace "$i" (toString i))
    emitMany text rest (run (stage.linkStep (.emit none e)))

/-- Carries out a step. -/
def apply (step : ExchangeStep) (stage : Stage Desk) : Stage Desk :=
  match step with
  | .link step => stage.linkStep step
  | .advance ms => feed (.advance ms) stage
  | .emitMany count text => emitMany text (List.range count) stage
  | .next caller => feed (.read caller) stage
  | .drop caller =>
    let stage := feed (.abort caller) stage
    match stage.host.holder with
    | .starting k =>
      if k = caller then closeUnheld { stage with host := stage.host.letGo } else stage
    | _ => stage
  | .dropExchange =>
    if owned stage then closeUnheld { stage with host := stage.host.letGo } else stage
  | step =>
    match step, stage.host.holder with
    | .reconnect, .script | .reconnect, .client _ => stage.call Desk.host .reconnect
    | .disconnect, .script | .disconnect, .client _ => stage.call Desk.host .disconnect
    | .execute c, .script | .execute c, .client _ => begin .execute (.call c) stage
    | .subscribe query topic family, .script | .subscribe query topic family, .client _ =>
      begin .subscribe (.subscribe query topic family) stage
    | .start, .script =>
      let holder := Holder.starting stage.host.errands.length
      begin .start (.call Client.firstCall) { stage with host := { stage.host with holder } }
    | .ask request, .client client =>
      let (call, client) := client.call request
      begin (.ask client.family request.method) (.call call)
        { stage with host := { stage.host with holder := .client client } }
    | .follow query topic, .client client =>
      begin .subscribe (.subscribe query topic client.family) stage
    | _, _ => stage

/-- What a step reads, if it reads a subscription. -/
def reading? (stage : Stage Desk) : ExchangeStep → Option Reading
  | .next caller =>
    let x := stage.host.exchange
    match (x.read caller).1 with
    | none => some .none
    | some (s, some e) => some (.event s.topic (s.decode e))
    | some (_, none) => some (if x.isHeld then .pending else .closed)
  | _ => none

/-! ### Reports -/

/-- The call in a frame, if it asks for the events of a query, and that query. -/
def subscribeCall? (frame : String) : Option (Call × String) := do
  let frame ← Json.ofText? frame
  let id ← (Id.ofJson (frame.get? "id")).toOption
  let method ← (frame.get? "method").bind Json.string?
  let params ← frame.get? "params"
  let query ← (params.get? "query").bind Json.string?
  if method = Method.subscribe.name then some ({ id, method, params }, query) else none

/-- The query that an entry of the log asks for. -/
def queryOf? : LogEntry → Option String
  | .send _ text _ => (subscribeCall? text).map (·.2)
  | _ => none

/-- Puts queries in the places of those that entries ask for; the ids stay. -/
def placeQueries : List String → List LogEntry → List LogEntry
  | query :: queries, .send link text result :: rest =>
    match subscribeCall? text with
    | some (call, _) =>
      let params := match call.params with
        | .object members => Json.object (Json.insert "query" (.string query) members)
        | other => other
      .send link { call with params }.toJson.render result :: placeQueries queries rest
    | none => .send link text result :: placeQueries (query :: queries) rest
  | queries, entry :: rest => entry :: placeQueries queries rest
  | _, [] => []

/-- A log in which the queries that are asked for stand in ascending order. -/
def orderQueries (log : List LogEntry) : List LogEntry :=
  let queries := log.filterMap queryOf?
  if queries.length ≤ 1 then log
  else placeQueries (queries.mergeSort fun p q => !(q < p)) log

/-- What happened since the last report. -/
def report (stage : Stage Desk) (next : Option Reading) : ExchangeReport where
  status := stage.line.status
  updates := stage.updates.reverse
  queued := if owned stage then some stage.line.outstanding else none
  done := stage.host.done.mergeSort fun a b => a.1 ≤ b.1
  log := orderQueries stage.log.reverse
  next := next

/-- The reports of the steps. -/
def reports : List ExchangeStep → Stage Desk → List ExchangeReport
  | [], _ => []
  | step :: rest, stage =>
    let next := reading? stage step
    let stage := run (apply step stage)
    report stage next ::
      reports rest { stage.clear with host := { stage.host with done := [] } }

/-- Runs a script for an exchange whose callers wait so many milliseconds. -/
def start (timeout : Nat) (steps : List ExchangeStep) : List ExchangeReport :=
  let stage := Stage.start Desk.host { greets := true } { exchange := { timeout } }
  reports steps (stage.run Desk.host)

end ExchangeScript
end Script
end NodeClient
