import NodeClient.Script.Stage

/-!
# Line scripts — a line by itself

A script makes calls on a line and works its links; after every step the tasks run until none can go
on, and what happened since the step before is reported.
-/

namespace NodeClient
namespace Script

/-- A step of a script for a line. -/
inductive LineStep where
  | link (step : LinkStep)
  | call (c : Line.Call)
  /-- Queues a number of texts, numbered from 0. -/
  | queueMany (text : String) (count : Nat)
  /-- Several steps with nothing running in between. -/
  | batch (steps : List LineStep)

/-- The owner of a line in a script: how it greets new connections, the statuses that it saw when it
did, and the events that were handed on; the last ones first. -/
structure Witness where
  greeting : List Line.Call
  greeted : List Status
  events : List LinkEvent

namespace Witness

/-- The owner takes note of everything. -/
def host : Host Witness where
  take e w := { w with events := e :: w.events }
  greet s w := (w.greeting, { w with greeted := s :: w.greeted })

end Witness

/-- What happened in a step. -/
structure LineReport where
  status : Status
  updates : List Status
  events : List LinkEvent
  /-- The requests that are not sent; unknown once the line is gone. -/
  queued : Option Nat
  log : List LogEntry
  greeted : List Status

namespace LineScript

/-- Queues numbered texts. -/
def queueMany (text : String) (count : Nat) (stage : Stage Witness) : Stage Witness :=
  (List.range count).foldl
    (fun stage i => stage.call Witness.host (.queue (text ++ toString i))) stage

mutual

/-- Carries out a step without letting tasks run. -/
def apply : LineStep → Stage Witness → Stage Witness
  | .link step, stage => stage.linkStep step
  | .call c, stage => stage.call Witness.host c
  | .queueMany text count, stage => queueMany text count stage
  | .batch steps, stage => applyAll steps stage

/-- Carries out steps in turn. -/
def applyAll : List LineStep → Stage Witness → Stage Witness
  | [], stage => stage
  | step :: rest, stage => applyAll rest (apply step stage)

end

/-- What happened since the last report. -/
def report (stage : Stage Witness) : LineReport where
  status := stage.line.status
  updates := stage.updates.reverse
  events := stage.host.events.reverse
  queued := if stage.line.dropped then none else some stage.line.outstanding
  log := stage.log.reverse
  greeted := stage.host.greeted.reverse

/-- Lets the tasks run and reports. -/
def close (stage : Stage Witness) : LineReport × Stage Witness :=
  let stage := stage.run Witness.host
  (report stage,
    { stage.clear with host := { stage.host with greeted := [], events := [] } })

/-- The reports of the steps, and one after the owner let go of the line. -/
def reports : List LineStep → Stage Witness → List LineReport
  | [], stage => [(close (stage.drop Witness.host)).1]
  | step :: rest, stage =>
    let (first, stage) := close (apply step stage)
    first :: reports rest stage

/-- Runs a script; with a greeting, new connections are greeted.  The first report is that of the
start. -/
def run (greeting : Option (List Line.Call)) (steps : List LineStep) : List LineReport :=
  let witness : Witness := ⟨greeting.getD [], [], []⟩
  let stage := Stage.start Witness.host { greets := greeting.isSome } witness
  let (first, stage) := close stage
  first :: reports steps stage

end LineScript
end Script
end NodeClient
