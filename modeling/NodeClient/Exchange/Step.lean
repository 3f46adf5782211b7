import NodeClient.Exchange.Basic

/-!
# Exchange steps — what can happen to an exchange

`Exchange.step` takes any input: a new caller, a frame, the time, or a caller that goes on or gives
up.  A caller goes on once it is answered or its time is up; `Exchange.ready?` finds one that can.
-/

namespace NodeClient
namespace Exchange

/-! ### Frames -/

/-- What a frame does: a response goes to the caller that waits for its id, an event to all
subscriptions; any other frame does nothing. -/
def route (x : Exchange) (text : String) : Exchange :=
  match Message.ofText text with
  | .ok (.success s) => x.answer s.id (.response (.success s))
  | .ok (.failure f) =>
    match f.id with
    | some id => x.answer id (.response (.failure f))
    | none => x
  | .ok (.event e) => { x with events := x.events ++ [e] }
  | .error _ => x

/-! ### The end of a wait -/

/-- What a wait has come to, if it is over; an answer counts even when the time is up. -/
def Waiter.result? (w : Waiter) (now timeout : Nat) : Option (Except ClientError Response) :=
  match w.answer with
  | some (.response r) => some (.ok r)
  | some .abandoned => some (.error (.transport .closed))
  | none =>
    if w.deadline ≤ now then some (.error (.transport (.responseTimeout timeout))) else none

/-- How a call for a response ended. -/
def Outcome.ofResult : Except ClientError Response → Outcome
  | .ok r => .response r
  | .error e => .failed e

/-- A caller waits no longer.  Nobody waits for its id then, not even one that took it over. -/
def leave (x : Exchange) (k : Nat) (id : Id) : Exchange :=
  (x.setCaller k .over).answer id .abandoned

/-- Ends the wait of a caller; a query that the node did not accept is let go of. -/
def finish (x : Exchange) (k : Nat) (w : Waiter) (result : Except ClientError Response) :
    Exchange × List Effect :=
  let x := x.leave k w.id
  match w.purpose with
  | .response => (x, [.done k (.ofResult result)])
  | .subscription s =>
    match result.bind Client.resultOf with
    | .ok _ => (x.setCaller k (.subscribed s), [.done k (.subscribed s.query)])
    | .error e =>
      let (x, effects) := x.release s.query false
      (x, effects ++ [.done k (.failed e)])

/-- A caller goes on, if it can. -/
def resume (x : Exchange) (k : Nat) : Exchange × List Effect :=
  match x.callers[k]? with
  | some (.waiting w) =>
    match w.result? x.now x.timeout with
    | some result => x.finish k w result
    | none => (x, [])
  | _ => (x, [])

/-- A caller gives up: it waits no longer and lets go of its subscription. -/
def abort (x : Exchange) (k : Nat) : Exchange × List Effect :=
  match x.callers[k]? with
  | some (.waiting w) =>
    let x := x.leave k w.id
    match w.purpose with
    | .response => (x, [])
    | .subscription s => x.release s.query true
  | some (.subscribed s) =>
    let held := x.isHeld
    let x := x.setCaller k .over
    -- a subscription can outlive the exchange
    if held then x.release s.query true else (x, [])
  | _ => (x, [])

/-- The next event of the subscription that a caller holds. -/
def read (x : Exchange) (k : Nat) : Option (Subscription × Option Event) × Exchange :=
  match x.callers[k]? with
  | some (.subscribed s) =>
    let (e, s) := s.take x.events
    (some (s, e), x.setCaller k (.subscribed s))
  | _ => (none, x)

/-! ### Inputs -/

/-- What can happen to an exchange. -/
inductive Input where
  /-- A new caller makes a call. -/
  | call (c : Call)
  /-- A new caller subscribes to a query. -/
  | subscribe (query : String) (topic : Topic) (family : Family)
  /-- The line hands on a frame. -/
  | frame (text : String)
  /-- Time goes by. -/
  | advance (ms : Nat)
  /-- A caller goes on. -/
  | resume (k : Nat)
  /-- A caller gives up, or drops its subscription. -/
  | abort (k : Nat)
  /-- A subscription is read. -/
  | read (k : Nat)
  /-- The line has a new connection. -/
  | greet
  /-- The owner lets go of the exchange. -/
  | drop

/-- What an input does. -/
def step (x : Exchange) : Input → Exchange × List Effect
  | .call c => x.await c .response
  | .subscribe query topic family => x.subscribe query topic family
  | .frame text => (if x.isHeld then x.route text else x, [])
  | .advance ms => ({ x with now := x.now + ms }, [])
  | .resume k => x.resume k
  | .abort k => x.abort k
  | .read k => ((x.read k).2, [])
  | .greet => x.greet
  | .drop => ({ x with dropped := true }, [])

/-- The effects of a schedule. -/
def run (x : Exchange) : List Input → Exchange × List Effect
  | [] => (x, [])
  | i :: rest =>
    let (x, first) := x.step i
    let (x, others) := x.run rest
    (x, first ++ others)

/-- Whether a caller can go on. -/
def Caller.isReady (now timeout : Nat) : Caller → Bool
  | .waiting w => (w.result? now timeout).isSome
  | _ => false

/-- The first caller that can go on. -/
def ready? (x : Exchange) : Option Nat :=
  x.callers.findIdx? (Caller.isReady x.now x.timeout)

end Exchange
end NodeClient
