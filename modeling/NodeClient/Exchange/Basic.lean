import NodeClient.Client.Basic
import NodeClient.Exchange.Holders
import NodeClient.Exchange.Subscription

/-!
# Exchange — calls and subscriptions that share one line

Callers give an exchange calls, and it queues them on its line.  Each caller waits until a response
with the id of its call is routed, until its time is up, or until somebody else takes over the id.
Events go to all subscriptions.  A node is asked to send the events of a query when the query gets
its first holder, and to stop when it loses the last one.

The exchange does not hold the line: what it queues there, and the ends of calls, are returned as a
list of `Effect`s.  Callers are numbered in the order in which they came.
-/

namespace NodeClient
namespace Exchange

/-- What ends a wait before its time is up. -/
inductive Answer where
  | response (r : Response)
  /-- The id was taken over. -/
  | abandoned

/-- What a caller wants of the response. -/
inductive Purpose where
  /-- The response itself. -/
  | response
  /-- The subscription that the node accepts with it. -/
  | subscription (s : Subscription)

/-- A caller that waits for a response. -/
structure Waiter where
  id : Id
  purpose : Purpose
  /-- When its time is up. -/
  deadline : Nat
  answer : Option Answer := none

/-- A caller. -/
inductive Caller where
  | waiting (w : Waiter)
  /-- It holds a subscription. -/
  | subscribed (s : Subscription)
  | over

/-- How a call ended. -/
inductive Outcome where
  | response (r : Response)
  | subscribed (query : String)
  | failed (e : ClientError)

/-- What an exchange does to its line or tells a caller. -/
inductive Effect where
  /-- A text is queued on the line. -/
  | queue (text : String)
  /-- The call of a caller ended. -/
  | done (caller : Nat) (outcome : Outcome)

end Exchange

/-- An exchange. -/
structure Exchange where
  /-- How long a caller waits, in milliseconds. -/
  timeout : Nat
  /-- The time, in milliseconds. -/
  now : Nat := 0
  /-- The ids that callers wait for; no two are the same. -/
  pending : List (Id × Nat) := []
  callers : List Exchange.Caller := []
  holders : Holders := []
  /-- All events so far. -/
  events : List Event := []
  /-- The number of the next id of the exchange's own calls. -/
  nextId : Nat := 1
  /-- The owner let go of the exchange. -/
  dropped : Bool := false

namespace Exchange

/-- Whether a caller waits. -/
def Caller.waits : Caller → Bool
  | .waiting _ => true
  | _ => false

/-- Whether somebody still holds the exchange: its owner, or a caller that waits. -/
def isHeld (x : Exchange) : Bool :=
  !x.dropped || x.callers.any Caller.waits

/-- Gives a caller an answer, if it waits and has none. -/
def Caller.answered (a : Answer) : Caller → Caller
  | .waiting w => .waiting { w with answer := w.answer <|> some a }
  | c => c

/-- Puts a caller into a state. -/
def setCaller (x : Exchange) (k : Nat) (c : Caller) : Exchange :=
  { x with callers := x.callers.set k c }

/-- Answers the caller that waits for an id, which is then waited for no longer. -/
def answer (x : Exchange) (id : Id) (a : Answer) : Exchange :=
  match x.pending.find? fun entry => entry.1.same id with
  | none => x
  | some (_, k) =>
    { x with
      pending := x.pending.eraseP fun entry => entry.1.same id
      callers := x.callers.modify k (Caller.answered a) }

/-! ### Calls -/

/-- A new caller makes a call and waits; it takes over the id. -/
def await (x : Exchange) (call : Call) (purpose : Purpose) : Exchange × List Effect :=
  let k := x.callers.length
  let x := x.answer call.id .abandoned
  let w : Waiter := { id := call.id, purpose, deadline := x.now + x.timeout }
  ({ x with pending := x.pending ++ [(call.id, k)], callers := x.callers ++ [.waiting w] },
    [.queue call.toJson.render])

/-- The id of the `n`th call that an exchange makes on its own. -/
def ownId (n : Nat) : Id :=
  .string ("tmrpc-" ++ toString n)

/-- A call that the exchange makes on its own. -/
def ownCall (x : Exchange) (request : Request) : Call × Exchange :=
  (request.toCall (ownId x.nextId), { x with nextId := x.nextId + 1 })

/-- Queues a call for whose response nobody waits. -/
def tell (x : Exchange) (request : Request) : Exchange × List Effect :=
  let (call, x) := x.ownCall request
  (x, [.queue call.toJson.render])

/-! ### Subscriptions -/

/-- A new caller subscribes to a query.  Only the first holder of a query asks the node. -/
def subscribe (x : Exchange) (query : String) (topic : Topic) (family : Family) :
    Exchange × List Effect :=
  -- it listens before it asks, so that it misses no event
  let s : Subscription := { query, topic, family, position := x.events.length }
  let x := { x with holders := x.holders.add query }
  if x.holders.count query = 1 then
    let (call, x) := x.ownCall (.subscribe query)
    x.await call (.subscription s)
  else
    ({ x with callers := x.callers ++ [.subscribed s] },
      [.done x.callers.length (.subscribed query)])

/-- One holder lets go of a query.  With `telling`, the node is told when it was the last one. -/
def release (x : Exchange) (query : String) (telling : Bool) : Exchange × List Effect :=
  let last := x.holders.count query = 1
  let x := { x with holders := x.holders.remove query }
  if last ∧ telling then x.tell (.unsubscribe query) else (x, [])

/-- Asks the node for the events of these queries. -/
def tellAll (x : Exchange) : List String → Exchange × List Effect
  | [] => (x, [])
  | query :: rest =>
    let (x, first) := x.tell (.subscribe query)
    let (x, others) := x.tellAll rest
    (x, first ++ others)

/-- Asks for the events of all queries again, on a new connection, in ascending order.  Clients ask
in whatever order their hash map lists the queries; no result depends on it. -/
def greet (x : Exchange) : Exchange × List Effect :=
  if x.isHeld then x.tellAll x.holders.queries else (x, [])

end Exchange
end NodeClient
