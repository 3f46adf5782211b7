import NodeClient.Chain.Results
import NodeClient.Client.Error

/-!
# Subscription — the events of one query, read at one's own pace

All subscriptions of an exchange read the same sequence of events.  Each keeps its own place in it
and skips the events of other queries.  One that falls too far behind loses the oldest events.
-/

namespace NodeClient

/-- A stream of the events of one query. -/
structure Subscription where
  query : String
  topic : Topic
  family : Family
  /-- How many of the events so far lie behind it. -/
  position : Nat

namespace Subscription

/-- How many of the newest events a subscription can still read. -/
def capacity : Nat := 1024

/-- The place of a subscription among so many events, after those too old for it were lost. -/
def placeAmong (s : Subscription) (published : Nat) : Nat :=
  max s.position (published - capacity)

/-- The first event of a query, and the place behind it; without one, the place behind all. -/
def seek (query : String) : Nat → List Event → Option Event × Nat
  | place, [] => (none, place)
  | place, e :: rest => if e.query = query then (some e, place + 1) else seek query (place + 1) rest

/-- The next event of the query, and the subscription behind it. -/
def take (s : Subscription) (events : List Event) : Option Event × Subscription :=
  let place := s.placeAmong events.length
  let (found, place) := seek s.query place (events.drop place)
  (found, { s with position := place })

/-- What an event says, read as the topic and the family tell. -/
def decode (s : Subscription) (e : Event) : Except ClientError s.topic.Payload :=
  ((s.topic.format s.family).decode e.value).mapError .decode

end Subscription
end NodeClient
