import NodeClient.Exchange.Step

/-!
# Errand — what callers of an exchange want, and what came of it

A caller may want a raw response, a subscription, a new client or the answer to a request of a
client.  `Errand.result` turns the outcome of a call into that.
-/

namespace NodeClient

/-- What a caller wants. -/
inductive Errand where
  | execute
  | subscribe
  /-- A client, from the answer to its first call. -/
  | start
  /-- The answer to a request. -/
  | ask (family : Family) (method : Method)

namespace Errand

/-- What came of an errand. -/
inductive Result where
  | response (r : Response)
  | subscribed (query : String)
  | started (client : Client)
  | reply (method : Method) (r : method.Reply)
  | failed (e : ClientError)

/-- The result, or what went wrong. -/
def Result.ofExcept {α : Type} (f : α → Result) : Except ClientError α → Result
  | .ok a => f a
  | .error e => .failed e

/-- What an outcome comes to. -/
def result : Errand → Exchange.Outcome → Result
  | _, .failed e => .failed e
  | _, .subscribed query => .subscribed query
  | .start, .response r => .ofExcept .started (Client.ofStatus r)
  | .ask family method, .response r => .ofExcept (.reply method) (Client.reply family method r)
  | .execute, .response r | .subscribe, .response r => .response r

end Errand
end NodeClient
