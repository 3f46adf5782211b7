import NodeClient.Client.Basic

/-!
# Post — calls over HTTP, one request for each

A call is posted and answered by the body that comes back, whatever the status.  The response has to
bear the id of the call; only a failure whose id the node could not tell may go without.
-/

namespace NodeClient
namespace Post

/-- Brings back the body of the answer to a posted body, or why there is none, in a state that it
may change. -/
abbrev Wire (σ : Type) := σ → String → Except String String × σ

/-- Checks that a response bears the id of its call. -/
def checkId (expected : Id) (response : Response) : Except ProtocolError Response :=
  match response.id? with
  | some got => if got.same expected then .ok response else .error (.idMismatch expected got)
  | none => .ok response

/-- The response to a call with this id in a body. -/
def read (expected : Id) (body : String) : Except ProtocolError Response :=
  match Json.ofText? body with
  | some frame => (Response.ofJson frame).bind (checkId expected)
  | none => .error .json

/-- Carries calls over a wire. -/
def transport {σ : Type} (wire : Wire σ) : Transport σ := fun s call =>
  let (answer, s) := wire s call.toJson.render
  match answer with
  | .ok body => ((read call.id body).mapError .protocol, s)
  | .error reason => (.error (.transport (.http reason)), s)

/-- Starts a client with these settings over a wire. -/
def start {σ : Type} (wire : Wire σ) (config : Config) (s : σ) : Except ClientError Client × σ :=
  match config.expect .http with
  | .error e => (.error (.config e), s)
  | .ok () => Client.start (transport wire) s

end Post
end NodeClient
