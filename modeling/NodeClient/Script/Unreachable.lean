import NodeClient.Client.Post
import NodeClient.Exchange.Opening
import NodeClient.Link.Basic
import NodeClient.Script.ExchangeScript

/-!
# Unreachable — a node that no connection gets through to

What links, lines and clients come to when every attempt to connect fails, and what a server at the
other end sees of them: nothing, so that waiting for a connection there never ends.
-/

namespace NodeClient
namespace Script
namespace Unreachable

/-- Why attempts to connect fail. -/
def reason : String := "unreachable"

/-! ### A link -/

/-- A step of a script for a link. -/
inductive Step where
  | connect
  /-- Waits for the connection. -/
  | connected
  | send (text : String)
  | disconnect
  /-- Shows the state. -/
  | inspect
  /-- Waits for something that only a peer can do. -/
  | awaitPeer

/-- What a step comes to. -/
inductive Reply where
  | started
  | disconnected
  | result (r : Except TransportError Unit)
  | state (s : Link.State)
  /-- The step waits for ever. -/
  | stuck

/-- The link after its handshake failed, if it is in one. -/
def settle (link : Link) : Link :=
  (link.step (.refused reason)).1

/-- What a send comes to; one that is accepted waits for a peer. -/
def sendReply (effects : List Link.Effect) : Reply :=
  match effects.findSome? fun e => match e with | .answer _ r => some r | _ => none with
  | some r => .result r
  | none => .stuck

/-- Carries out a step. -/
def apply (link : Link) : Step → Reply × Link
  | .connect => (.started, (link.step .connect).1)
  | .connected =>
    let link := settle link
    match link.connected? with
    | some r => (.result r, link)
    | none => (.stuck, link)
  | .send text =>
    let (link, effects) := link.step (.send text)
    (sendReply effects, link)
  | .disconnect => (.disconnected, (link.step .disconnect).1)
  | .inspect => (.state link.state, link)
  | .awaitPeer => (.stuck, link)

/-- What the steps come to, up to one that waits for ever. -/
def replies (link : Link) : List Step → List Reply
  | [] => []
  | step :: rest =>
    match apply link step with
    | (.stuck, _) => [.stuck]
    | (reply, link) => reply :: replies link rest

/-! ### Calls over HTTP -/

/-- The wire to the node. -/
def wire : Post.Wire Unit := fun s _ => (.error reason, s)

/-- What calls come to; with settings that are not in order none is made. -/
def post (config : Config) (calls : List Call) : List (Except ClientError Response) :=
  match config.expect .http with
  | .error e => [.error (.config e)]
  | .ok () => calls.map fun call => (Post.transport wire () call).1

/-- What starting a client over HTTP comes to. -/
def startPosting (config : Config) : Except ClientError Client :=
  (Post.start wire config ()).1

/-- The requests that a server got, known only if it does not wait for any. -/
def served (expected : Nat) : Option (List String) :=
  if expected = 0 then some [] else none

/-! ### A line -/

/-- What opening an exchange comes to: an attempt to connect that fails. -/
def openExchange (config : Config) : Except ClientError Unit := do
  (config.expect .websocket).mapError .config
  let stage := Stage.start Desk.host {} { exchange := { timeout := config.requestTimeout.toNat } }
  let stage := stage.linkStep (.behave (some 1) none none none)
  let stage := (stage.call Desk.host .connect).run Desk.host
  (Exchange.opened config.connectTimeout.toNat stage.updates.reverse).mapError .transport

end Unreachable
end Script
end NodeClient
