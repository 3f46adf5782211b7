import NodeClient.Chain.Results
import NodeClient.Client.Error
import NodeClient.Envelope.Reader
import NodeClient.Version

/-!
# Client — typed calls to one node

A client asks for the status of a node first, with the id 1, and chooses the family of its payloads
from the version found there, once and for all.  Every later call takes the next id, whether earlier
calls failed or not.  A transport is a function that carries one call and brings back its response.
-/

namespace NodeClient

/-- Carries a call, in a state that it may change. -/
abbrev Transport (σ : Type) := σ → Call → Except ClientError Response × σ

/-- A client after its start: the family of the node and the id of the next call. -/
structure Client where
  family : Family
  nextId : Nat
deriving DecidableEq, Repr

namespace Client

/-- The call that a client starts with. -/
def firstCall : Call :=
  Request.status.toCall (.ofNat 1)

/-- The result of a response; a fault is an error. -/
def resultOf : Response → Except ClientError Json
  | .success s => .ok s.result
  | .failure f => .error (.fault f.fault)

/-- The family for a version, if the known versions are in order. -/
def familyFor (version : String) : Except ClientError Family :=
  match VersionTable.known.check with
  | .error flaw => .error (.config (.table flaw.message))
  | .ok () =>
    match VersionTable.known.familyOf? version with
    | some family => .ok family
    | none => .error (.unsupportedVersion version)

/-- The client for a node with this answer to the first call. -/
def ofStatus (response : Response) : Except ClientError Client := do
  let status ← resultOf response
  let version ← (nodeVersion status).mapError .decode
  let family ← familyFor version
  pure { family, nextId := 2 }

/-- The next call of a client. -/
def call (client : Client) (request : Request) : Call × Client :=
  (request.toCall (.ofNat client.nextId), { client with nextId := client.nextId + 1 })

/-- The answer in a response. -/
def reply (family : Family) (method : Method) (response : Response) :
    Except ClientError method.Reply := do
  let result ← resultOf response
  ((method.format family).decode result).mapError .decode

variable {σ : Type} (execute : Transport σ)

/-- Starts a client. -/
def start (s : σ) : Except ClientError Client × σ :=
  let (response, s) := execute s firstCall
  (response.bind ofStatus, s)

/-- Makes a request. -/
def ask (client : Client) (s : σ) (request : Request) :
    Except ClientError request.method.Reply × Client × σ :=
  let (call, client) := client.call request
  let (response, s) := execute s call
  (response.bind (reply client.family request.method), client, s)

end Client
end NodeClient
