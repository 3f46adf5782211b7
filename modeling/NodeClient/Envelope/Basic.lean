import NodeClient.Json.Printer

/-!
# Envelope — requests, responses and events of JSON-RPC 2.0

The frames that pass between a client and a node, after their envelope was checked.  `toJson` writes
them with their members in the order of the protocol.
-/

namespace NodeClient

/-- The only version of the envelope. -/
def envelopeVersion : String := "2.0"

/-- The id that ties a response to its request. -/
inductive Id where
  | number (value : Json.Number)
  | string (value : String)
deriving DecidableEq

namespace Id

/-- A counter as an id. -/
def ofNat (n : Nat) : Id :=
  .number (.ofUInt64 (UInt64.ofNat n))

/-- Equality of ids: a number is never a string, and numbers of different kinds differ. -/
def same : Id → Id → Bool
  | .number m, .number n => m.same n
  | .string s, .string t => s == t
  | _, _ => false

/-- The id as a value. -/
def toJson : Id → Json
  | .number n => .number n
  | .string s => .string s

/-- The id as it stands in messages. -/
def text : Id → String
  | .number n => n.render
  | .string s => s

end Id

/-- The version member that every frame starts with. -/
def versionMember : String × Json :=
  ("jsonrpc", .string envelopeVersion)

/-- A call of a method. -/
structure Call where
  id : Id
  method : String
  params : Json

/-- The call as a frame. -/
def Call.toJson (call : Call) : Json :=
  .object [versionMember, ("id", call.id.toJson), ("method", .string call.method),
    ("params", call.params)]

/-- A response with a result. -/
structure Success where
  id : Id
  result : Json

/-- The response as a frame. -/
def Success.toJson (s : Success) : Json :=
  .object [versionMember, ("id", s.id.toJson), ("result", s.result)]

/-- What a node says went wrong; data may be missing or be any value, also `null`. -/
structure Fault where
  code : Int64
  message : String
  data : Option Json

/-- The fault as a value. -/
def Fault.toJson (f : Fault) : Json :=
  .object ([("code", Json.ofInt64 f.code), ("message", .string f.message)] ++
    match f.data with
    | some d => [("data", d)]
    | none => [])

/-- A response with a fault; without an id if the node could not read that of the request. -/
structure Failure where
  id : Option Id
  fault : Fault

/-- The response as a frame. -/
def Failure.toJson (f : Failure) : Json :=
  .object [versionMember, ("id", match f.id with | some id => id.toJson | none => .null),
    ("error", f.fault.toJson)]

/-- The answer to a call. -/
inductive Response where
  | success (s : Success)
  | failure (f : Failure)

namespace Response

/-- The response as a frame. -/
def toJson : Response → Json
  | .success s => s.toJson
  | .failure f => f.toJson

/-- The id of the response, if it has one. -/
def id? : Response → Option Id
  | .success s => some s.id
  | .failure f => f.id

end Response

/-- Something that happened at the node, sent to a subscriber. -/
structure Event where
  method : String
  query : String
  kind : String
  value : Json

/-- Any frame that a node sends. -/
inductive Message where
  | success (s : Success)
  | failure (f : Failure)
  | event (e : Event)

/-- A response as a frame of a node. -/
def Response.toMessage : Response → Message
  | .success s => .success s
  | .failure f => .failure f

/-! ### Fault codes -/

/-- Whether the code is one of those set apart for faults of a server. -/
def isServerFault (code : Int64) : Bool :=
  -32099 ≤ code && code ≤ -32000

end NodeClient
