import NodeClient.Error
import NodeClient.Json.Reader

/-!
# Envelope reader — checking the frames of a node

Each reader checks the members of a frame in a fixed order and reports the first that is wrong.
`Message.ofJson` sorts frames into successes, failures and events; `Response.ofJson` knows only the
first two.
-/

namespace NodeClient

/-- The method of events that come as the result of a subscription. -/
def eventMethod : String := "tm.event"

/-- The end of the id of such a result. -/
def eventIdSuffix : String := "#event"

/-- The members of a frame. -/
def frameMembers (frame : Json) : Except ProtocolError (List (String × Json)) :=
  match frame with
  | .object members => .ok members
  | _ => .error .notDictionary

/-- Checks the version member. -/
def checkVersion (members : List (String × Json)) : Except ProtocolError Unit :=
  match Json.lookup "jsonrpc" members with
  | some (.string v) =>
    if v = envelopeVersion then .ok () else .error (.version (some (.string v)))
  | found => .error (.version found)

/-- Reads an id, which is a number or a string. -/
def Id.ofJson (found : Option Json) : Except ProtocolError Id :=
  match found with
  | some (.number n) => .ok (.number n)
  | some (.string s) => .ok (.string s)
  | _ => .error (.id found)

/-- Whether a value is the id of an event. -/
def isEventId : Json → Bool
  | .string s => eventIdSuffix.toList.isSuffixOf s.toList
  | _ => false

/-- Reads a success; the result must be there and may be `null`. -/
def Success.ofJson (frame : Json) : Except ProtocolError Success := do
  let members ← frameMembers frame
  checkVersion members
  let id ← Id.ofJson (Json.lookup "id" members)
  match Json.lookup "result" members with
  | some result => pure { id, result }
  | none => throw .result

/-- Reads the error member of a failure. -/
def Fault.ofJson (found : Option Json) : Except ProtocolError Fault :=
  match found with
  | some (.object members) =>
    match (Json.lookup "code" members).bind Json.int64? with
    | none => .error (.fault .code)
    | some code =>
      match (Json.lookup "message" members).bind Json.string? with
      | none => .error (.fault .message)
      | some message => .ok { code, message, data := Json.lookup "data" members }
  | _ => .error (.fault .notDictionary)

/-- Reads the id of a failure, which may be `null`. -/
def Failure.idOfJson (found : Option Json) : Except ProtocolError (Option Id) :=
  match found with
  | some .null => .ok none
  | other => (Id.ofJson other).map some

/-- Reads a failure, which has no result. -/
def Failure.ofJson (frame : Json) : Except ProtocolError Failure := do
  let members ← frameMembers frame
  checkVersion members
  let id ← Failure.idOfJson (Json.lookup "id" members)
  if (Json.lookup "result" members).isSome then throw (.fault .withResult)
  let fault ← Fault.ofJson (Json.lookup "error" members)
  pure { id, fault }

/-- Reads a response.  A frame with an error member is a failure, and its result does not count. -/
def Response.ofJson (frame : Json) : Except ProtocolError Response := do
  let members ← frameMembers frame
  if (Json.lookup "error" members).isSome then
    (Failure.ofJson (.object (Json.erase "result" members))).map .failure
  else
    (Success.ofJson frame).map .success

/-- The method and the parameters of an event: those of a notification, or of a result whose id has
the ending of events. -/
def Event.parts (members : List (String × Json)) :
    Except ProtocolError (String × Option Json) :=
  match Json.lookup "id" members with
  | none =>
    match (Json.lookup "method" members).bind Json.string? with
    | some method => .ok (method, Json.lookup "params" members)
    | none => .error (.event .noMethod)
  | some id =>
    if isEventId id then .ok (eventMethod, Json.lookup "result" members)
    else .error (.event (.withId id))

/-- The member of an event, or what is wrong with it. -/
def Event.member {α : Type} (found : Option Json) (read : Json → Option α) (flaw : EventFlaw) :
    Except ProtocolError α :=
  match found.bind read with
  | some a => .ok a
  | none => .error (.event flaw)

/-- Reads an event. -/
def Event.ofJson (frame : Json) : Except ProtocolError Event := do
  let members ← frameMembers frame
  checkVersion members
  let (method, found) ← Event.parts members
  let params ← Event.member found Json.members? .params
  let query ← Event.member (Json.lookup "query" params) Json.string? .noQuery
  let data ← Event.member (Json.lookup "data" params) Json.members? .noData
  let kind ← Event.member (Json.lookup "type" data) Json.string? .noKind
  let value ← Event.member (Json.lookup "value" data) some .noValue
  pure { method, query, kind, value }

/-- Whether a frame without an error member is an event: by its id, or by a method without id. -/
def isEventFrame (members : List (String × Json)) : Bool :=
  match Json.lookup "id" members with
  | none => (Json.lookup "method" members).isSome
  | some id => isEventId id

/-- Reads any frame. -/
def Message.ofJson (frame : Json) : Except ProtocolError Message := do
  let members ← frameMembers frame
  checkVersion members
  if (Json.lookup "error" members).isSome then
    (Response.ofJson frame).map Response.toMessage
  else if isEventFrame members then
    (Event.ofJson frame).map .event
  else
    (Success.ofJson frame).map .success

/-- Reads a frame from its text. -/
def Message.ofText (text : String) : Except ProtocolError Message :=
  match Json.ofText? text with
  | some frame => Message.ofJson frame
  | none => .error .json

end NodeClient
