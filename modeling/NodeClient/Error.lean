import NodeClient.Encoding.Base64
import NodeClient.Encoding.Hex
import NodeClient.Encoding.Timestamp
import NodeClient.Envelope.Basic
import NodeClient.Schema.Mismatch

/-!
# Error — what can go wrong, by cause

One type for each layer: the connection, the envelope, the payload, the configuration and the client
as a whole.  The wording stands in the `message` functions only.
-/

namespace NodeClient

/-! ### The connection -/

/-- A time span in milliseconds, in the largest unit that leaves no zero before the point. -/
def millisText (ms : Nat) : String :=
  if ms = 0 then "0ns"
  else if ms < 1000 then toString ms ++ "ms"
  else
    let digits := toString (1000 + ms % 1000)
    let fraction := ((digits.toList.drop 1).reverse.dropWhile (· == '0')).reverse
    let point := if fraction.isEmpty then "" else "."
    toString (ms / 1000) ++ point ++ String.ofList fraction ++ "s"

/-- Why a frame or an answer did not get through. -/
inductive TransportError where
  | notConnected
  | sendTimeout (ms : Nat)
  | responseTimeout (ms : Nat)
  | connect (reason : String)
  | closed
  | frame (reason : String)
  | http (reason : String)
deriving DecidableEq, Repr

/-- The text of the error. -/
def TransportError.message : TransportError → String
  | .notConnected => "socket is not connected"
  | .sendTimeout ms => "send timed out after " ++ millisText ms
  | .responseTimeout ms => "no response within " ++ millisText ms
  | .connect reason => "connection failed: " ++ reason
  | .closed => "connection closed"
  | .frame reason => "websocket error: " ++ reason
  | .http reason => "HTTP error: " ++ reason

/-! ### The envelope -/

/-- What is wrong with the error member of a response. -/
inductive FaultFlaw where
  | withResult
  | notDictionary
  | code
  | message
deriving DecidableEq, Repr

/-- The text of a flaw. -/
def FaultFlaw.text : FaultFlaw → String
  | .withResult => "response must not contain a result"
  | .notDictionary => "must be a dictionary"
  | .code => "code must be an integer"
  | .message => "message must be a string"

/-- What is wrong with an event. -/
inductive EventFlaw where
  | noMethod
  | withId (id : Json)
  | params
  | noQuery
  | noData
  | noKind
  | noValue

/-- The text of a flaw. -/
def EventFlaw.text : EventFlaw → String
  | .noMethod => "missing method"
  | .withId id => "events carry no id, got " ++ id.render
  | .params => "params must be a dictionary"
  | .noQuery => "missing query"
  | .noData => "missing data"
  | .noKind => "missing data.type"
  | .noValue => "missing data.value"

/-- Why a frame breaks the rules of the envelope. -/
inductive ProtocolError where
  | notDictionary
  | version (found : Option Json)
  | id (found : Option Json)
  | idMismatch (expected got : Id)
  | result
  | fault (flaw : FaultFlaw)
  | event (flaw : EventFlaw)
  | json

/-- A member as it stands in messages. -/
def memberText : Option Json → String
  | some v => v.render
  | none => "<unset>"

/-- The text of the error. -/
def ProtocolError.message : ProtocolError → String
  | .notDictionary => "data must be JSON compatible dictionary"
  | .version found => "got unexpected jsonrpc version: " ++ memberText found
  | .id found => "invalid id field: " ++ memberText found
  | .idMismatch expected got =>
    "response id " ++ got.text ++ " does not match request id " ++ expected.text
  | .result => "invalid result field"
  | .fault flaw => "invalid error field: " ++ flaw.text
  | .event flaw => "invalid event: " ++ flaw.text
  | .json => "frame is not valid JSON"

/-! ### The payload -/

/-- Why a payload is no object of the chain.  Fields are named by their place. -/
inductive DecodeError where
  | shape (mismatch : Schema.Mismatch)
  | missing (field : String)
  | empty (field : String)
  | integer (text : String)
  | integerRange (text : String)
  | hex (cause : Hex.Error)
  | base64 (cause : Base64.Error)
  | time (text : String) (cause : Timestamp.Error)
  | pubkeyType (found : String)
  | voteType (found : UInt8)

/-- The text of the error. -/
def DecodeError.message : DecodeError → String
  | .shape mismatch => "unexpected payload shape: " ++ mismatch.message
  | .missing field => "missing " ++ field
  | .empty field => field ++ " must not be empty"
  | .integer text => "invalid integer `" ++ text ++ "`"
  | .integerRange text => "integer out of range: " ++ text
  | .hex cause => "invalid hex: " ++ cause.message
  | .base64 cause => "invalid base64: " ++ cause.message
  | .time text cause => "invalid RFC 3339 time `" ++ text ++ "`: " ++ cause.message
  | .pubkeyType found => "unknown pubkey type: " ++ found
  | .voteType found => "unknown vote type: " ++ toString found.toNat

end NodeClient
