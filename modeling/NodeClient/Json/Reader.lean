import NodeClient.Json.Token

/-!
# Json reader — values from text

The reader folds the tokens of a text over the stack of arrays and objects that are still open.
`Json.ofText?` gives the value of a text that is one value, with at most `maxDepth` levels of
nesting; of several members with one key the last one counts.
-/

namespace NodeClient
namespace Json

/-- How many arrays and objects may stand inside one another. -/
def maxDepth : Nat := 127

/-- An array or object that is not closed yet. -/
inductive Frame where
  /-- The items so far, last first. -/
  | array (items : List Json)
  /-- The members so far, and the key whose value comes next. -/
  | object (members : List (String × Json)) (key : String)

/-- What may come next. -/
inductive Expect where
  /-- A value. -/
  | value
  /-- A value, or the end of the array that was just opened. -/
  | firstItem
  /-- A key, or the end of the object that was just opened. -/
  | firstKey
  /-- A key. -/
  | key
  /-- The colon after this key. -/
  | colon
  /-- A comma or the end of the innermost array or object. -/
  | more
  /-- Nothing: the whole value was read. -/
  | done (value : Json)

/-- The reader: open arrays and objects, innermost first, and what may come next.  In a frame of an
object the key is the one read last. -/
structure Reader where
  open_ : List Frame
  expect : Expect

namespace Reader

/-- Puts a complete value into the innermost frame. -/
def place (frames : List Frame) (v : Json) : Reader :=
  match frames with
  | [] => ⟨[], .done v⟩
  | .array items :: rest => ⟨.array (v :: items) :: rest, .more⟩
  | .object members key :: rest => ⟨.object (insert key v members) key :: rest, .more⟩

/-- Opens an array or object. -/
def enter (frames : List Frame) (frame : Frame) (expect : Expect) : Option Reader :=
  if frames.length < maxDepth then some ⟨frame :: frames, expect⟩ else none

/-- Reads the first token of a value. -/
def value? (frames : List Frame) : Token → Option Reader
  | .scalar v => some (place frames v)
  | .openArray => enter frames (.array []) .firstItem
  | .openObject => enter frames (.object [] "") .firstKey
  | _ => none

/-- Reads a key. -/
def key? (frames : List Frame) (token : Token) : Option Reader :=
  match frames, token with
  | .object members _ :: rest, .scalar (.string s) => some ⟨.object members s :: rest, .colon⟩
  | _, _ => none

/-- Closes the innermost frame. -/
def close? (frames : List Frame) (token : Token) : Option Reader :=
  match frames, token with
  | .array items :: rest, .closeArray => some (place rest (.array items.reverse))
  | .object members _ :: rest, .closeObject => some (place rest (.object members))
  | _, _ => none

/-- Reads one token. -/
def step (reader : Reader) (token : Token) : Option Reader :=
  let frames := reader.open_
  match reader.expect with
  | .value => value? frames token
  | .firstItem => (close? frames token).orElse fun _ => value? frames token
  | .firstKey => (close? frames token).orElse fun _ => key? frames token
  | .key => key? frames token
  | .colon => match token with
    | .colon => some ⟨frames, .value⟩
    | _ => none
  | .more => match token, frames with
    | .comma, .array _ :: _ => some ⟨frames, .value⟩
    | .comma, .object _ _ :: _ => some ⟨frames, .key⟩
    | _, _ => close? frames token
  | .done _ => none

end Reader

/-- The value of a sequence of tokens. -/
def ofTokens? (tokens : List Token) : Option Json :=
  match tokens.foldlM Reader.step ⟨[], .value⟩ with
  | some ⟨_, .done v⟩ => some v
  | _ => none

/-- The value of a text. -/
def ofText? (text : String) : Option Json :=
  (Token.scan? text.toList).bind ofTokens?

end Json
end NodeClient
