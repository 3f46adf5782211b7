import NodeClient.Encoding.IntegerText
import NodeClient.Error

/-!
# Format — what a payload looks like and what it stands for

A `Format α` is a value that describes payloads: scalars with their encoding, lists, optional
entries and records with named fields.  It is read in two stages.  `Format.conform` checks the shape
of a whole payload and brings it into one form: records become objects that hold their declared,
non-null fields.  `Format.read` then finds the fields, reports those that are missing or empty, and
decodes them in the order in which the description lists them.  `Format.decode` is both in turn, so
a wrong shape anywhere is reported before any missing field.
-/

namespace NodeClient
namespace Schema

/-! ### Scalars -/

/-- How a scalar is written. -/
inductive Scalar : Type → Type 1 where
  | text : Scalar String
  /-- Bytes in hexadecimal. -/
  | hex : Scalar Bytes
  /-- Bytes in base64. -/
  | base64 : Scalar Bytes
  /-- A signed word as decimal text. -/
  | integer : Scalar Int64
  | time : Scalar Timestamp
  | flag : Scalar Bool
  | word8 : Scalar UInt8
  | word32 : Scalar UInt32
  | number : Scalar Json.Number
  /-- Any value, kept as it is. -/
  | json : Scalar Json
  /-- An object whose members are all strings. -/
  | texts : Scalar (List (String × String))

/-- A text, or what was found in its place. -/
def asText (v : Json) : Except Mismatch String :=
  match v with
  | .string s => .ok s
  | other => .error (.kind other .string)

/-- An integer below `bound`, or what was found in its place. -/
def asWord (bound : Nat) (expected : Expected) (v : Json) : Except Mismatch Nat :=
  match v with
  | .number (.integer n _) =>
    if 0 ≤ n ∧ n < bound then .ok n.toNat else .error (.range n expected)
  | other => .error (.kind other expected)

/-- The members of an object whose values are texts. -/
def asTexts : List (String × Json) → Except Mismatch (List (String × String))
  | [] => .ok []
  | (k, v) :: rest => do
    let s ← asText v
    let tail ← asTexts rest
    pure ((k, s) :: tail)

namespace Scalar

variable {α : Type}

/-- Checks the kind of a scalar. -/
def check : Scalar α → Json → Except Mismatch Unit
  | .text, v | .hex, v | .base64, v | .integer, v | .time, v => (asText v).map fun _ => ()
  | .flag, .bool _ => .ok ()
  | .flag, v => .error (.kind v .boolean)
  | .word8, v => (asWord 256 .word8 v).map fun _ => ()
  | .word32, v => (asWord UInt32.size .word32 v).map fun _ => ()
  | .number, .number _ => .ok ()
  | .number, v => .error (.kind v .number)
  | .json, _ => .ok ()
  | .texts, .object members => (asTexts members).map fun _ => ()
  | .texts, v => .error (.kind v .map)

/-- Hexadecimal text as bytes. -/
def readHex (s : String) : Except DecodeError Bytes :=
  (Hex.decode s).mapError .hex

/-- Base64 text as bytes. -/
def readBase64 (s : String) : Except DecodeError Bytes :=
  (Base64.decode s).mapError .base64

/-- Decimal text as a word. -/
def readInteger (s : String) : Except DecodeError Int64 :=
  match IntegerText.decode s with
  | .ok n => .ok n
  | .error .malformed => .error (.integer s)
  | .error .outOfRange => .error (.integerRange s)

/-- An instant. -/
def readTime (s : String) : Except DecodeError Timestamp :=
  (Timestamp.decode s).mapError (.time s)

/-- What a scalar stands for. -/
def read : Scalar α → Json → Except DecodeError α
  | .text, v => (asText v).mapError .shape
  | .hex, v => do readHex (← (asText v).mapError .shape)
  | .base64, v => do readBase64 (← (asText v).mapError .shape)
  | .integer, v => do readInteger (← (asText v).mapError .shape)
  | .time, v => do readTime (← (asText v).mapError .shape)
  | .flag, .bool b => .ok b
  | .flag, v => .error (.shape (.kind v .boolean))
  | .word8, v => ((asWord 256 .word8 v).map UInt8.ofNat).mapError .shape
  | .word32, v => ((asWord UInt32.size .word32 v).map UInt32.ofNat).mapError .shape
  | .number, .number n => .ok n
  | .number, v => .error (.shape (.kind v .number))
  | .json, v => .ok v
  | .texts, .object members => (asTexts members).mapError .shape
  | .texts, v => .error (.shape (.kind v .map))

end Scalar

/-! ### Formats -/

/-- Whether a field must be there, and what stands for it if it is not.  A field with a format for
`γ` gives a `β`. -/
inductive Presence : Type → Type → Type 1 where
  /-- It must be there. -/
  | required {γ : Type} (label : String) : Presence γ γ
  /-- It must be there and not be the empty text. -/
  | nonempty {γ : Type} (label : String) : Presence γ γ
  | optional {γ : Type} : Presence γ (Option γ)
  | default {γ : Type} (value : γ) : Presence γ γ

/-- How a record is laid out. -/
inductive Layout where
  /-- An object, or an array of the fields in this order. -/
  | plain (name : String) (keys : List String)
  /-- An object that holds its own fields and, at the same level, those of a part. -/
  | merged (name : String) (own part : List String)

mutual

/-- The format of payloads that stand for an `α`. -/
inductive Format : Type → Type 1 where
  | scalar {α : Type} (s : Scalar α) : Format α
  | list {α : Type} (item : Format α) : Format (List α)
  /-- An entry of a list that may be `null`. -/
  | nullable {α : Type} (item : Format α) : Format (Option α)
  /-- The values of a format that pass a further check. -/
  | refine {α β : Type} (base : Format α) (narrow : α → Except DecodeError β) : Format β
  | record {α : Type} (layout : Layout) (fields : Fields α) : Format α

/-- The fields of a record that stand for an `α`, in the order in which they are read. -/
inductive Fields : Type → Type 1 where
  | build {α : Type} (make : α) : Fields α
  /-- Looks whether something is there, before the fields after it are read. -/
  | seek {α : Type} (before : Fields α) (path : List String) (label : String) : Fields α
  | field {α β γ : Type} (before : Fields (β → α)) (key : String) (presence : Presence γ β)
      (format : Format γ) : Fields α

end

namespace Fields

variable {α β : Type}

/-- A field that must be there. -/
abbrev require (before : Fields (β → α)) (key label : String) (format : Format β) : Fields α :=
  .field before key (.required label) format

/-- A field that must be there and not be the empty text. -/
abbrev nonempty (before : Fields (β → α)) (key label : String) (format : Format β) : Fields α :=
  .field before key (.nonempty label) format

/-- A field that may be missing. -/
abbrev allow (before : Fields (Option β → α)) (key : String) (format : Format β) : Fields α :=
  .field before key .optional format

/-- A field that stands for `value` if it is missing. -/
abbrev orElse (before : Fields (β → α)) (key : String) (format : Format β) (value : β) :
    Fields α :=
  .field before key (.default value) format

end Fields

/-! ### Shape -/

/-- Applies a check to every item of a list. -/
def conformItems (check : Json → Except Mismatch Json) : List Json → Except Mismatch (List Json)
  | [] => .ok []
  | v :: rest => do
    let w ← check v
    let tail ← conformItems check rest
    pure (w :: tail)

/-- Applies a check to every member, and keeps those that it keeps. -/
def conformMembers (check : String → Json → Except Mismatch (Option Json)) :
    List (String × Json) → Except Mismatch (List (String × Json))
  | [] => .ok []
  | (k, v) :: rest => do
    let kept ← check k v
    let tail ← conformMembers check rest
    match kept with
    | some w => pure ((k, w) :: tail)
    | none => pure tail

/-- The members of a record that is written as an array. -/
def conformArray (check : String → Json → Except Mismatch (Option Json)) (source : Source)
    (name : String) (keys : List String) (items : List Json) :
    Except Mismatch (List (String × Json)) := do
  let members ← conformMembers check (keys.zip items)
  if items.length < keys.length then
    throw (.tooShort items.length name keys.length)
  else if keys.length < items.length then
    throw (.tooLong items.length keys.length source)
  else
    pure members

mutual

/-- Checks the shape of a payload, and brings its records into one form. -/
def Format.conform {α : Type} : Format α → Source → Json → Except Mismatch Json
  | .scalar s, _, v => (s.check v).map fun _ => v
  | .list item, source, v =>
    match v with
    | .array items => (conformItems (fun v => item.conform source v) items).map .array
    | other => .error (.kind other .sequence)
  | .nullable item, source, v =>
    match v with
    | .null => .ok .null
    | other => item.conform source other
  | .refine base _, source, v => base.conform source v
  | .record (.plain name keys) fields, source, v =>
    match v with
    | .object members =>
      (conformMembers (fun k v => fields.conformField source k v) members).map .object
    | .array items =>
      (conformArray (fun k v => fields.conformField source k v) source name keys items).map .object
    | other => .error (.kind other (.record name))
  | .record (.merged name own part) fields, _, v =>
    match v with
    | .object members => do
      let mine ← conformMembers (fun k v => fields.conformField .direct k v)
        (members.filter fun m => own.contains m.1)
      let rest ← conformMembers (fun k v => fields.conformField .setAside k v)
        (members.filter fun m => part.contains m.1)
      pure (.object (mine ++ rest))
    | other => .error (.kind other (.record name))

/-- Checks the shape of one member of a record.  Members without a field and those that are `null`
do not count. -/
def Fields.conformField {α : Type} :
    Fields α → Source → String → Json → Except Mismatch (Option Json)
  | .build _, _, _, _ => .ok none
  | .seek before _ _, source, k, v => before.conformField source k v
  | .field before key _ format, source, k, v =>
    if k = key then
      match v with
      | .null => .ok none
      | other => (format.conform source other).map some
    else
      before.conformField source k v

end

/-! ### Fields -/

/-- Reads a field by its presence rule. -/
def Presence.read {γ β : Type} (presence : Presence γ β) (read : Json → Except DecodeError γ)
    (found : Option Json) : Except DecodeError β :=
  match presence, found with
  | .required label, none => .error (.missing label)
  | .required _, some v => read v
  | .nonempty label, none => .error (.missing label)
  | .nonempty label, some (.string "") => .error (.empty label)
  | .nonempty _, some v => read v
  | .optional, none => .ok none
  | .optional, some v => (read v).map some
  | .default value, none => .ok value
  | .default _, some v => read v

/-- Whether something stands at the end of a path of keys. -/
def holds (members : List (String × Json)) : List String → Bool
  | [] => true
  | key :: rest =>
    match Json.lookup key members with
    | some (.object inner) => holds inner rest
    | some _ => rest.isEmpty
    | none => false

/-- Reads every item of a list. -/
def readItems {α : Type} (read : Json → Except DecodeError α) :
    List Json → Except DecodeError (List α)
  | [] => .ok []
  | v :: rest => do
    let a ← read v
    let tail ← readItems read rest
    pure (a :: tail)

mutual

/-- What a conforming payload stands for. -/
def Format.read {α : Type} : Format α → Json → Except DecodeError α
  | .scalar s, v => s.read v
  | .list item, v =>
    match v with
    | .array items => readItems (fun v => item.read v) items
    | other => .error (.shape (.kind other .sequence))
  | .nullable item, v =>
    match v with
    | .null => .ok none
    | other => (item.read other).map some
  | .refine base narrow, v => do narrow (← base.read v)
  | .record _ fields, v =>
    match v with
    | .object members => fields.read members
    | other => .error (.shape (.kind other .map))

/-- What the members of a conforming record stand for. -/
def Fields.read {α : Type} : Fields α → List (String × Json) → Except DecodeError α
  | .build make, _ => .ok make
  | .seek before path label, members => do
    let a ← before.read members
    if holds members path then pure a else throw (.missing label)
  | .field before key presence format, members => do
    let make ← before.read members
    let b ← presence.read (fun v => format.read v) (Json.lookup key members)
    pure (make b)

end

/-- What a payload stands for, or the first thing that is wrong with it. -/
def Format.decode {α : Type} (format : Format α) (payload : Json) : Except DecodeError α := do
  let conforming ← (format.conform .direct payload).mapError .shape
  format.read conforming

end Schema
end NodeClient
