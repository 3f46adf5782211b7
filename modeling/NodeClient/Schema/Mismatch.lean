import NodeClient.Json.Printer
import NodeClient.Text.Quoted

/-!
# Mismatch — a value that does not have the shape it should have

The causes are a value of the wrong kind, an integer outside its range, and an array with too few or
too many elements for a record.
-/

namespace NodeClient
namespace Schema

/-- What is expected at a place. -/
inductive Expected where
  | string
  | boolean
  | word8
  | word32
  | word64
  | number
  | sequence
  | map
  | record (name : String)
deriving DecidableEq, Repr

/-- The name of what is expected. -/
def Expected.text : Expected → String
  | .string => "a string"
  | .boolean => "a boolean"
  | .word8 => "u8"
  | .word32 => "u32"
  | .word64 => "u64"
  | .number => "a JSON number"
  | .sequence => "a sequence"
  | .map => "a map"
  | .record name => "struct " ++ name

/-- How an array that stands for a record is read: directly, or after it was set aside while other
members were read. -/
inductive Source where
  | direct
  | setAside
deriving DecidableEq, Repr

/-- Why a value does not have its shape. -/
inductive Mismatch where
  /-- A value of the wrong kind. -/
  | kind (found : Json) (expected : Expected)
  /-- An integer out of range. -/
  | range (found : Int) (expected : Expected)
  /-- An array with too few elements for the fields of a record. -/
  | tooShort (found : Nat) (name : String) (fields : Nat)
  /-- An array with more elements than the record has fields. -/
  | tooLong (found fields : Nat) (source : Source)

/-- A value as it is named in messages: scalars with their value, the rest by kind. -/
def describe : Json → String
  | .null => "null"
  | .bool b => "boolean `" ++ (if b then "true" else "false") ++ "`"
  | .number (.integer n _) => "integer `" ++ toString n ++ "`"
  | .number (.double x) => "floating point `" ++ Json.layout.render x ++ "`"
  | .string s => "string " ++ Text.quoted s
  | .array _ => "sequence"
  | .object _ => "map"

/-- A count of elements. -/
def elements (n : Nat) : String :=
  toString n ++ if n = 1 then " element" else " elements"

/-- The text of a mismatch. -/
def Mismatch.message : Mismatch → String
  | .kind found expected =>
    "invalid type: " ++ describe found ++ ", expected " ++ expected.text
  | .range found expected =>
    "invalid value: integer `" ++ toString found ++ "`, expected " ++ expected.text
  | .tooShort found name fields =>
    "invalid length " ++ toString found ++ ", expected struct " ++ name ++ " with " ++
      elements fields
  | .tooLong found _ .direct =>
    "invalid length " ++ toString found ++ ", expected fewer elements in array"
  | .tooLong found fields .setAside =>
    "invalid length " ++ toString found ++ ", expected " ++ elements fields ++ " in sequence"

end Schema
end NodeClient
