/-!
# IntegerText — signed words as decimal text

An optional minus and one or more ASCII digits; leading zeros and `-0` are fine, a plus is not.
-/

namespace NodeClient
namespace IntegerText

/-- Why a text is no signed word. -/
inductive Error where
  /-- It is not an optional minus followed by digits. -/
  | malformed
  /-- It is the text of an integer beyond 64 bits. -/
  | outOfRange
deriving DecidableEq, Repr

/-- The value of a list of decimal digits. -/
def digitsValue (ds : List Char) : Nat :=
  ds.foldl (fun n c => n * 10 + (c.toNat - '0'.toNat)) 0

/-- The sign and the characters after it. -/
def split : List Char → Bool × List Char
  | '-' :: rest => (true, rest)
  | cs => (false, cs)

/-- The integer that an optional minus and digits denote. -/
def value? (text : List Char) : Option Int :=
  let (negative, ds) := split text
  if ds.isEmpty || !ds.all Char.isDigit then none
  else some (if negative then -(digitsValue ds : Int) else (digitsValue ds : Int))

/-- The word that a text denotes. -/
def decode (text : String) : Except Error Int64 :=
  match value? text.toList with
  | none => .error .malformed
  | some n =>
    if -0x8000000000000000 ≤ n ∧ n < 0x8000000000000000 then .ok (Int64.ofInt n)
    else .error .outOfRange

/-- The shortest text of a word. -/
def encode (n : Int64) : String :=
  toString n.toInt

end IntegerText
end NodeClient
