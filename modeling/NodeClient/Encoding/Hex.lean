import NodeClient.Encoding.Bytes
import NodeClient.Text.Quoted

/-!
# Hex — bytes as pairs of hexadecimal digits

Written in lower case; read in either case.
-/

namespace NodeClient
namespace Hex

/-- Why a text is no hexadecimal byte string. -/
inductive Error where
  /-- It has an odd number of bytes. -/
  | oddLength
  /-- It has this byte, no digit, at this place. -/
  | badByte (byte : UInt8) (position : Nat)
deriving DecidableEq, Repr

/-- The text of an error; a byte is shown as the character of that code point. -/
def Error.message : Error → String
  | .oddLength => "Odd number of digits"
  | .badByte byte position =>
    "Invalid character " ++ Text.quotedChar (Char.ofNat byte.toNat) ++ " at position " ++
      toString position

/-- The lower-case digit of a value below 16. -/
def digit (n : UInt8) : UInt8 :=
  if n < 10 then 48 + n else 87 + n

/-- The value of a digit of either case. -/
def value? (b : UInt8) : Option UInt8 :=
  if 48 ≤ b ∧ b ≤ 57 then some (b - 48)
  else if 97 ≤ b ∧ b ≤ 102 then some (b - 87)
  else if 65 ≤ b ∧ b ≤ 70 then some (b - 55)
  else none

/-- The digits of a byte string. -/
def digits (bytes : Bytes) : Bytes :=
  bytes.flatMap fun b => [digit (b / 16), digit (b % 16)]

/-- A byte string in lower-case hexadecimal. -/
def encode (bytes : Bytes) : String :=
  Text.ofAscii (digits bytes)

/-- The value of the digit at a place. -/
def valueAt (b : UInt8) (position : Nat) : Except Error UInt8 :=
  match value? b with
  | some v => .ok v
  | none => .error (.badByte b position)

/-- Reads pairs of digits; the first one stands at `position`. -/
def pairs (position : Nat) : Bytes → Except Error Bytes
  | [] => .ok []
  | [_] => .error .oddLength
  | high :: low :: rest => do
    let h ← valueAt high position
    let l ← valueAt low (position + 1)
    let tail ← pairs (position + 2) rest
    pure ((h * 16 + l) :: tail)

/-- The bytes of a hexadecimal text; its length is checked first. -/
def decode (text : String) : Except Error Bytes :=
  let input := Text.utf8 text
  if input.length % 2 = 1 then .error .oddLength else pairs 0 input

end Hex
end NodeClient
