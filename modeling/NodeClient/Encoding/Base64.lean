import NodeClient.Encoding.Bytes

/-!
# Base64 — bytes in the standard alphabet, padded

Three bytes are four symbols.  The reader accepts what `encode` writes and nothing else: padding is
required and the unused bits of the last symbol are zero.
-/

namespace NodeClient
namespace Base64

/-- Why a text is no base64 byte string. -/
inductive Error where
  /-- A byte outside the alphabet, or padding where none may stand. -/
  | badSymbol (byte : UInt8) (offset : Nat)
  /-- The last group has fewer than two symbols and ends here. -/
  | badLength (offset : Nat)
  /-- The last group is not filled up to four. -/
  | badPadding
  /-- The last symbol has unused bits that are not zero. -/
  | badLastSymbol (byte : UInt8) (offset : Nat)
deriving DecidableEq, Repr

/-- The text of an error. -/
def Error.message : Error → String
  | .badSymbol byte offset =>
    "Invalid symbol " ++ toString byte.toNat ++ ", offset " ++ toString offset ++ "."
  | .badLength offset => "Invalid input length: " ++ toString offset
  | .badPadding => "Invalid padding"
  | .badLastSymbol byte offset =>
    "Invalid last symbol " ++ toString byte.toNat ++ ", offset " ++ toString offset ++ "."

/-- The padding byte `=`. -/
def pad : UInt8 := 61

/-- The symbol of a value below 64. -/
def symbol (n : Nat) : UInt8 :=
  if n < 26 then UInt8.ofNat (65 + n)
  else if n < 52 then UInt8.ofNat (97 + (n - 26))
  else if n < 62 then UInt8.ofNat (48 + (n - 52))
  else if n = 62 then 43
  else 47

/-- The value of a symbol. -/
def value? (b : UInt8) : Option Nat :=
  if 65 ≤ b ∧ b ≤ 90 then some (b.toNat - 65)
  else if 97 ≤ b ∧ b ≤ 122 then some (b.toNat - 97 + 26)
  else if 48 ≤ b ∧ b ≤ 57 then some (b.toNat - 48 + 52)
  else if b = 43 then some 62
  else if b = 47 then some 63
  else none

/-- The symbols of a byte string. -/
def symbols : Bytes → Bytes
  | [] => []
  | [a] => [symbol (a.toNat / 4), symbol (a.toNat % 4 * 16), pad, pad]
  | [a, b] =>
    [symbol (a.toNat / 4), symbol (a.toNat % 4 * 16 + b.toNat / 16), symbol (b.toNat % 16 * 4), pad]
  | a :: b :: c :: rest =>
    symbol (a.toNat / 4) :: symbol (a.toNat % 4 * 16 + b.toNat / 16) ::
      symbol (b.toNat % 16 * 4 + c.toNat / 64) :: symbol (c.toNat % 64) :: symbols rest

/-- A byte string in base64. -/
def encode (bytes : Bytes) : String :=
  Text.ofAscii (symbols bytes)

/-- The values of bytes that must all be symbols; the first one stands at `offset`. -/
def values (offset : Nat) : Bytes → Except Error (List Nat)
  | [] => .ok []
  | b :: rest =>
    match value? b with
    | none => .error (.badSymbol b offset)
    | some v => (values (offset + 1) rest).map (v :: ·)

/-- The bytes of whole groups of four values. -/
def join : List Nat → Bytes
  | a :: b :: c :: d :: rest =>
    UInt8.ofNat (a * 4 + b / 16) :: UInt8.ofNat (b % 16 * 16 + c / 4) ::
      UInt8.ofNat (c % 4 * 64 + d) :: join rest
  | _ => []

/-- What was read of the last group: the values of its symbols, the last symbol, the padding, and
the place of the first padding byte. -/
structure Tail where
  values : List Nat
  last : UInt8
  padding : Nat
  firstPad : Nat

/-- Reads one byte of the last group; `index` counts from the start of the group. -/
def Tail.push (start : Nat) (tail : Tail) (index : Nat) (b : UInt8) : Except Error Tail :=
  if b = pad then
    if index < 2 then .error (.badSymbol b (start + index))
    else
      .ok { tail with
        padding := tail.padding + 1
        firstPad := if tail.padding = 0 then index else tail.firstPad }
  else if tail.padding ≠ 0 then .error (.badSymbol pad (start + tail.firstPad))
  else
    match value? b with
    | none => .error (.badSymbol b (start + index))
    | some v => .ok { tail with values := tail.values ++ [v], last := b }

/-- Reads the last group. -/
def scanTail (start : Nat) (tail : Tail) (index : Nat) : Bytes → Except Error Tail
  | [] => .ok tail
  | b :: rest => do
    let next ← tail.push start index b
    scanTail start next (index + 1) rest

/-- The bytes of the last group, if its padding and its unused bits are right. -/
def finish (start : Nat) (tail : Tail) : Except Error Bytes :=
  let count := tail.values.length
  if (count + tail.padding) % 4 ≠ 0 then .error .badPadding
  else
    match tail.values with
    | [a, b] =>
      if b % 16 = 0 then .ok [UInt8.ofNat (a * 4 + b / 16)]
      else .error (.badLastSymbol tail.last (start + 1))
    | [a, b, c] =>
      if c % 4 = 0 then
        .ok [UInt8.ofNat (a * 4 + b / 16), UInt8.ofNat (b % 16 * 16 + c / 4)]
      else .error (.badLastSymbol tail.last (start + 2))
    | whole => .ok (join whole)

/-- The bytes of a base64 text.  A stray byte at the end of a group of one is reported first. -/
def decodeBytes (input : Bytes) : Except Error Bytes :=
  let n := input.length
  let stray : Option UInt8 :=
    if n % 4 = 1 then
      input.getLast?.filter fun b => b ≠ pad && (value? b).isNone
    else none
  match stray with
  | some b => .error (.badSymbol b (n - 1))
  | none => do
    let start := if n % 4 = 0 then n - 4 else n - n % 4
    let whole ← values 0 (input.take start)
    let tail ← scanTail start ⟨[], 0, 0, 0⟩ 0 (input.drop start)
    if n ≠ 0 ∧ tail.values.length < 2 then
      .error (.badLength (start + tail.values.length))
    else
      let last ← finish start tail
      pure (join whole ++ last)

/-- The bytes of a base64 text. -/
def decode (text : String) : Except Error Bytes :=
  decodeBytes (Text.utf8 text)

end Base64
end NodeClient
