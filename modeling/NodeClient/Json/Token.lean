import NodeClient.Json.Basic

/-!
# Json tokens — cutting a text into marks, strings, numbers and words

The lexer is a machine that reads one character at a time: `Lexer.step` is its transition and
`Token.scan?` runs it over a text.  A text is refused where a string holds a raw control character,
a bad escape or half of a surrogate pair, or where a number or a word is none of the language.
-/

namespace NodeClient
namespace Json

/-- A lexical unit of a JSON text. -/
inductive Token where
  | openArray
  | closeArray
  | openObject
  | closeObject
  | colon
  | comma
  /-- A complete scalar value. -/
  | scalar (value : Json)

/-! ### Numbers -/

/-- The greatest significand a reader keeps. -/
def maxSignificand : Nat := 0xffffffffffffffff

/-- The value of a decimal digit. -/
def digit? (c : Char) : Option Nat :=
  if '0' ≤ c ∧ c ≤ '9' then some (c.toNat - '0'.toNat) else none

/-- Reads digits into a significand as long as it fits: the significand, how many digits went into
it, and the digits and other characters that are left. -/
def takeSignificand (significand count : Nat) : List Char → Nat × Nat × List Char
  | [] => (significand, count, [])
  | c :: rest =>
    match digit? c with
    | none => (significand, count, c :: rest)
    | some d =>
      if significand * 10 + d ≤ maxSignificand then
        takeSignificand (significand * 10 + d) (count + 1) rest
      else
        (significand, count, c :: rest)

/-- Skips digits: how many there were, and the rest. -/
def skipDigits : List Char → Nat × List Char
  | [] => (0, [])
  | c :: rest =>
    match digit? c with
    | none => (0, c :: rest)
    | some _ => let (n, rest) := skipDigits rest; (n + 1, rest)

/-- Decimal exponents beyond this size count as infinitely large. -/
def maxExponent : Nat := 0x7fffffff

/-- The value of a list of digits. -/
def digitsValue (ds : List Char) : Nat :=
  ds.foldl (fun n c => n * 10 + (digit? c).getD 0) 0

/-- The number `± significand * 10 ^ exponent` as a double. -/
def decimal? (negative : Bool) (significand : Nat) (exponent : Int) : Option Number :=
  match Binary64.ofDecimal significand exponent with
  | none => none
  | some x => some (.double (if negative then x.neg else x))

/-- Reads the part of a number after its significand: nothing, or an exponent to the end of the
text. -/
def exponentPart? (negative : Bool) (significand : Nat) (exponent : Int) :
    List Char → Option Number
  | [] => decimal? negative significand exponent
  | c :: rest =>
    if c = 'e' ∨ c = 'E' then
      let (down, ds) : Bool × List Char :=
        match rest with
        | '+' :: ds => (false, ds)
        | '-' :: ds => (true, ds)
        | ds => (false, ds)
      if ds.isEmpty ∨ !ds.all Char.isDigit then
        none
      else
        let size := digitsValue ds
        if maxExponent < size then
          -- out of range upwards is an error, downwards zero
          if significand = 0 ∨ down then
            some (.double (if negative then Binary64.zero.neg else .zero))
          else
            none
        else
          decimal? negative significand (if down then exponent - size else exponent + size)
    else
      none

/-- Reads the part of a number after the digits before the point: nothing, a fraction or an
exponent. -/
def fractionPart? (negative : Bool) (significand : Nat) (exponent : Int) :
    List Char → Option Number
  | '.' :: rest =>
    let (significand, count, more) := takeSignificand significand 0 rest
    let (skipped, more) := skipDigits more
    if count + skipped = 0 then
      none
    else
      exponentPart? negative significand (exponent - count) more
  | rest => exponentPart? negative significand exponent rest

/-- Reads a number: an integer of up to 64 bits stays one, any other number and `-0` is a double. -/
def number? (text : List Char) : Option Number :=
  let (negative, text) : Bool × List Char :=
    match text with
    | '-' :: rest => (true, rest)
    | rest => (false, rest)
  match text with
  | [] => none
  | first :: rest =>
    let (significand, _, more) :=
      if first = '0' then (0, 1, rest) else takeSignificand 0 0 (first :: rest)
    let (skipped, tail) := if first = '0' then (0, more) else skipDigits more
    if (digit? first).isNone then
      none
    else if tail.isEmpty ∧ skipped = 0 then
      let value : Int := if negative then -Int.ofNat significand else Int.ofNat significand
      match Number.ofInt? value with
      | some n => if negative ∧ significand = 0 then decimal? true 0 0 else some n
      | none => decimal? negative significand 0
    else
      fractionPart? negative significand skipped tail

/-! ### The machine -/

/-- What the lexer is in the middle of. -/
inductive LexMode where
  /-- Between tokens. -/
  | between
  /-- In a number or a word; its characters so far, last first. -/
  | word (seen : List Char)
  /-- In a string; its characters so far, last first. -/
  | text (seen : List Char)
  /-- After a backslash. -/
  | escaped (seen : List Char)
  /-- In `\uXXXX`: the digits still to come, their value so far, and the first half of a pair. -/
  | unicode (seen : List Char) (left value : Nat) (high : Option Nat)
  /-- After the first half of a surrogate pair, before the backslash of the second. -/
  | paired (seen : List Char) (high : Nat)
  /-- After that backslash. -/
  | pairedEscape (seen : List Char) (high : Nat)

/-- The lexer: the tokens so far, last first, and what it is in the middle of. -/
structure Lexer where
  tokens : List Token
  mode : LexMode

namespace Lexer

/-- Whether the character belongs to a number or a word. -/
def isWordChar (c : Char) : Bool :=
  c.isAlphanum || c == '+' || c == '-' || c == '.'

/-- The scalar that a word or number stands for. -/
def word? (text : List Char) : Option Json :=
  if text = ['t', 'r', 'u', 'e'] then some (.bool true)
  else if text = ['f', 'a', 'l', 's', 'e'] then some (.bool false)
  else if text = ['n', 'u', 'l', 'l'] then some .null
  else (number? text).map .number

/-- Starts the next token. -/
def start? (tokens : List Token) (c : Char) : Option Lexer :=
  if c = ' ' ∨ c = '\t' ∨ c = '\n' ∨ c = '\r' then some ⟨tokens, .between⟩
  else if c = '[' then some ⟨.openArray :: tokens, .between⟩
  else if c = ']' then some ⟨.closeArray :: tokens, .between⟩
  else if c = '\x7b' then some ⟨.openObject :: tokens, .between⟩
  else if c = '\x7d' then some ⟨.closeObject :: tokens, .between⟩
  else if c = ':' then some ⟨.colon :: tokens, .between⟩
  else if c = ',' then some ⟨.comma :: tokens, .between⟩
  else if c = '"' then some ⟨tokens, .text []⟩
  else if isWordChar c then some ⟨tokens, .word [c]⟩
  else none

/-- The value of a hexadecimal digit of either case. -/
def hexValue? (c : Char) : Option Nat :=
  if '0' ≤ c ∧ c ≤ '9' then some (c.toNat - '0'.toNat)
  else if 'a' ≤ c ∧ c ≤ 'f' then some (c.toNat - 'a'.toNat + 10)
  else if 'A' ≤ c ∧ c ≤ 'F' then some (c.toNat - 'A'.toNat + 10)
  else none

/-- The character of a simple escape. -/
def simpleEscape? (c : Char) : Option Char :=
  if c = '"' ∨ c = '\\' ∨ c = '/' then some c
  else if c = 'b' then some '\x08'
  else if c = 'f' then some '\x0c'
  else if c = 'n' then some '\n'
  else if c = 'r' then some '\r'
  else if c = 't' then some '\t'
  else none

/-- Ends a `\uXXXX` escape: a code point, the first half of a pair, or its second half. -/
def unit? (seen : List Char) (value : Nat) (high : Option Nat) : Option LexMode :=
  let isHigh := 0xD800 ≤ value && value < 0xDC00
  let isLow := 0xDC00 ≤ value && value < 0xE000
  match high with
  | none =>
    if isHigh then some (.paired seen value)
    else if isLow then none
    else some (.text (Char.ofNat value :: seen))
  | some h =>
    if isLow then
      some (.text (Char.ofNat (0x10000 + (h - 0xD800) * 0x400 + (value - 0xDC00)) :: seen))
    else
      none

/-- Reads one character. -/
def step (lexer : Lexer) (c : Char) : Option Lexer :=
  let tokens := lexer.tokens
  match lexer.mode with
  | .between => start? tokens c
  | .word seen =>
    if isWordChar c then
      some ⟨tokens, .word (c :: seen)⟩
    else
      match word? seen.reverse with
      | some v => start? (.scalar v :: tokens) c
      | none => none
  | .text seen =>
    if c = '"' then some ⟨.scalar (.string (String.ofList seen.reverse)) :: tokens, .between⟩
    else if c = '\\' then some ⟨tokens, .escaped seen⟩
    else if c.toNat < 0x20 then none
    else some ⟨tokens, .text (c :: seen)⟩
  | .escaped seen =>
    if c = 'u' then some ⟨tokens, .unicode seen 4 0 none⟩
    else (simpleEscape? c).map fun e => ⟨tokens, .text (e :: seen)⟩
  | .unicode seen left value high =>
    match hexValue? c with
    | none => none
    | some d =>
      let value := value * 16 + d
      if left = 1 then (unit? seen value high).map fun mode => ⟨tokens, mode⟩
      else some ⟨tokens, .unicode seen (left - 1) value high⟩
  | .paired seen high => if c = '\\' then some ⟨tokens, .pairedEscape seen high⟩ else none
  | .pairedEscape seen high =>
    if c = 'u' then some ⟨tokens, .unicode seen 4 0 (some high)⟩ else none

/-- Ends the text. -/
def finish (lexer : Lexer) : Option (List Token) :=
  match lexer.mode with
  | .between => some lexer.tokens.reverse
  | .word seen => (word? seen.reverse).map fun v => (.scalar v :: lexer.tokens).reverse
  | _ => none

end Lexer

/-- The tokens of a text. -/
def Token.scan? (text : List Char) : Option (List Token) :=
  (text.foldlM Lexer.step ⟨[], .between⟩).bind Lexer.finish

end Json
end NodeClient
