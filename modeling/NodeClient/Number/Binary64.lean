/-!
# Binary64 — finite double-precision numbers as exact values

A finite double is a sign, a mantissa below `2^53` and a power of two.  Everything is exact
arithmetic on naturals: `round` takes a quotient to the nearest double, and `mul` and `quot` are the
exact product and quotient, rounded once.  `ofDecimal` reads a decimal the way a reader with a
64-bit significand does, in two roundings.
-/

namespace NodeClient

/-- The finite double `± mantissa * 2 ^ exponent`, written with the least exponent that 53 bits
allow. -/
structure Binary64 where
  negative : Bool
  mantissa : Nat
  exponent : Int
  mantissa_lt : mantissa < 0x20000000000000
  exponent_ge : -1074 ≤ exponent
  exponent_le : exponent ≤ 971
  normal : exponent = -1074 ∨ 0x10000000000000 ≤ mantissa
deriving DecidableEq

namespace Binary64

/-- Positive zero. -/
def zero : Binary64 where
  negative := false
  mantissa := 0
  exponent := -1074
  mantissa_lt := by decide
  exponent_ge := by decide
  exponent_le := by decide
  normal := .inl rfl

instance : Inhabited Binary64 := ⟨zero⟩

/-- The double with these parts, if they are those of a finite double in its written form. -/
def ofParts? (negative : Bool) (mantissa : Nat) (exponent : Int) : Option Binary64 :=
  if h : mantissa < 0x20000000000000 ∧ -1074 ≤ exponent ∧ exponent ≤ 971 ∧
      (exponent = -1074 ∨ 0x10000000000000 ≤ mantissa) then
    some ⟨negative, mantissa, exponent, h.1, h.2.1, h.2.2.1, h.2.2.2⟩
  else
    none

/-- Zero of either sign. -/
def isZero (x : Binary64) : Bool :=
  x.mantissa == 0

/-- The same number with the other sign. -/
def neg (x : Binary64) : Binary64 :=
  { x with negative := !x.negative }

/-- Equality of the numbers: the two zeros are equal. -/
def same (x y : Binary64) : Bool :=
  x.mantissa == y.mantissa && x.exponent == y.exponent &&
    (x.negative == y.negative || x.isZero)

/-- The natural nearest to `num / den`, a tie going to the even one. -/
def nearestEven (num den : Nat) : Nat :=
  let quotient := num / den
  let twice := 2 * (num % den)
  if twice < den then quotient
  else if den < twice then quotient + 1
  else if quotient % 2 = 0 then quotient else quotient + 1

/-- The double nearest to `num / den`, a tie going to the even mantissa; none beyond the range. -/
def round (num den : Nat) : Option Binary64 :=
  if num = 0 then
    some zero
  else
    let upper (e : Int) : Nat := num * Nat.pow 2 (-e).toNat
    let lower (e : Int) : Nat := den * Nat.pow 2 e.toNat
    let guess : Int := max (Int.ofNat num.log2 - Int.ofNat den.log2 - 53) (-1074)
    let e := if upper guess / lower guess < 0x20000000000000 then guess else guess + 1
    let m := nearestEven (upper e) (lower e)
    if m = 0x20000000000000 then ofParts? false 0x10000000000000 (e + 1) else ofParts? false m e

/-- The double nearest to a natural. -/
def ofNat? (n : Nat) : Option Binary64 :=
  round n 1

/-- The product, rounded; both factors count as positive. -/
def mul (x y : Binary64) : Option Binary64 :=
  let e := x.exponent + y.exponent
  round (x.mantissa * y.mantissa * Nat.pow 2 e.toNat) (Nat.pow 2 (-e).toNat)

/-- The quotient, rounded; both operands count as positive. -/
def quot (x y : Binary64) : Option Binary64 :=
  let e := x.exponent - y.exponent
  round (x.mantissa * Nat.pow 2 e.toNat) (y.mantissa * Nat.pow 2 (-e).toNat)

/-- The double nearest to `10 ^ k`, for `k` up to 308. -/
def tenPow (k : Nat) : Binary64 :=
  (ofNat? (Nat.pow 10 k)).getD zero

/-- Divides by `10 ^ k`, at most `10 ^ 308` at a time. -/
def divTenPow (x : Binary64) (k : Nat) : Option Binary64 :=
  if k ≤ 308 then
    x.quot (tenPow k)
  else if x.isZero then
    some x
  else
    match x.quot (tenPow 308) with
    | some y => divTenPow y (k - 308)
    | none => none
termination_by k

/-- Multiplies by `10 ^ k`; none beyond the range. -/
def mulTenPow (x : Binary64) (k : Nat) : Option Binary64 :=
  if k ≤ 308 then x.mul (tenPow k)
  else if x.isZero then some x
  else none

/-- `significand * 10 ^ exponent`: the significand is rounded, then scaled by a rounded power of
ten.  The result can be one unit in the last place away from the nearest double. -/
def ofDecimal (significand : Nat) (exponent : Int) : Option Binary64 :=
  match ofNat? significand with
  | none => none
  | some x =>
    if 0 ≤ exponent then x.mulTenPow exponent.toNat else x.divTenPow (-exponent).toNat

end Binary64
end NodeClient
