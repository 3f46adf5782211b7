import NodeClient.Number.Binary64

/-!
# Shortest — the fewest decimal digits that read back

`Binary64.shortest` gives the decimal with the fewest digits among those that round to a given
double, the nearest one where several have that length.  A `Layout` says how the digits are written;
`Layout.render` writes them.
-/

namespace NodeClient

/-- The decimal `digits * 10 ^ exponent`. -/
structure Decimal where
  digits : Nat
  exponent : Int
deriving DecidableEq, Repr

namespace Decimal

/-- The same value without trailing zeros among its digits; at most `fuel` of them are dropped. -/
def trim : Nat → Decimal → Decimal
  | 0, d => d
  | fuel + 1, d =>
    if d.digits ≠ 0 ∧ d.digits % 10 = 0 then trim fuel ⟨d.digits / 10, d.exponent + 1⟩ else d

end Decimal

namespace Binary64

/-- Compares `digits * 10 ^ p` with `quarters * 2 ^ (e - 2)`. -/
def compareGrid (digits : Nat) (p : Int) (quarters : Nat) (e : Int) : Ordering :=
  compare (digits * Nat.pow 10 p.toNat * Nat.pow 2 (2 - e).toNat)
    (quarters * Nat.pow 2 (e - 2).toNat * Nat.pow 10 (-p).toNat)

/-- `quarters * 2 ^ (e - 2)` divided by `10 ^ p`, rounded down. -/
def floorGrid (p : Int) (quarters : Nat) (e : Int) : Nat :=
  quarters * Nat.pow 2 (e - 2).toNat * Nat.pow 10 (-p).toNat /
    (Nat.pow 10 p.toNat * Nat.pow 2 (2 - e).toNat)

/-- The lower end of the reals that round to `x`, in quarters of its last place: closer below a
power of two. -/
def lowerQuarters (x : Binary64) : Nat :=
  if x.mantissa = 0x10000000000000 ∧ x.exponent ≠ -1074 then 4 * x.mantissa - 1
  else 4 * x.mantissa - 2

/-- Whether `digits * 10 ^ p` rounds to the magnitude of `x`; the ends count for an even
mantissa. -/
def readsBack (x : Binary64) (digits : Nat) (p : Int) : Bool :=
  let low := compareGrid digits p x.lowerQuarters x.exponent
  let high := compareGrid digits p (4 * x.mantissa + 2) x.exponent
  if x.mantissa % 2 = 0 then low != .lt && high != .gt else low == .gt && high == .lt

/-- The exponent of the first decimal digit of a nonzero double. -/
def leadingExponent (x : Binary64) : Int :=
  let guess := Int.fdiv ((Int.ofNat x.mantissa.log2 + x.exponent) * 30103) 100000
  if compareGrid 1 guess (4 * x.mantissa) x.exponent == .gt then guess - 1
  else if compareGrid 1 (guess + 1) (4 * x.mantissa) x.exponent != .gt then guess + 1
  else guess

/-- The decimal on the grid of multiples of `10 ^ p` that reads back, if one of the two neighbours
of `x` does; the nearer one, and the even one of two equally near. -/
def onGrid? (x : Binary64) (p : Int) : Option Decimal :=
  let below := floorGrid p (4 * x.mantissa) x.exponent
  let above := below + 1
  match x.readsBack below p, x.readsBack above p with
  | false, false => none
  | true, false => some ⟨below, p⟩
  | false, true => some ⟨above, p⟩
  | true, true =>
    -- twice the value against the sum of the neighbours
    match compareGrid (below + above) p (8 * x.mantissa) x.exponent with
    | .gt => some ⟨below, p⟩
    | .lt => some ⟨above, p⟩
    | .eq => some (if below % 2 = 0 then ⟨below, p⟩ else ⟨above, p⟩)

/-- The shortest decimal that rounds to the magnitude of a nonzero double: of the grids with
1 to 17 digits, the first that has one. -/
def shortest (x : Binary64) : Decimal :=
  let lead := x.leadingExponent
  match (List.range 17).findSome? fun n => x.onGrid? (lead - Int.ofNat n) with
  | some d => d.trim 20
  | none => ⟨x.mantissa, 0⟩

end Binary64

/-- How a decimal is laid out as text. -/
structure Layout where
  /-- The least leading exponent that is written positionally. -/
  least : Int
  /-- The greatest leading exponent that is written positionally. -/
  greatest : Int
  /-- The mark before the exponent. -/
  mark : String
  /-- The sign of a positive exponent. -/
  plus : String
deriving Repr

namespace Layout

/-- The digits written positionally, with at least one digit on each side of the point. -/
def positional (digits : String) (lead : Int) : String :=
  if lead < 0 then
    "0." ++ String.ofList (List.replicate ((-lead).toNat - 1) '0') ++ digits
  else
    let whole := lead.toNat + 1
    let ds := digits.toList
    if ds.length ≤ whole then
      digits ++ String.ofList (List.replicate (whole - ds.length) '0') ++ ".0"
    else
      String.ofList (ds.take whole) ++ "." ++ String.ofList (ds.drop whole)

/-- The digits with one of them before the point, and the exponent. -/
def scientific (layout : Layout) (digits : String) (lead : Int) : String :=
  let ds := digits.toList
  let fraction := ds.drop 1
  let point := if fraction.isEmpty then "" else "."
  let sign := if lead < 0 then "-" else layout.plus
  String.ofList (ds.take 1) ++ point ++ String.ofList fraction ++ layout.mark ++ sign ++
    toString lead.natAbs

/-- The text of a double. -/
def render (layout : Layout) (x : Binary64) : String :=
  let sign := if x.negative then "-" else ""
  if x.isZero then
    sign ++ "0.0"
  else
    let d := x.shortest
    let digits := toString d.digits
    let lead := d.exponent + Int.ofNat digits.length - 1
    if layout.least ≤ lead ∧ lead ≤ layout.greatest then
      sign ++ positional digits lead
    else
      sign ++ layout.scientific digits lead

end Layout
end NodeClient
