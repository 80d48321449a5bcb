import MeshNode.Decimal

/-!
# Shortest decimals

The decimal text of a double has the fewest digits that read back as the same double, and of those
with that many digits the ones nearest to its value.

A finite double is `m · 2 ^ q` with natural `m` and integral `q`. The reals that round to it form
an interval around that value whose ends belong to it exactly when `m` is even. The decimals with
`k` digits near the value form a grid, and if the interval holds any point of the grid it holds one
of the two that enclose the value. So the search tries the grids of one digit, two digits and so
forth, up to seventeen, which always suffice.
-/

namespace MeshNode.Decimal

/-- A positive finite double `mantissa · 2 ^ exponent`. -/
structure Dyadic where
  mantissa : Nat
  exponent : Int
  /-- Whether the double below is only half as far away as the one above. -/
  narrowBelow : Bool
  deriving DecidableEq, Repr

/-- A decimal `digits · 10 ^ exponent`. -/
structure Scientific where
  digits : Nat
  exponent : Int
  deriving DecidableEq, Repr

/-- The absolute value of the finite double with the given bits, or nothing for zero. -/
def Dyadic.ofBits? (bits : UInt64) : Option Dyadic :=
  let fraction : Nat := bits.toNat % 0x10000000000000
  let biased : Nat := bits.toNat / 0x10000000000000 % 2048
  if biased = 0 then
    if fraction = 0 then none else some ⟨fraction, -1074, false⟩
  else some ⟨0x10000000000000 + fraction, (biased : Int) - 1075, fraction = 0 && 1 < biased⟩

/-- A nonnegative rational as a fraction. -/
structure Fraction where
  num : Nat
  den : Nat

/-- `n · 2 ^ e` as a fraction. -/
def Fraction.ofDyadic (n : Nat) (e : Int) : Fraction :=
  if 0 ≤ e then ⟨n * Nat.pow 2 e.toNat, 1⟩ else ⟨n, Nat.pow 2 (-e).toNat⟩

/-- The fraction divided by `10 ^ e`. -/
def Fraction.shift (f : Fraction) (e : Int) : Fraction :=
  if 0 ≤ e then ⟨f.num, f.den * Nat.pow 10 e.toNat⟩ else ⟨f.num * Nat.pow 10 (-e).toNat, f.den⟩

/-- The exponent of the leading decimal digit of a positive fraction. -/
def Fraction.magnitude (f : Fraction) : Int :=
  if f.den ≤ f.num then ((Nat.toDigits 10 (f.num / f.den)).length : Int) - 1
  else
    -- the least `k` with `den ≤ num · 10 ^ k` is the number of digits of `(den - 1) / num`
    -((Nat.toDigits 10 ((f.den - 1) / f.num)).length : Int)

/-- Whether the decimal `d · 10 ^ e` rounds to the double. -/
def Dyadic.admits (v : Dyadic) (d : Nat) (e : Int) : Bool :=
  -- four times the value and its half-way neighbours, as fractions over one grid step
  let low := (Fraction.ofDyadic (4 * v.mantissa - if v.narrowBelow then 1 else 2)
    (v.exponent - 2)).shift e
  let high := (Fraction.ofDyadic (4 * v.mantissa + 2) (v.exponent - 2)).shift e
  if v.mantissa % 2 = 0 then low.num ≤ d * low.den && d * high.den ≤ high.num
  else low.num < d * low.den && d * high.den < high.num

/-- The point of the grid of step `10 ^ e` that stands for the double, if one does: of the two
points that enclose its value the nearer one that rounds to it, the even one of two equally near. -/
def Dyadic.onGrid? (v : Dyadic) (e : Int) : Option Nat :=
  let f := (Fraction.ofDyadic v.mantissa v.exponent).shift e
  let below := f.num / f.den
  let rest := f.num % f.den
  let above := below + 1
  match v.admits below e && 0 < below, v.admits above e with
  | true, true =>
    if 2 * rest < f.den then some below
    else if f.den < 2 * rest then some above
    else some (if below % 2 = 0 then below else above)
  | true, false => some below
  | false, true => some above
  | false, false => none

/-- Tries the grids from `17 - tries` digits on. -/
private def searchGrids (v : Dyadic) (magnitude : Int) : Nat → Scientific
  | 0 => ⟨0, 0⟩
  | tries + 1 =>
    let e := magnitude - (17 - (tries + 1) : Nat)
    match v.onGrid? e with
    | some d => ⟨d, e⟩
    | none => searchGrids v magnitude tries

/-- The shortest decimal that reads back as the double, nearest to its value. -/
def Dyadic.shortest (v : Dyadic) : Scientific :=
  searchGrids v (Fraction.ofDyadic v.mantissa v.exponent).magnitude 17

/-- The decimal without trailing zeros in its digits. -/
def Scientific.strip (s : Scientific) : Scientific :=
  if h : s.digits ≠ 0 ∧ s.digits % 10 = 0 then strip ⟨s.digits / 10, s.exponent + 1⟩ else s
termination_by s.digits
decreasing_by exact Nat.div_lt_self (Nat.pos_of_ne_zero h.1) (by decide)

end MeshNode.Decimal
