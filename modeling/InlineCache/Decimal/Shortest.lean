/-! The shortest decimal that reads back to a given double. A double stands for all reals that
round to it; on each decimal grid only the two neighbours of its value matter, so the first grid
that has one of them in that interval gives the shortest decimal, and the nearer one is taken. -/
namespace InlineCache.Decimal

/-- The number `digits · 10 ^ exponent`. -/
structure Scientific where
  digits : Nat
  exponent : Int
  deriving DecidableEq, Repr

/-- Which of two equally near decimals is taken. -/
inductive Tie where
  | up
  | toEven
  deriving DecidableEq, Repr

/-- A positive value with the ends of the interval that rounds to it, all over one denominator.
`closed` tells whether the ends belong to the interval. -/
structure Rounding where
  low : Nat
  value : Nat
  high : Nat
  denominator : Nat
  closed : Bool
  deriving DecidableEq, Repr

/-- The interval of a binary number `mantissa · 2 ^ exponent`. The number below is only half as
far away when the mantissa is the first of its binade. -/
def Rounding.ofBinary (mantissa : Nat) (exponent : Int) (first : Bool) : Rounding :=
  let scale := Nat.pow 2 (exponent - 2).toNat
  { low := (4 * mantissa - if first then 1 else 2) * scale
    value := 4 * mantissa * scale
    high := (4 * mantissa + 2) * scale
    denominator := Nat.pow 2 (2 - exponent).toNat
    closed := mantissa % 2 == 0 }

/-- The bits of a double, taken apart: its sign, the eleven bits of its exponent and the fifty-two
bits of its fraction. -/
structure DoubleBits where
  negative : Bool
  exponent : Nat
  fraction : Nat
  deriving DecidableEq, Repr

/-- Takes the sixty-four bits of a double apart. -/
def DoubleBits.ofNat (bits : Nat) : DoubleBits :=
  { negative := 0x8000000000000000 ≤ bits
    exponent := bits / 0x10000000000000 % 0x800
    fraction := bits % 0x10000000000000 }

/-- Whether the bits stand for a number that is neither infinite nor undefined. -/
def DoubleBits.isFinite (b : DoubleBits) : Bool := b.exponent != 0x7FF

/-- The interval of a double, its sign left out; `none` for zero, infinities and values that are no
numbers. -/
def Rounding.ofBits? (b : DoubleBits) : Option Rounding :=
  if !b.isFinite then none
  else if b.exponent = 0 then
    if b.fraction = 0 then none else some (.ofBinary b.fraction (-1074) false)
  else some (.ofBinary (0x10000000000000 + b.fraction) ((b.exponent : Int) - 1075)
    (b.fraction == 0 && b.exponent != 1))

namespace Rounding

/-- The decimal exponent `e` with `10 ^ e ≤ value < 10 ^ (e + 1)`. -/
def magnitude (r : Rounding) : Int :=
  if r.denominator ≤ r.value then ((Nat.toDigits 10 (r.value / r.denominator)).length : Int) - 1
  else
    let k := (Nat.toDigits 10 (r.denominator / r.value)).length
    if r.denominator ≤ r.value * Nat.pow 10 (k - 1) then -((k - 1 : Nat) : Int) else -(k : Int)

/-- The ends and the value in units of `10 ^ p / denominator`, and the length of a grid step. -/
def onGrid (r : Rounding) (p : Int) : Rounding × Nat :=
  let s := Nat.pow 10 (-p).toNat
  ({ r with low := r.low * s, value := r.value * s, high := r.high * s },
    r.denominator * Nat.pow 10 p.toNat)

def contains (r : Rounding) (x : Nat) : Bool :=
  if r.closed then r.low ≤ x && x ≤ r.high else r.low < x && x < r.high

/-- The grid point of step `10 ^ p` inside the interval that is nearest to the value. -/
def nearest? (r : Rounding) (tie : Tie) (p : Int) : Option Nat :=
  let (g, step) := r.onGrid p
  let d := g.value / step
  let below := g.contains (d * step)
  let above := g.contains ((d + 1) * step)
  let upper := match compare (2 * g.value) ((2 * d + 1) * step), tie with
    | .lt, _ => false
    | .gt, _ => true
    | .eq, .up => true
    | .eq, .toEven => d % 2 == 1
  match below, above with
  | true, true => some (if upper then d + 1 else d)
  | true, false => some d
  | false, true => some (d + 1)
  | false, false => none

end Rounding

/-- The shortest decimal in the interval, the nearest of these; seventeen digits always suffice.
Its digits end in a zero only where the one-digit grid gave ten. -/
def shortest (tie : Tie) (r : Rounding) : Scientific :=
  let e := r.magnitude
  let hit := (List.range 17).findSome? fun (i : Nat) =>
    (r.nearest? tie (e - i)).map fun d => ⟨d, e - i⟩
  hit.getD ⟨r.value / r.denominator, 0⟩

example : (Rounding.ofBits? (.ofNat 0x3FB999999999999A)).map (shortest .up) = some ⟨1, -1⟩ := by
  decide +kernel
example : (Rounding.ofBits? (.ofNat 1)).map (shortest .up) = some ⟨5, -324⟩ := by decide +kernel
example : (Rounding.ofBits? (.ofNat 0x3E60000000000000)).map (shortest .up) =
    some ⟨29802322387695313, -24⟩ := by decide +kernel
example : (Rounding.ofBits? (.ofNat 0x3E60000000000000)).map (shortest .toEven) =
    some ⟨29802322387695312, -24⟩ := by decide +kernel

end InlineCache.Decimal
