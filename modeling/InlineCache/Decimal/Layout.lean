import InlineCache.Decimal.Shortest

/-! How a double is laid out as text once its shortest decimal is known. What differs between the
outputs of this library is one `Format` value. -/
namespace InlineCache.Decimal

/-- The choices of one output. `positionalAt e` tells whether a number of decimal exponent `e` is
written without an exponent, `tie` which of two equally near shortest decimals is taken, and
`wholePoint` whether a positional whole number is followed by `.0`. -/
structure Format where
  tie : Tie
  positionalAt : Int → Bool
  wholePoint : Bool

/-- Digits without trailing zeros, and the place of the point counted from the left of them. -/
def Scientific.figures (x : Scientific) : List Char × Int :=
  let ds := Nat.toDigits 10 x.digits
  ((ds.reverse.dropWhile (· == '0')).reverse, ds.length + x.exponent)

/-- Digits with the point at a place, without an exponent. -/
def positional (wholePoint : Bool) (ds : List Char) (point : Int) : List Char :=
  if point ≤ 0 then ['0', '.'] ++ List.replicate (-point).toNat '0' ++ ds
  else if ds.length ≤ point.toNat then
    ds ++ List.replicate (point.toNat - ds.length) '0' ++ (if wholePoint then ['.', '0'] else [])
  else ds.take point.toNat ++ ['.'] ++ ds.drop point.toNat

/-- Digits with the point after the first one, and an exponent whose sign is always written. -/
def scientific (ds : List Char) (point : Int) : List Char :=
  let exponent := point - 1
  ds.take 1 ++ (if ds.length ≤ 1 then [] else '.' :: ds.drop 1) ++ ['e'] ++
    [if exponent < 0 then '-' else '+'] ++ Nat.toDigits 10 exponent.natAbs

/-- The text of a double that is neither infinite nor undefined; `none` for one that is. -/
def Format.write? (f : Format) (x : Float) : Option (List Char) :=
  let bits := DoubleBits.ofNat x.toBits.toNat
  let sign := if bits.negative then ['-'] else []
  match Rounding.ofBits? bits with
  | some r =>
    let (ds, point) := (shortest f.tie r).figures
    some (sign ++ if f.positionalAt (point - 1) then positional f.wholePoint ds point
      else scientific ds point)
  | none =>
    if bits.isFinite then some (sign ++ ['0'] ++ if f.wholePoint then ['.', '0'] else [])
    else none

example : positional false ['1', '5'] 4 = ['1', '5', '0', '0'] := by decide
example : positional false ['1', '5'] (-1) = ['0', '.', '0', '1', '5'] := by decide
example : scientific ['1', '5'] (-6) = ['1', '.', '5', 'e', '-', '7'] := by decide

end InlineCache.Decimal
