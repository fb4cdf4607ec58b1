/-! Written numbers: integers with an optional sign, and decimal numerals with an optional point
and exponent, or the words for infinity and for a value that is no number. Only ASCII digits
count. -/
namespace InlineCache.Decimal

/-- Splits an optional sign off; `true` stands for a minus. -/
def takeSign : List Char → Bool × List Char
  | '-' :: r => (true, r)
  | '+' :: r => (false, r)
  | r => (false, r)

/-- The number written by ASCII digits, the most significant first. -/
def natOfDigits (ds : List Char) : Nat := ds.foldl (fun n d => 10 * n + (d.toNat - 48)) 0

/-- One or more ASCII digits and nothing else. -/
def isDigits (ds : List Char) : Bool := !ds.isEmpty && ds.all Char.isDigit

/-- An integer: an optional sign and one or more digits, without a bound. -/
def intOfChars? (cs : List Char) : Option Int :=
  let (negative, ds) := takeSign cs
  if isDigits ds then some (if negative then -(natOfDigits ds : Int) else natOfDigits ds) else none

/-- Whether an integer fits into 64 bits with a sign. -/
def fitsSigned (i : Int) : Bool := -0x8000000000000000 ≤ i && i < 0x8000000000000000

/-- Whether a number fits into 64 bits without a sign. -/
def fitsUnsigned (n : Nat) : Bool := n < 0x10000000000000000

/-- What a decimal numeral says before it is rounded. -/
inductive Numeral where
  | number (negative : Bool) (digits : Nat) (exponent : Int)
  | infinity (negative : Bool)
  | nan (negative : Bool)
  deriving DecidableEq, Repr

/-- The exponent part: nothing, or `e` with an integer. -/
def exponentOfChars? : List Char → Option Int
  | [] => some 0
  | c :: r => if c = 'e' ∨ c = 'E' then intOfChars? r else none

/-- A numeral without its sign: digits with an optional point, at least one digit in all, and an
optional exponent. -/
def numberOfChars? (negative : Bool) (cs : List Char) : Option Numeral :=
  let whole := cs.takeWhile Char.isDigit
  let rest := cs.dropWhile Char.isDigit
  let (fraction, tail) := match rest with
    | '.' :: r => (r.takeWhile Char.isDigit, r.dropWhile Char.isDigit)
    | r => ([], r)
  if whole.isEmpty && fraction.isEmpty then none
  else (exponentOfChars? tail).map fun e =>
    .number negative (natOfDigits (whole ++ fraction)) (e - fraction.length)

/-- Reads a numeral; the words `inf`, `infinity` and `nan` are read in any case. -/
def Numeral.ofChars? (cs : List Char) : Option Numeral :=
  let (negative, r) := takeSign cs
  let word := r.map Char.toLower
  if word = ['i', 'n', 'f'] ∨ word = ['i', 'n', 'f', 'i', 'n', 'i', 't', 'y'] then
    some (.infinity negative)
  else if word = ['n', 'a', 'n'] then some (.nan negative)
  else numberOfChars? negative r

/-- The double nearest to `digits · 10 ^ exponent`. Sizes far outside the range of doubles are
answered without computing the power. -/
def magnitude (digits : Nat) (exponent : Int) : Float :=
  let size := ((Nat.toDigits 10 digits).length : Int) + exponent
  if digits = 0 ∨ size < -400 then 0.0
  else if 400 < size then 1.0 / 0.0
  else Float.ofScientific digits (exponent < 0) exponent.natAbs

/-- The double that a numeral stands for. -/
def Numeral.toFloat : Numeral → Float
  | number negative digits exponent =>
    if negative then -(magnitude digits exponent) else magnitude digits exponent
  | infinity negative => if negative then -1.0 / 0.0 else 1.0 / 0.0
  | nan _ => 0.0 / 0.0

/-- Reads a decimal numeral as a double. -/
def floatOfChars? (cs : List Char) : Option Float := (Numeral.ofChars? cs).map Numeral.toFloat

example : intOfChars? ['-', '0', '7'] = some (-7) ∧ intOfChars? ['+'] = none := by decide
example : Numeral.ofChars? "-12.50e-3".toList = some (.number true 1250 (-5)) := by decide
example : Numeral.ofChars? ".5".toList = some (.number false 5 (-1)) := by decide
example : Numeral.ofChars? ".".toList = none ∧ Numeral.ofChars? "1e".toList = none := by decide

end InlineCache.Decimal
