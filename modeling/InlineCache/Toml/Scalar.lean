import InlineCache.Decimal.Numeral
import InlineCache.Toml.Text
import InlineCache.Toml.Value

/-! Numbers, truth values, dates and times. Digits may be grouped by underscores that stand between
two digits; a decimal integer has no leading zero. -/
namespace InlineCache.Toml

open Reader

/-- The digits of a run in which an underscore may stand before a digit. -/
def grouped (p : Char → Bool) : List Char → List Char × List Char
  | '_' :: c :: r =>
    if p c then
      let (ds, rest) := grouped p r
      (c :: ds, rest)
    else ([], '_' :: c :: r)
  | c :: r =>
    if p c then
      let (ds, rest) := grouped p r
      (c :: ds, rest)
    else ([], c :: r)
  | [] => ([], [])

/-- One or more digits, perhaps grouped. -/
def digits (p : Char → Bool) : Reader (List Char) := do
  let c ← one p
  let r ← fun cs => some (grouped p cs)
  pure (c :: r)

/-- An optional sign; `true` stands for a minus. -/
def sign : Reader Bool := fun cs => some (Decimal.takeSign cs)

/-- A decimal integer without a bound, as its sign and its digits. -/
def decimal : Reader (Bool × List Char) := do
  let negative ← sign
  let ds ← (do
      let c ← one fun c => '1' ≤ c && c ≤ '9'
      let r ← fun cs => some (grouped Char.isDigit cs)
      pure (c :: r)) <|> (do pure [← one Char.isDigit])
  pure (negative, ds)

/-- The number written by digits of a base. -/
def natOfBase (base : Nat) (ds : List Char) : Nat :=
  ds.foldl (fun n d => base * n + (hexValue? d).getD 0) 0

/-- An integer in another base, behind a zero and a letter, without a sign. -/
def based (letter : Char) (base : Nat) : Reader Int := do
  word ['0', letter]
  let ds ← digits fun c => (hexValue? c).any fun v => v < base
  pure (natOfBase base ds)

/-- An integer that fits into 64 bits. -/
def integer : Reader Int := do
  let i ← based 'x' 16 <|> based 'o' 8 <|> based 'b' 2 <|> (do
    let (negative, ds) ← decimal
    let n : Int := Decimal.natOfDigits ds
    pure (if negative then -n else n))
  if Decimal.fitsSigned i then pure i else fail

def exponent : Reader Int := do
  let _ ← one fun c => c == 'e' || c == 'E'
  let negative ← sign
  let n : Int := Decimal.natOfDigits (← digits Char.isDigit)
  pure (if negative then -n else n)

/-- A float with a fraction, an exponent or both; one that is too large is refused. -/
def finiteFloat : Reader Float := do
  let (negative, whole) ← decimal
  let number (fraction : List Char) (e : Int) : Decimal.Numeral :=
    .number negative (Decimal.natOfDigits (whole ++ fraction)) (e - fraction.length)
  let n ← (do pure (number [] (← exponent))) <|> (do
    char '.'
    let fraction ← digits Char.isDigit
    let e ← optional exponent
    pure (number fraction (e.getD 0)))
  let x := n.toFloat
  if x.isInf && !negative then fail else pure x

/-- A float: finite, infinite or undefined. -/
def float : Reader Float := finiteFloat <|> (do
  let negative ← sign
  (do
    word ['i', 'n', 'f']
    pure (Decimal.Numeral.infinity negative).toFloat) <|> (do
    word ['n', 'a', 'n']
    pure (Decimal.Numeral.nan negative).toFloat))

/-- Exactly `n` digits whose number lies between two bounds. -/
def fixed (n low high : Nat) : Reader Nat := fun cs =>
  let ds := cs.take n
  let v := Decimal.natOfDigits ds
  if ds.length = n ∧ ds.all Char.isDigit ∧ low ≤ v ∧ v ≤ high then some (v, cs.drop n) else none

def daysOfMonth (year month : Nat) : Nat :=
  if month = 2 then
    if year % 4 = 0 ∧ (year % 100 ≠ 0 ∨ year % 400 = 0) then 29 else 28
  else if month = 4 ∨ month = 6 ∨ month = 9 ∨ month = 11 then 30
  else 31

/-- A date that exists. -/
def date : Reader Unit := do
  let year ← fixed 4 0 9999
  char '-'
  let month ← fixed 2 1 12
  char '-'
  let _ ← fixed 2 1 (daysOfMonth year month)
  pure ()

/-- A time of day, which may be a leap second. -/
def time : Reader Unit := do
  let _ ← fixed 2 0 23
  char ':'
  let _ ← fixed 2 0 59
  char ':'
  let _ ← fixed 2 0 60
  let _ ← optional (do
    char '.'
    run1 Char.isDigit)
  pure ()

/-- A distance from universal time. -/
def offset : Reader Unit :=
  (do
    let _ ← one fun c => c == 'Z' || c == 'z'
    pure ()) <|> (do
    let _ ← one fun c => c == '+' || c == '-'
    let _ ← fixed 2 0 23
    char ':'
    let _ ← fixed 2 0 59
    pure ())

/-- A date, a time, or both with an optional offset; gives the text it took. -/
def datetime : Reader String := fun cs =>
  let both : Reader Unit := do
    let _ ← one fun c => c == 'T' || c == 't' || c == ' '
    time
    let _ ← optional offset
    pure ()
  let any : Reader Unit := (do
    date
    let _ ← optional both
    pure ()) <|> time
  (any cs).map fun (_, rest) => (String.ofList (cs.take (cs.length - rest.length)), rest)

def boolean : Reader Bool :=
  (do
    word ['t', 'r', 'u', 'e']
    pure true) <|> (do
    word ['f', 'a', 'l', 's', 'e']
    pure false)

/-- A value that holds no other values. A text that begins like a date is tried as one first, then
as a float, then as an integer. -/
def scalar : Reader Value :=
  (do pure (.string (String.ofList (← anyString)))) <|> (do pure (.datetime (← datetime))) <|>
    (do pure (.float (← float))) <|> (do pure (.integer (← integer))) <|>
    (do pure (.boolean (← boolean)))

example : (integer "0x1F,".toList) = some (31, [',']) := by decide +kernel
example : (integer "1__0".toList) = some (1, ['_', '_', '0']) := by decide +kernel
example : (datetime "2023-02-29".toList) = none := by decide +kernel
example : (datetime "07:32:00.5]".toList) = some ("07:32:00.5", [']']) := by decide +kernel

end InlineCache.Toml
