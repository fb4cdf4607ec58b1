import Mathlib.Data.Nat.Digits.Defs
import InlineCache.Decimal.Numeral

/-! The grammar of written numbers, given by their texts and not by a reader: an integer is an optional
sign and digits, a decimal numeral an optional sign, digits with an optional point and an optional
exponent, or one of three words in any case. The readers accept exactly these texts, and take from a
text what its digits are worth in their places. -/
namespace InlineCache.Decimal

/-- An optional sign. -/
inductive Sign : List Char → Bool → Prop
  | none : Sign [] false
  | plus : Sign ['+'] false
  | minus : Sign ['-'] true

/-- ASCII digits, or no text at all. -/
def Digits (ds : List Char) : Prop := ∀ d ∈ ds, d.isDigit = true

/-- What digits are worth: the last one counts once, the one before it ten times. -/
def placeValue (ds : List Char) : Nat := Nat.ofDigits 10 (ds.reverse.map fun d => d.toNat - 48)

/-- An integer: an optional sign and one or more digits. -/
inductive IntegerText : List Char → Int → Prop
  | intro {sign ds : List Char} {negative : Bool} (signed : Sign sign negative) (digits : Digits ds)
      (nonempty : ds ≠ []) :
      IntegerText (sign ++ ds) (if negative then -(placeValue ds : Int) else placeValue ds)

/-- An optional exponent: the letter `e` in either case and an integer. -/
inductive ExponentText : List Char → Int → Prop
  | none : ExponentText [] 0
  | some {c : Char} {cs : List Char} {e : Int} (letter : c = 'e' ∨ c = 'E') (value : IntegerText cs e) :
      ExponentText (c :: cs) e

/-- Digits with an optional point, at least one digit in all: a text with its digits before the point
and those behind it. -/
inductive MantissaText : List Char → List Char → List Char → Prop
  | whole {whole : List Char} (digits : Digits whole) (nonempty : whole ≠ []) :
      MantissaText whole whole []
  | point {whole fraction : List Char} (digits : Digits whole) (digits' : Digits fraction)
      (nonempty : whole ≠ [] ∨ fraction ≠ []) :
      MantissaText (whole ++ '.' :: fraction) whole fraction

/-- A decimal numeral with what it says. -/
inductive NumeralText : List Char → Numeral → Prop
  | infinity {sign word : List Char} {negative : Bool} (signed : Sign sign negative)
      (anyCase : word.map Char.toLower = ['i', 'n', 'f'] ∨
        word.map Char.toLower = ['i', 'n', 'f', 'i', 'n', 'i', 't', 'y']) :
      NumeralText (sign ++ word) (.infinity negative)
  | nan {sign word : List Char} {negative : Bool} (signed : Sign sign negative)
      (anyCase : word.map Char.toLower = ['n', 'a', 'n']) : NumeralText (sign ++ word) (.nan negative)
  | number {sign mantissa whole fraction tail : List Char} {negative : Bool} {e : Int}
      (signed : Sign sign negative) (digits : MantissaText mantissa whole fraction)
      (exponent : ExponentText tail e) :
      NumeralText (sign ++ (mantissa ++ tail))
        (.number negative (placeValue (whole ++ fraction)) (e - fraction.length))

section Spans

variable {α : Type} {p : α → Bool}

/-- A list is a part of which something holds, up to where it does not hold. -/
theorem exists_span (p : α → Bool) (l : List α) :
    ∃ before after, l = before ++ after ∧ (∀ a ∈ before, p a = true) ∧
      ∀ a ∈ after.head?, p a = false := by
  refine ⟨l.takeWhile p, l.dropWhile p, List.takeWhile_append_dropWhile.symm, ?_, ?_⟩
  · exact List.all_eq_true.mp List.all_takeWhile
  · intro a ha
    have hnot := List.head?_dropWhile_not p l
    rw [ha] at hnot
    exact hnot

theorem takeWhile_span {before after : List α} (hbefore : ∀ a ∈ before, p a = true)
    (hafter : ∀ a ∈ after.head?, p a = false) : (before ++ after).takeWhile p = before := by
  rw [List.takeWhile_append_of_pos hbefore]
  cases after with
  | nil => simp
  | cons a rest => simp [hafter a (by simp)]

theorem dropWhile_span {before after : List α} (hbefore : ∀ a ∈ before, p a = true)
    (hafter : ∀ a ∈ after.head?, p a = false) : (before ++ after).dropWhile p = after := by
  rw [List.dropWhile_append_of_pos hbefore]
  cases after with
  | nil => rfl
  | cons a rest => simp [hafter a (by simp)]

end Spans

section Integers

theorem natOfDigits_eq (ds : List Char) : natOfDigits ds = placeValue ds := by
  rw [natOfDigits, placeValue, Nat.ofDigits_eq_foldr, List.foldl_eq_foldr_reverse, List.foldr_map]
  refine congrArg (fun f => List.foldr f 0 ds.reverse) ?_
  funext d n
  exact Nat.add_comm _ _

theorem isDigits_iff {ds : List Char} : isDigits ds = true ↔ Digits ds ∧ ds ≠ [] := by
  rw [isDigits, Bool.and_eq_true, List.all_eq_true, and_comm]
  cases ds <;> simp [Digits]

theorem exists_sign (cs : List Char) :
    ∃ sign rest negative, cs = sign ++ rest ∧ Sign sign negative ∧ takeSign cs = (negative, rest) := by
  unfold takeSign
  split
  · exact ⟨['-'], _, true, rfl, .minus, rfl⟩
  · exact ⟨['+'], _, false, rfl, .plus, rfl⟩
  · exact ⟨[], _, false, rfl, .none, rfl⟩

/-- A sign is taken off a text that goes on with another character. -/
theorem takeSign_append {sign rest : List Char} {negative : Bool} (h : Sign sign negative)
    (hrest : ∀ c ∈ rest.head?, c ≠ '-' ∧ c ≠ '+') : takeSign (sign ++ rest) = (negative, rest) := by
  cases h with
  | plus => rfl
  | minus => rfl
  | none =>
    unfold takeSign
    split
    · exact absurd rfl (hrest '-' (by simp_all)).1
    · exact absurd rfl (hrest '+' (by simp_all)).2
    · rfl

theorem not_sign_of_isDigit {c : Char} (h : c.isDigit = true) : c ≠ '-' ∧ c ≠ '+' := by
  constructor <;> rintro rfl <;> simp at h

/-- The reader of integers accepts exactly the integers. -/
theorem intOfChars?_eq_some {cs : List Char} {i : Int} :
    intOfChars? cs = some i ↔ IntegerText cs i := by
  constructor
  · intro h
    obtain ⟨sign, ds, negative, rfl, hsign, htake⟩ := exists_sign cs
    rw [intOfChars?, htake] at h
    by_cases hds : isDigits ds = true
    · obtain ⟨hdigits, hsome⟩ := isDigits_iff.mp hds
      simp only [hds, if_true, natOfDigits_eq, Option.some.injEq] at h
      rw [← h]
      exact .intro hsign hdigits hsome
    · simp [hds] at h
  · rintro ⟨hsign, hdigits, hsome⟩
    rename_i sign ds negative
    have htake : takeSign (sign ++ ds) = (negative, ds) := by
      refine takeSign_append hsign fun c hc => not_sign_of_isDigit (hdigits c ?_)
      exact List.mem_of_mem_head? hc
    have hds : isDigits ds = true := isDigits_iff.mpr ⟨hdigits, hsome⟩
    simp [intOfChars?, htake, hds, natOfDigits_eq]

end Integers

section Numerals

theorem exponentOfChars?_eq_some {cs : List Char} {e : Int} :
    exponentOfChars? cs = some e ↔ ExponentText cs e := by
  constructor
  · intro h
    cases cs with
    | nil =>
      obtain rfl := Option.some.inj h
      exact .none
    | cons c r =>
      rw [exponentOfChars?] at h
      split at h
      · rename_i hc
        exact .some hc (intOfChars?_eq_some.mp h)
      · cases h
  · intro h
    cases h with
    | none => rfl
    | some hc hvalue =>
      rw [exponentOfChars?, if_pos hc]
      exact intOfChars?_eq_some.mpr hvalue

theorem ExponentText.head {cs : List Char} {e : Int} (h : ExponentText cs e) :
    ∀ c ∈ cs.head?, c = 'e' ∨ c = 'E' := by
  cases h with
  | none => simp
  | some hc _ => simpa using hc

/-- Digits without a point behind them are the whole mantissa. -/
theorem numberOfChars?_whole (negative : Bool) {whole tail : List Char} (hw : Digits whole)
    (ht : ∀ c ∈ tail.head?, c.isDigit = false ∧ c ≠ '.') :
    numberOfChars? negative (whole ++ tail) =
      if whole = [] then none
      else (exponentOfChars? tail).map fun e => .number negative (placeValue whole) e := by
  have htail : ∀ c ∈ tail.head?, c.isDigit = false := fun c hc => (ht c hc).1
  rw [numberOfChars?, takeWhile_span hw htail, dropWhile_span hw htail]
  split
  rename_i fraction tail' heq
  split at heq
  · exact absurd rfl (ht '.' (by simp)).2
  · obtain ⟨rfl, rfl⟩ := Prod.mk.inj heq
    simp [natOfDigits_eq]

/-- With a point the digits behind it are those of the fraction. -/
theorem numberOfChars?_point (negative : Bool) {whole fraction tail : List Char} (hw : Digits whole)
    (hf : Digits fraction) (ht : ∀ c ∈ tail.head?, c.isDigit = false) :
    numberOfChars? negative (whole ++ '.' :: (fraction ++ tail)) =
      if whole = [] ∧ fraction = [] then none
      else (exponentOfChars? tail).map fun e =>
        .number negative (placeValue (whole ++ fraction)) (e - fraction.length) := by
  have hpoint : ∀ c ∈ ('.' :: (fraction ++ tail)).head?, c.isDigit = false := by
    intro c hc
    obtain rfl : '.' = c := by simpa using hc
    rfl
  rw [numberOfChars?, takeWhile_span hw hpoint, dropWhile_span hw hpoint]
  simp only [takeWhile_span hf ht, dropWhile_span hf ht, natOfDigits_eq, Bool.and_eq_true,
    List.isEmpty_iff]

/-- A mantissa with an exponent is read for what its digits are worth. -/
theorem numberOfChars?_of_mantissa (negative : Bool) {mantissa whole fraction tail : List Char}
    {e : Int} (hm : MantissaText mantissa whole fraction) (he : ExponentText tail e) :
    numberOfChars? negative (mantissa ++ tail) =
      some (.number negative (placeValue (whole ++ fraction)) (e - fraction.length)) := by
  have hletter : ∀ c ∈ tail.head?, c.isDigit = false ∧ c ≠ '.' := by
    intro c hc
    obtain rfl | rfl := he.head c hc <;> decide
  cases hm with
  | whole hw hsome =>
    rw [numberOfChars?_whole negative hw hletter, if_neg hsome, exponentOfChars?_eq_some.mpr he]
    simp
  | point hw hf hsome =>
    rw [List.append_assoc, List.cons_append,
      numberOfChars?_point negative hw hf fun c hc => (hletter c hc).1,
      if_neg (not_and_or.mpr hsome), exponentOfChars?_eq_some.mpr he]
    rfl

/-- Without a sign and a word, only a mantissa with an exponent is read as a numeral. -/
theorem exists_mantissa {negative : Bool} {cs : List Char} {n : Numeral}
    (h : numberOfChars? negative cs = some n) : ∃ mantissa tail whole fraction e,
      cs = mantissa ++ tail ∧ MantissaText mantissa whole fraction ∧ ExponentText tail e ∧
      n = .number negative (placeValue (whole ++ fraction)) (e - fraction.length) := by
  -- the digits in front end at a point, at an exponent or at something that is neither
  obtain ⟨whole, rest, rfl, hw, hrest⟩ := exists_span Char.isDigit cs
  by_cases hpoint : rest.head? = some '.'
  · obtain ⟨r, rfl⟩ := List.head?_eq_some_iff.mp hpoint
    obtain ⟨fraction, tail, rfl, hf, ht⟩ := exists_span Char.isDigit r
    rw [numberOfChars?_point negative hw hf ht] at h
    split at h
    · cases h
    · rename_i hsome
      obtain ⟨e, he, rfl⟩ := Option.map_eq_some_iff.mp h
      refine ⟨whole ++ '.' :: fraction, tail, whole, fraction, e, by simp, ?_, ?_, rfl⟩
      · exact .point hw hf (not_and_or.mp hsome)
      · exact exponentOfChars?_eq_some.mp he
  · have ht : ∀ c ∈ rest.head?, c.isDigit = false ∧ c ≠ '.' := by
      refine fun c hc => ⟨hrest c hc, ?_⟩
      rintro rfl
      exact hpoint hc
    rw [numberOfChars?_whole negative hw ht] at h
    split at h
    · cases h
    · rename_i hsome
      obtain ⟨e, he, rfl⟩ := Option.map_eq_some_iff.mp h
      refine ⟨whole, rest, whole, [], e, rfl, .whole hw hsome, exponentOfChars?_eq_some.mp he, ?_⟩
      simp

/-- A mantissa begins with a digit or with the point. -/
theorem MantissaText.head {mantissa whole fraction : List Char}
    (h : MantissaText mantissa whole fraction) (tail : List Char) :
    ∃ c r, mantissa ++ tail = c :: r ∧ (c.isDigit = true ∨ c = '.') := by
  cases h with
  | whole hw hsome =>
    obtain ⟨c, r, rfl⟩ := List.exists_cons_of_ne_nil hsome
    exact ⟨c, r ++ tail, rfl, .inl (hw c (by simp))⟩
  | point hw hf hsome =>
    cases whole with
    | nil => exact ⟨'.', fraction ++ tail, rfl, .inr rfl⟩
    | cons c r => exact ⟨c, r ++ '.' :: fraction ++ tail, rfl, .inl (hw c (by simp))⟩

/-- The words for infinity and for no number begin with letters, which no mantissa does. -/
theorem MantissaText.not_word {mantissa whole fraction : List Char}
    (h : MantissaText mantissa whole fraction) (tail : List Char) {l : Char} {word : List Char}
    (hl : l = 'i' ∨ l = 'n') : (mantissa ++ tail).map Char.toLower ≠ l :: word := by
  obtain ⟨c, r, hcs, hc⟩ := h.head tail
  have hsame : c.toLower = c := by
    obtain hd | rfl := hc
    · have hle : c.toNat ≤ '9'.toNat := (Char.isDigit_iff_toNat.mp hd).2
      have hlt : '9'.toNat < 'A'.val.toNat := by decide
      exact dif_neg fun hupper => Nat.not_le.mpr hlt (Nat.le_trans hupper.1 hle)
    · rfl
  rw [hcs, List.map_cons, hsame]
  intro heq
  obtain rfl := (List.cons.inj heq).1
  obtain rfl | rfl := hl <;> simp at hc

theorem not_sign_of_word {word : List Char} {l : Char} {r : List Char}
    (h : word.map Char.toLower = l :: r) (hl : l = 'i' ∨ l = 'n') :
    ∀ c ∈ word.head?, c ≠ '-' ∧ c ≠ '+' := by
  intro c hc
  obtain ⟨rest, rfl⟩ := List.head?_eq_some_iff.mp hc
  have hlower : c.toLower = l := (List.cons.inj h).1
  constructor <;> rintro rfl <;> rw [← hlower] at hl <;> revert hl <;> decide

/-- The reader of numerals accepts exactly the numerals. -/
theorem Numeral.ofChars?_eq_some {cs : List Char} {n : Numeral} :
    Numeral.ofChars? cs = some n ↔ NumeralText cs n := by
  constructor
  · intro h
    obtain ⟨sign, rest, negative, rfl, hsign, htake⟩ := exists_sign cs
    rw [ofChars?, htake] at h
    dsimp only at h
    split at h
    · rename_i hword
      obtain rfl := Option.some.inj h
      exact .infinity hsign hword
    · split at h
      · rename_i hword
        obtain rfl := Option.some.inj h
        exact .nan hsign hword
      · obtain ⟨mantissa, tail, whole, fraction, e, rfl, hm, he, rfl⟩ := exists_mantissa h
        exact .number hsign hm he
  · intro h
    cases h with
    | infinity hsign hword =>
      have htake := takeSign_append hsign (hword.elim (not_sign_of_word · (.inl rfl))
        (not_sign_of_word · (.inl rfl)))
      simp only [ofChars?, htake, if_pos hword]
    | nan hsign hword =>
      have htake := takeSign_append hsign (not_sign_of_word hword (.inr rfl))
      simp [ofChars?, htake, hword]
    | @number sign mantissa whole fraction tail negative e hsign hm he =>
      have htake : takeSign (sign ++ (mantissa ++ tail)) = (negative, mantissa ++ tail) := by
        refine takeSign_append hsign fun c hc => ?_
        obtain ⟨c', r, hcs, hhead⟩ := hm.head tail
        obtain rfl : c' = c := by simpa [hcs] using hc
        obtain hd | rfl := hhead
        · exact not_sign_of_isDigit hd
        · decide
      simp only [ofChars?, htake, hm.not_word tail (.inl rfl), hm.not_word tail (.inr rfl), or_self,
        if_false]
      exact numberOfChars?_of_mantissa negative hm he

/-- An integer is a numeral, however large it is, of the same size and sign. -/
theorem IntegerText.numeral {cs : List Char} {i : Int} (h : IntegerText cs i) :
    ∃ negative, NumeralText cs (.number negative i.natAbs 0) ∧ (i ≠ 0 → negative = decide (i < 0)) := by
  cases h with
  | @intro sign ds negative hsign hdigits hsome =>
    have hnumeral := NumeralText.number hsign (.whole hdigits hsome) .none
    simp only [List.append_nil, List.length_nil, Int.natCast_zero, Int.sub_zero] at hnumeral
    refine ⟨negative, ?_, fun hne => ?_⟩
    · cases negative <;> simpa using hnumeral
    · cases negative
      · simp
      · simp only [if_true] at hne ⊢
        exact (decide_eq_true (by omega)).symm

end Numerals

end InlineCache.Decimal
