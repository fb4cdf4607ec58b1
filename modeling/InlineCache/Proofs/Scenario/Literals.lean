import InlineCache.Proofs.Decimal.Grammar
import InlineCache.Scenario.Literal

/-! The grammar of literals, given by their texts: the three keywords, a new object, a symbol, a text in
quotes, an integer that fits into 64 bits, and every other decimal numeral as a float. Reading a literal
comes to what the grammar says of its text without the blanks around it, and to an error where the
grammar says nothing. -/
namespace InlineCache

namespace Text

/-- A text and what is left of it without the blanks at both ends. -/
inductive Trimmed : List Char → List Char → Prop
  | intro {lead text trail : List Char} (before : ∀ c ∈ lead, isBlank c = true)
      (after : ∀ c ∈ trail, isBlank c = true) (head : ∀ c ∈ text.head?, isBlank c = false)
      (last : ∀ c ∈ text.getLast?, isBlank c = false) : Trimmed (lead ++ (text ++ trail)) text

theorem trimmed_trimChars (cs : List Char) : Trimmed cs (trimChars cs) := by
  obtain ⟨lead, rest, rfl, hlead, hrest⟩ := Decimal.exists_span isBlank cs
  obtain ⟨trail, core, hcore, htrail, hlast⟩ := Decimal.exists_span isBlank rest.reverse
  have htrim : trimChars (lead ++ rest) = core.reverse := by
    rw [trimChars, Decimal.dropWhile_span hlead hrest, hcore, Decimal.dropWhile_span htrail hlast]
  have hsplit : rest = core.reverse ++ trail.reverse := by
    rw [← List.reverse_append, ← hcore, List.reverse_reverse]
  rw [htrim, hsplit]
  refine .intro hlead (fun c hc => htrail c (List.mem_reverse.mp hc)) (fun c hc => hrest c ?_) ?_
  · rw [hsplit, List.head?_append, hc]
    rfl
  · simpa using hlast

/-- What is left without blanks at both ends is what trimming gives. -/
theorem trimmed_iff {cs text : List Char} : Trimmed cs text ↔ text = trimChars cs := by
  constructor
  · rintro ⟨hlead, htrail, hhead, hlast⟩
    rename_i lead trail
    rw [trimChars, List.dropWhile_append_of_pos hlead]
    cases text with
    | nil =>
      have hall : (trail ++ []).dropWhile isBlank = [] := Decimal.dropWhile_span htrail (by simp)
      rw [List.append_nil] at hall
      rw [List.nil_append, hall]
      rfl
    | cons c r =>
      have hblank : ∀ a ∈ trail.reverse, isBlank a = true :=
        fun a ha => htrail a (List.mem_reverse.mp ha)
      have hend : ∀ a ∈ (c :: r).reverse.head?, isBlank a = false := by
        rwa [List.head?_reverse]
      rw [List.cons_append, List.dropWhile_cons_of_neg (by simp [hhead c (by simp)]),
        ← List.cons_append, List.reverse_append, Decimal.dropWhile_span hblank hend,
        List.reverse_reverse]
  · rintro rfl
    exact trimmed_trimChars cs

end Text

namespace Scenario

/-- The literals that are no floats, each with what it says. -/
inductive Plain : List Char → Literal → Prop
  | nil : Plain ['n', 'i', 'l'] (.value .nil)
  | isTrue : Plain ['t', 'r', 'u', 'e'] (.value (.bool true))
  | isFalse : Plain ['f', 'a', 'l', 's', 'e'] (.value (.bool false))
  | new {cs name : List Char} (trimmed : Text.Trimmed cs name) :
      Plain ('n' :: 'e' :: 'w' :: ' ' :: cs) (.new (String.ofList name))
  | symbol {name : List Char} (nonempty : name ≠ []) :
      Plain (':' :: name) (.value (.symbol (String.ofList name)))
  | str {text : List Char} : Plain ('"' :: (text ++ ['"'])) (.value (.str (String.ofList text)))
  | int {cs : List Char} {i : Int} (integer : Decimal.IntegerText cs i)
      (fits : -2 ^ 63 ≤ i ∧ i < 2 ^ 63) : Plain cs (.value (.int i))

/-- What comes of a literal in a world, by its text without blanks. -/
inductive Gives {β : Type} (w : World β) (raw : String) (cs : List Char) :
    Except LiteralError (World β × Value) → Prop
  | value {v : Value} (plain : Plain cs (.value v)) : Gives w raw cs (.ok (w, v))
  | object {name : String} {c : ClassId} (plain : Plain cs (.new name))
      (defined : w.registry.classId? name = some c) : Gives w raw cs (.ok (w.newObject c))
  | float {n : Decimal.Numeral} (other : ∀ l, ¬ Plain cs l) (numeral : Decimal.NumeralText cs n) :
      Gives w raw cs (.ok (w, .float n.toFloat))
  | unknownClass {name : String} (plain : Plain cs (.new name))
      (undefined : w.registry.classId? name = none) : Gives w raw cs (.error (.unknownClass name))
  | emptySymbol (colon : cs = [':']) : Gives w raw cs (.error .emptySymbol)
  | invalid (other : ∀ l, ¬ Plain cs l) (colon : cs ≠ [':'])
      (numeral : ∀ n, ¬ Decimal.NumeralText cs n) : Gives w raw cs (.error (.invalid raw))

section Forms

variable {cs : List Char}

theorem unquoted?_eq_some {text : List Char} :
    unquoted? cs = some text ↔ cs = '"' :: (text ++ ['"']) := by
  constructor
  · intro h
    unfold unquoted? at h
    split at h
    · rename_i r
      by_cases hlast : r.getLast? = some '"'
      · obtain ⟨body, rfl⟩ := List.getLast?_eq_some_iff.mp hlast
        simpa using h
      · simp [hlast] at h
    · cases h
  · rintro rfl
    simp [unquoted?]

theorem unquoted?_eq_none (h : ∀ text, cs ≠ '"' :: (text ++ ['"'])) : unquoted? cs = none := by
  rw [Option.eq_none_iff_forall_ne_some]
  exact fun text htext => h text (unquoted?_eq_some.mp htext)

theorem fitsSigned_iff {i : Int} : Decimal.fitsSigned i = true ↔ -2 ^ 63 ≤ i ∧ i < 2 ^ 63 := by
  simp [Decimal.fitsSigned]

theorem numberOfChars?_of_fits {i : Int} (h : Decimal.IntegerText cs i)
    (hfits : -2 ^ 63 ≤ i ∧ i < 2 ^ 63) : numberOfChars? cs = some (.int i) := by
  have hfilter : (Decimal.intOfChars? cs).filter Decimal.fitsSigned = some i := by
    rw [Option.filter_eq_some_iff]
    exact ⟨Decimal.intOfChars?_eq_some.mpr h, fitsSigned_iff.mpr hfits⟩
  rw [numberOfChars?, hfilter]

theorem numberOfChars?_of_not_fits
    (h : ∀ i, Decimal.IntegerText cs i → ¬ (-2 ^ 63 ≤ i ∧ i < 2 ^ 63)) :
    numberOfChars? cs = (Decimal.floatOfChars? cs).map .float := by
  have hnone : (Decimal.intOfChars? cs).filter Decimal.fitsSigned = none := by
    rw [Option.filter_eq_none_iff]
    intro i hi hfits
    exact h i (Decimal.intOfChars?_eq_some.mp hi) (fitsSigned_iff.mp hfits)
  rw [numberOfChars?, hnone]

/-- A numeral has none of the forms that are tried before a number. -/
theorem ofChars?_of_numeral {n : Decimal.Numeral} (h : Decimal.NumeralText cs n) :
    Literal.ofChars? cs = (numberOfChars? cs).map fun v => .ok (.value v) := by
  rw [← Decimal.Numeral.ofChars?_eq_some] at h
  unfold Literal.ofChars?
  -- the reader of numerals gives up on the first characters of each form before
  split
  · cases h
  · cases h
  · cases h
  · cases h
  · cases h
  · cases h
  · have hquote : unquoted? cs = none := by
      refine unquoted?_eq_none ?_
      rintro text rfl
      cases h
    rw [hquote]
    rfl

/-- A text of a plain form is read as that form says. -/
theorem ofChars?_of_plain {l : Literal} (h : Plain cs l) : Literal.ofChars? cs = some (.ok l) := by
  cases h with
  | nil => rfl
  | isTrue => rfl
  | isFalse => rfl
  | new htrimmed => rw [Literal.ofChars?, Text.trimmed_iff.mp htrimmed]
  | @symbol name hsome =>
    obtain ⟨c, r, rfl⟩ := List.exists_cons_of_ne_nil hsome
    rfl
  | @str text =>
    have hquote := unquoted?_eq_some.mpr (Eq.refl ('"' :: (text ++ ['"'])))
    simp [Literal.ofChars?, hquote]
  | int hinteger hfits =>
    obtain ⟨_, hn, _⟩ := hinteger.numeral
    rw [ofChars?_of_numeral hn, numberOfChars?_of_fits hinteger hfits]
    rfl

/-- A text of no plain form is a colon, or it is read as a float. -/
theorem ofChars?_of_other (h : ∀ l, ¬ Plain cs l) (hcolon : cs ≠ [':']) :
    Literal.ofChars? cs = (Decimal.floatOfChars? cs).map fun x => .ok (.value (.float x)) := by
  unfold Literal.ofChars?
  split
  · exact absurd .nil (h _)
  · exact absurd .isTrue (h _)
  · exact absurd .isFalse (h _)
  · exact absurd (.new (Text.trimmed_trimChars _)) (h _)
  · exact absurd rfl hcolon
  · rename_i r hr
    exact absurd (.symbol hr) (h _)
  · have hquote : unquoted? cs = none := by
      refine unquoted?_eq_none ?_
      rintro text rfl
      exact h _ .str
    rw [hquote, numberOfChars?_of_not_fits fun i hi hfits => h _ (.int hi hfits)]
    cases Decimal.floatOfChars? cs <;> rfl

end Forms

section Values

variable {β : Type}

theorem floatOfChars?_of_numeral {cs : List Char} {n : Decimal.Numeral}
    (h : Decimal.NumeralText cs n) : Decimal.floatOfChars? cs = some n.toFloat := by
  rw [Decimal.floatOfChars?, Decimal.Numeral.ofChars?_eq_some.mpr h]
  rfl

/-- What the grammar says of a literal is what reading it comes to. -/
theorem Gives.evalLiteral_eq {w : World β} {raw : String}
    {result : Except LiteralError (World β × Value)}
    (h : Gives w raw (Text.trimChars raw.toList) result) : evalLiteral w raw = result := by
  cases h with
  | value hplain => simp [evalLiteral, Literal.read, ofChars?_of_plain hplain]
  | object hplain hdefined => simp [evalLiteral, Literal.read, ofChars?_of_plain hplain, hdefined]
  | float hother hnumeral =>
    have hcolon : Text.trimChars raw.toList ≠ [':'] := by
      intro hcolon
      rw [hcolon, ← Decimal.Numeral.ofChars?_eq_some] at hnumeral
      cases hnumeral
    simp [evalLiteral, Literal.read, ofChars?_of_other hother hcolon,
      floatOfChars?_of_numeral hnumeral]
  | unknownClass hplain hundefined =>
    simp [evalLiteral, Literal.read, ofChars?_of_plain hplain, hundefined]
  | emptySymbol hcolon => simp [evalLiteral, Literal.read, hcolon, Literal.ofChars?]
  | invalid hother hcolon hnumeral =>
    have hnone : Decimal.floatOfChars? (Text.trimChars raw.toList) = none := by
      rw [Decimal.floatOfChars?, Option.map_eq_none_iff, Option.eq_none_iff_forall_ne_some]
      exact fun n hn => hnumeral n (Decimal.Numeral.ofChars?_eq_some.mp hn)
    simp [evalLiteral, Literal.read, ofChars?_of_other hother hcolon, hnone]

/-- The grammar says something of every literal. -/
theorem exists_gives (w : World β) (raw : String) (cs : List Char) :
    ∃ result, Gives w raw cs result := by
  by_cases hplain : ∃ l, Plain cs l
  · obtain ⟨v | name, hl⟩ := hplain
    · exact ⟨_, .value hl⟩
    · cases hc : w.registry.classId? name with
      | some c => exact ⟨_, .object hl hc⟩
      | none => exact ⟨_, .unknownClass hl hc⟩
  · rw [not_exists] at hplain
    by_cases hcolon : cs = [':']
    · exact ⟨_, .emptySymbol hcolon⟩
    · by_cases hnumeral : ∃ n, Decimal.NumeralText cs n
      · obtain ⟨n, hn⟩ := hnumeral
        exact ⟨_, .float hplain hn⟩
      · exact ⟨_, .invalid hplain hcolon (not_exists.mp hnumeral)⟩

/-- An integer that does not fit is rounded to a float. -/
theorem evalLiteral_of_not_fits (w : World β) (raw : String) {i : Int}
    (h : Decimal.IntegerText (Text.trimChars raw.toList) i) (hfits : ¬ (-2 ^ 63 ≤ i ∧ i < 2 ^ 63)) :
    evalLiteral w raw = .ok (w, .float (Decimal.Numeral.number (i < 0) i.natAbs 0).toFloat) := by
  obtain ⟨negative, hnumeral, hsign⟩ := h.numeral
  obtain rfl := hsign (by omega)
  have hnot : ∀ j, Decimal.IntegerText (Text.trimChars raw.toList) j →
      ¬ (-2 ^ 63 ≤ j ∧ j < 2 ^ 63) := by
    intro j hj
    rw [← Decimal.intOfChars?_eq_some] at h hj
    rwa [Option.some.inj (hj.symm.trans h)]
  simp [evalLiteral, Literal.read, ofChars?_of_numeral hnumeral, numberOfChars?_of_not_fits hnot,
    floatOfChars?_of_numeral hnumeral]

/-- In every world, a literal comes to what the grammar says of its text without the blanks around it,
and to nothing else. An integer that does not fit into 64 bits comes to the float of its size and sign. -/
theorem evalLiteral_iff_gives (w : World β) (raw : String) :
    ∃ cs, (∀ text, Text.Trimmed raw.toList text ↔ text = cs) ∧
      (∀ result, evalLiteral w raw = result ↔ Gives w raw cs result) ∧
      ∀ i, Decimal.IntegerText cs i → ¬ (-2 ^ 63 ≤ i ∧ i < 2 ^ 63) →
        evalLiteral w raw =
          .ok (w, .float (Decimal.Numeral.number (i < 0) i.natAbs 0).toFloat) := by
  refine ⟨Text.trimChars raw.toList, fun text => Text.trimmed_iff, fun result => ⟨?_, ?_⟩, ?_⟩
  · -- the grammar says something, and reading comes to that and to nothing else
    rintro rfl
    obtain ⟨result, h⟩ := exists_gives w raw (Text.trimChars raw.toList)
    rwa [h.evalLiteral_eq]
  · exact Gives.evalLiteral_eq
  · exact fun i h hfits => evalLiteral_of_not_fits w raw h hfits

end Values

end Scenario
end InlineCache
