import InlineCache.Proofs.Scenario.Literals
import InlineCache.Scenario.Run

/-! What comes of the text of a result that is written back as a literal. Texts in quotes are shown
with escapes and read verbatim, so a text comes back as it was only if it has nothing to escape. The
values of the other kinds that literals have texts for come back as they were. -/
namespace InlineCache

namespace Text

theorem Trimmed.last {cs text : List Char} (h : Trimmed cs text) :
    ∀ c ∈ text.getLast?, isBlank c = false := by
  cases h
  assumption

/-- The characters that a quoted text does not show as they are. -/
def Escaped (c : Char) : Prop :=
  c ∈ ['\x00', '\t', '\r', '\n', '"', '\\'] ∨ isHidden c = true

theorem quoteChar_of_not_escaped {c : Char} (h : ¬ Escaped c) : quoteChar c = [c] := by
  simp only [Escaped, List.mem_cons, List.not_mem_nil, or_false, not_or] at h
  simp [quoteChar, h]

theorem one_lt_length_quoteChar {c : Char} (h : Escaped c) : 1 < (quoteChar c).length := by
  unfold quoteChar
  split_ifs with h₀ h₁ h₂ h₃ h₄ h₅ h₆
  case neg => simp [Escaped, *] at h
  all_goals simp

/-- Quoting does not shorten a text. -/
theorem length_le_quoted (cs : List Char) : cs.length ≤ (cs.flatMap quoteChar).length := by
  induction cs with
  | nil => exact Nat.le_refl 0
  | cons c r ih =>
    have hc : 0 < (quoteChar c).length := by
      by_cases h : Escaped c
      · exact Nat.lt_trans Nat.zero_lt_one (one_lt_length_quoteChar h)
      · rw [quoteChar_of_not_escaped h]
        exact Nat.zero_lt_one
    rw [List.flatMap_cons, List.length_append, List.length_cons]
    omega

/-- A text is shown as it is where nothing in it is escaped; else it gets longer. -/
theorem quoted_eq_self_iff {cs : List Char} :
    cs.flatMap quoteChar = cs ↔ ∀ c ∈ cs, ¬ Escaped c := by
  induction cs with
  | nil => simp
  | cons c r ih =>
    rw [List.flatMap_cons, List.forall_mem_cons]
    by_cases h : Escaped c
    · -- the escape is longer than the character, and what follows does not get shorter
      refine iff_of_false (fun heq => ?_) (fun hall => hall.1 h)
      have hlength := congrArg List.length heq
      rw [List.length_append, List.length_cons] at hlength
      have := one_lt_length_quoteChar h
      have := length_le_quoted r
      omega
    · rw [quoteChar_of_not_escaped h, List.singleton_append, List.cons_inj_right, ih]
      exact (and_iff_right h).symm

end Text

namespace Decimal

theorem isBlank_of_isDigit {c : Char} (h : c.isDigit = true) : Text.isBlank c = false := by
  simp only [Char.isDigit, Bool.and_eq_true, decide_eq_true_eq, UInt32.le_iff_toNat_le] at h
  have hlow : 48 ≤ c.toNat := h.1
  have hhigh : c.toNat ≤ 57 := h.2
  simp only [Text.isBlank, Bool.or_eq_false_iff, Bool.and_eq_false_iff, decide_eq_false_iff_not,
    beq_eq_false_iff_ne]
  omega

theorem placeValue_toDigits (n : Nat) : placeValue (Nat.toDigits 10 n) = n := by
  rw [← natOfDigits_eq]
  exact Nat.ofDigitChars_ten_toDigits

theorem integerText_toDigits {sign : List Char} {negative : Bool} (h : Sign sign negative)
    (n : Nat) :
    IntegerText (sign ++ Nat.toDigits 10 n) (if negative then -(n : Int) else n) := by
  have htext : IntegerText (sign ++ Nat.toDigits 10 n) _ :=
    .intro h (fun _ hd => Nat.isDigit_of_mem_toDigits (by decide) (by decide) hd)
      Nat.toDigits_ne_nil
  rwa [placeValue_toDigits] at htext

/-- The text of an integer is its sign, if it is below zero, and its digits. -/
theorem exists_toList_toString (i : Int) : ∃ sign negative n, Sign sign negative ∧
    (toString i).toList = sign ++ Nat.toDigits 10 n ∧ i = if negative then -(n : Int) else n := by
  cases i with
  | ofNat n => exact ⟨[], false, n, .none, Nat.toList_repr, rfl⟩
  | negSucc n =>
    refine ⟨['-'], true, n + 1, .minus, ?_, Int.negSucc_eq n⟩
    exact (String.toList_append ..).trans (congrArg (['-'] ++ ·) Nat.toList_repr)

theorem integerText_toString (i : Int) : IntegerText (toString i).toList i := by
  obtain ⟨sign, negative, n, hsign, htext, hi⟩ := exists_toList_toString i
  have hdigits := integerText_toDigits hsign n
  rwa [← htext, ← hi] at hdigits

/-- No character of an integer is a blank. -/
theorem IntegerText.not_blank {cs : List Char} {i : Int} (h : IntegerText cs i) :
    ∀ c ∈ cs, Text.isBlank c = false := by
  cases h with
  | intro hsign hdigits _ =>
    intro c hc
    rcases List.mem_append.mp hc with hc | hc
    · cases hsign <;> simp at hc <;> subst hc <;> rfl
    · exact isBlank_of_isDigit (hdigits c hc)

end Decimal

namespace Value

/-- The kinds of values that are shown in the form of a literal: all but floats and objects. -/
def Spelled : Value → Prop
  | float _ | object .. => False
  | _ => True

/-- What the text of a value says as a literal. A text keeps the escapes that it is shown with. -/
def reread : Value → Value
  | str s => .str (String.ofList (s.toList.flatMap Text.quoteChar))
  | v => v

/-- A value that is not a text is read back as it was, and so is a text of which nothing is escaped. -/
theorem reread_equal_iff {v : Value} (hv : v.Spelled) :
    v.reread.equal v = true ↔ ∀ s, v = .str s → ∀ c ∈ s.toList, ¬ Text.Escaped c := by
  cases v with
  | str s =>
    have hsame : String.ofList (s.toList.flatMap Text.quoteChar) = s ↔
        s.toList.flatMap Text.quoteChar = s.toList := by
      rw [← String.toList_inj, String.toList_ofList]
    simp only [reread, equal, beq_iff_eq, hsame, Text.quoted_eq_self_iff, str.injEq]
    exact ⟨fun h _ hs => hs ▸ h, fun h => h s rfl⟩
  | float => exact hv.elim
  | object => exact hv.elim
  | _ => simp [reread, equal]

end Value

namespace Scenario

/-- The text of a value is a literal without blanks at its ends, where the value itself is that of such
a literal. -/
theorem Plain.display {cs : List Char} {v : Value} (h : Plain cs (.value v))
    (hlast : ∀ c ∈ cs.getLast?, Text.isBlank c = false) :
    Plain v.display.toList (.value v.reread) ∧
      Text.trimChars v.display.toList = v.display.toList := by
  cases h with
  | nil => exact ⟨.nil, by decide⟩
  | isTrue => exact ⟨.isTrue, by decide⟩
  | isFalse => exact ⟨.isFalse, by decide⟩
  | @symbol name hsome =>
    have htext : (Value.symbol (String.ofList name)).display.toList = ':' :: name := by
      simp [Value.display]
    rw [htext]
    exact ⟨.symbol hsome, Text.trimChars_eq_self _ (by simp; rfl) hlast⟩
  | @str text =>
    have htext : (Value.str (String.ofList text)).display.toList =
        '"' :: (text.flatMap Text.quoteChar ++ ['"']) := by
      simp [Value.display, Text.quoteChars]
    rw [htext, Value.reread, String.toList_ofList]
    refine ⟨.str, Text.trimChars_eq_self _ (by simp; rfl) ?_⟩
    rw [← List.cons_append, List.getLast?_concat]
    simp
    rfl
  | int hinteger hfits =>
    rename_i i
    have hshown := Decimal.integerText_toString i
    refine ⟨.int hshown hfits, Text.trimChars_eq_self _ (fun c hc => ?_) (fun c hc => ?_)⟩
    · exact hshown.not_blank c (List.mem_of_mem_head? hc)
    · exact hshown.not_blank c (List.mem_of_getLast? hc)

section Reading

variable {β γ : Type} {w w' : World β} {raw : String} {v : Value}

/-- The text of a value that was read is read as what it says, whatever the world. -/
theorem evalLiteral_display (h : evalLiteral w raw = .ok (w', v)) (hv : v.Spelled) :
    w' = w ∧ ∀ u : World γ, evalLiteral u v.display = .ok (u, v.reread) := by
  obtain ⟨result, hg⟩ := exists_gives w raw (Text.trimChars raw.toList)
  have hresult := hg.evalLiteral_eq.symm.trans h
  subst hresult
  cases hg with
  | value hplain =>
    obtain ⟨hshown, htrim⟩ := hplain.display (Text.trimmed_trimChars raw.toList).last
    exact ⟨rfl, fun u => Gives.evalLiteral_eq (.value (htrim.symm ▸ hshown))⟩
  | object => exact hv.elim
  | float => exact hv.elim

end Reading

namespace Stage

variable {s : Stage} {text : String} {v : Value}

theorem literal_of_evalLiteral (h : evalLiteral s.world text = .ok (s.world, v)) :
    s.literal text = .ok (s, v) := by
  rw [literal, h]

theorem literals_cons_of_literal (h : s.literal text = .ok (s, v)) (rest : List String) :
    s.literals (text :: rest) = (s.literals rest).map fun p => (p.1, v :: p.2) := by
  rw [literals, h]
  change (s.literals rest >>= _) = _
  cases s.literals rest <;> rfl

theorem body_of_literal (h : s.literal text = .ok (s, v)) {m : MethodSpec}
    (hreturns : m.returns = some text) (hfails : m.fails = none) :
    s.body m = .ok (s, .returns v) := by
  simp only [body, hreturns, hfails, h]
  rfl

end Stage

/-- Take any literal that stands for a value other than a float or an object. The text that a step shows
for a result of this value can be written for a receiver, an argument or the result of a method, in any
other world. It stands for the same value there, unless the value is a text with characters that are
escaped where it is shown: of such a text the escapes are read as they are written. -/
theorem result_rereads {β γ : Type} (w w' : World β) (raw : String) (v : Value)
    (h : evalLiteral w raw = .ok (w', v)) (hv : v.Spelled) :
    let text := Stage.resultText (.ok (.returned v))
    (∀ u : World γ, evalLiteral u text = .ok (u, v.reread)) ∧
    (∀ s : Stage, s.literal text = .ok (s, v.reread) ∧
      (∀ rest, s.literals (text :: rest) =
        (s.literals rest).map fun p => (p.1, v.reread :: p.2)) ∧
      ∀ m : MethodSpec, m.returns = some text → m.fails = none →
        s.body m = .ok (s, .returns v.reread)) ∧
    (v.reread.equal v = true ↔ ∀ t, v = .str t → ∀ c ∈ t.toList, ¬ Text.Escaped c) := by
  refine ⟨(evalLiteral_display h hv).2, fun s => ?_, Value.reread_equal_iff hv⟩
  have hliteral := Stage.literal_of_evalLiteral ((evalLiteral_display h hv).2 s.world)
  exact ⟨hliteral, Stage.literals_cons_of_literal hliteral,
    fun _ hreturns hfails => Stage.body_of_literal hliteral hreturns hfails⟩

/-- An apostrophe is not escaped: the text is read back as it was. -/
theorem result_rereads_apostrophe :
    let w : World Unit := {}
    let v : Value := .str "it's"
    evalLiteral w "\"it's\"" = .ok (w, v) ∧ v.Spelled ∧
      evalLiteral w (Stage.resultText (.ok (.returned v))) = .ok (w, v) := by
  intro w v
  have hread : evalLiteral w "\"it's\"" = .ok (w, v) := by rfl
  obtain ⟨hagain, _, _⟩ := result_rereads (γ := Unit) w w _ v hread trivial
  have hsame : v.reread = v := by decide +kernel
  exact ⟨hread, trivial, hsame ▸ hagain w⟩

/-- A quote within a text is shown with a backslash, which belongs to the text when that is read. -/
theorem quote_rereads_differently :
    let w : World Unit := {}
    let v : Value := .str "a\"b"
    evalLiteral w "\"a\"b\"" = .ok (w, v) ∧
      evalLiteral w (Stage.resultText (.ok (.returned v))) = .ok (w, .str "a\\\"b") ∧
      (Value.str "a\\\"b").equal v = false := by
  intro w v
  have hread : evalLiteral w "\"a\"b\"" = .ok (w, v) := by rfl
  have hescaped : v.reread = .str "a\\\"b" := by decide +kernel
  exact ⟨hread, hescaped ▸ (evalLiteral_display hread trivial).2 w, by decide +kernel⟩

end Scenario
end InlineCache
