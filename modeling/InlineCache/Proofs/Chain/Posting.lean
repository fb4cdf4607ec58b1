import InlineCache.Proofs.Chain.Recall

/-! What a publication does with its branch. The branch gets into the chain unless a valid one is there
already; it gets lost where the chain has no room for it and collapses. -/
namespace InlineCache

variable {β : Type}

/-- Whether a change puts a branch into the chain. -/
def Change.posts : Change → Bool
  | append | fill .. => true
  | keep | openSlot _ | collapse => false

/-- A branch is called for where it is put into the chain, or where the site becomes megamorphic. -/
theorem Change.needsBranch_iff {change : Change} :
    change.needsBranch = true ↔ change.posts = true ∨ change = .collapse := by
  cases change <;> simp [needsBranch, posts]

namespace Chain

variable {c : Chain β} {valid : TokenId → Bool} {bound : Nat} {name : String} {shape : Shape}
  {built : Option (Branch β)}

theorem plan_of_isMegamorphic (h : c.isMegamorphic = true) (buildable : Bool) :
    c.plan valid bound name shape buildable = .keep := by
  rw [plan, if_pos h]

theorem plan_of_wants (h : c.Wants name shape built) :
    c.plan valid bound name shape built.isSome =
      if bound ≤ c.installed then .collapse else .append := by
  rw [plan, h.growing, h.position, h.built]
  rfl

theorem plan_eq_collapse_iff : c.plan valid bound name shape built.isSome = .collapse ↔
    c.Wants name shape built ∧ bound ≤ c.installed := by
  constructor
  · intro hplan
    have hwants := advances_plan_iff.mp (congrArg Change.advances hplan)
    rw [plan_of_wants hwants] at hplan
    split at hplan
    · rename_i hfull
      exact ⟨hwants, hfull⟩
    · cases hplan
  · rintro ⟨hwants, hfull⟩
    rw [plan_of_wants hwants, if_pos hfull]

/-- A publication makes a chain megamorphic exactly where its plan is the collapse. -/
theorem isMegamorphic_published (hw : ∀ n ∈ c.nodes, n.WellFormed) :
    (c.published valid bound name shape built).isMegamorphic = true ↔ c.isMegamorphic = true ∨
      c.plan valid bound name shape built.isSome = .collapse := by
  obtain ⟨e, he⟩ : ∃ e : Effect, e.Occurs valid bound name shape built c
    (c.published valid bound name shape built) := effect_published hw
  rw [he.isMegamorphic_iff, plan_eq_collapse_iff]
  refine or_congr_right ⟨?_, fun ⟨hwants, hfull⟩ => ?_⟩
  · rintro rfl
    exact ⟨he.1, he.2.1⟩
  · cases e with
    | unchanged => exact absurd hwants he.1
    | appended => exact absurd he.2.1 (Nat.not_lt_of_le hfull)
    | collapsed => rfl
    | replaced =>
      obtain ⟨i, n, hn, _⟩ := he
      cases hwants.position.symm.trans hn.inCharge.position

/-- Unless the chain collapses, the branch of a publication gets in exactly where none is valid. -/
theorem posts_plan_iff (hw : ∀ n ∈ c.nodes, n.WellFormed)
    (hm : (c.published valid bound name shape built).isMegamorphic = false) :
    (c.plan valid bound name shape built.isSome).posts = true ↔
      built.isSome = true ∧ (c.branch? name shape).filter (fun b => b.isValid valid) = none := by
  rw [Bool.eq_false_iff, Ne, isMegamorphic_published hw, not_or, Bool.not_eq_true] at hm
  obtain ⟨hgrowing, hcollapse⟩ := hm
  cases hp : c.position? name shape with
  | none =>
    rw [branch_of_position hp, Option.filter_none, and_iff_left rfl]
    rw [plan, hgrowing, hp] at hcollapse ⊢
    cases built with
    | none => simp [Change.posts]
    | some b =>
      by_cases hb : bound ≤ c.installed
      · simp [hb] at hcollapse
      · simp [hb, Change.posts]
  | some i =>
    obtain ⟨n, hn⟩ := inCharge_of_position hp
    rw [plan_of_inCharge hw hn, branch_of_inCharge hn]
    cases n.branch? name shape with
    | none => cases built <;> simp [Change.posts]
    | some b =>
      cases hv : b.isValid valid with
      | true => simp [hv, Change.posts]
      | false => cases built <;> simp [hv, Change.posts]

end Chain
end InlineCache
