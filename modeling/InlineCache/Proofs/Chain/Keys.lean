import Mathlib.Data.List.Nodup
import InlineCache.Proofs.Chain.Publication

/-! The keys of a chain. A message and a shape have one test that is in charge of them, the two booleans
have it in common. A chain has at most one node for every such test, and as long as it grows it has
as many nodes as were ever installed; it gives them all up when there is no room for one more. -/
namespace InlineCache

variable {β : Type}

namespace Chain

theorem state_eq_megamorphic {c : Chain β} : c.state = .megamorphic ↔ c.isMegamorphic = true := by
  rw [state]
  split
  · rename_i h
    exact iff_of_true rfl h
  · rename_i h
    refine iff_of_false ?_ h
    split <;> nofun

theorem nodes_of_isMegamorphic {c : Chain β} (h : c.isMegamorphic = true) : c.nodes = [] := by
  rw [nodes]
  unfold isMegamorphic at h
  cases hl : c.links with
  | megamorphic => rfl
  | _ => simp [hl] at h

@[simp] theorem isMegamorphic_ofNodes (ns : List (Node β)) (installed : Nat) :
    (⟨.ofNodes ns, installed⟩ : Chain β).isMegamorphic = false := by
  cases ns <;> rfl

theorem length_guards (c : Chain β) : c.guards.length = c.nodes.length := List.length_map _

/-- There is a node in charge of a message and a shape exactly if there is one with their test. -/
theorem position_eq_none_iff {c : Chain β} (hw : ∀ n ∈ c.nodes, n.WellFormed) {name : String}
    {shape : Shape} : c.position? name shape = none ↔ Guard.of name shape ∉ c.guards := by
  rw [position?, List.findIdx?_eq_none_iff, guards, List.mem_map, not_exists]
  refine forall_congr' fun n => ?_
  rw [not_and]
  refine forall_congr' fun hn => ?_
  rw [← Bool.not_eq_true, Node.covers_iff_guard (hw n hn)]

/-- What a chain keeps true of itself under the bound of its site. -/
structure Proper (c : Chain β) (bound : Nat) : Prop where
  distinct : c.guards.Nodup
  installed_le : c.installed ≤ bound
  growing : c.isMegamorphic = false → c.guards.length = c.installed
  terminal : c.isMegamorphic = false → c.links.terminal = .generic
  collapsed : c.isMegamorphic = true → c.installed = bound

end Chain

namespace Links

theorem terminal_ofNodes (ns : List (Node β)) : (ofNodes ns).terminal = .generic := by
  induction ns with
  | nil => rfl
  | cons n r ih => exact ih

theorem terminal_walk (valid : TokenId → Bool) (call : Call) (l : Links β) :
    (l.walk valid call).1.terminal = l.terminal := by
  induction l with
  | cached n r ih =>
    rw [walk]
    cases n.enter? valid call with
    | some p => rfl
    | none => exact ih
  | generic => rfl
  | megamorphic => rfl

end Links

namespace Chain.Proper

variable {c c' : Chain β} {bound : Nat}

theorem empty (bound : Nat) : ({} : Chain β).Proper bound :=
  ⟨List.nodup_nil, Nat.zero_le bound, fun _ => rfl, fun _ => rfl, nofun⟩

/-- No two nodes of a chain have the same test. -/
theorem index_unique (h : c.Proper bound) {i j : Nat} {n m : Node β} (hi : c.nodes[i]? = some n)
    (hj : c.nodes[j]? = some m) (hg : n.guard = m.guard) : i = j := by
  obtain ⟨hlt, _⟩ := List.getElem?_eq_some_iff.mp hi
  refine (List.getElem?_inj (by rwa [length_guards]) h.distinct).mp ?_
  rw [guards, List.getElem?_map, List.getElem?_map, hi, hj, Option.map_some, Option.map_some, hg]

theorem walked (h : c.Proper bound) (hw : ∀ n ∈ c.nodes, n.WellFormed) (valid : TokenId → Bool)
    (call : Call) : (c.walked valid call).Proper bound := by
  have hg := guards_walked hw valid call
  have hm := isMegamorphic_walked c valid call
  refine ⟨?_, h.installed_le, ?_, ?_, ?_⟩
  · rw [hg]
    exact h.distinct
  · rw [hm, hg]
    exact h.growing
  · rw [hm, Chain.walked, Links.terminal_walk]
    exact h.terminal
  · rw [hm]
    exact h.collapsed

end Chain.Proper

section Publication

variable {valid : TokenId → Bool} {bound : Nat} {name : String} {shape : Shape}
  {built : Option (Branch β)} {c c' : Chain β}

/-- The changes that bring a chain nearer to its end, or to it. -/
def Change.advances : Change → Bool
  | .append | .collapse => true
  | .keep | .openSlot _ | .fill .. => false

/-- A chain is only brought nearer to its end by what can be built and has no node yet. -/
theorem Chain.advances_plan_iff :
    (c.plan valid bound name shape built.isSome).advances = true ↔ c.Wants name shape built := by
  have hwants : c.Wants name shape built ↔
      c.isMegamorphic = false ∧ c.position? name shape = none ∧ built.isSome = true :=
    ⟨fun h => ⟨h.growing, h.position, h.built⟩, fun h => ⟨h.1, h.2.1, h.2.2⟩⟩
  rw [hwants, Chain.plan]
  cases hm : c.isMegamorphic with
  | true => simp [Change.advances]
  | false =>
    cases hp : c.position? name shape with
    | none =>
      cases built with
      | none => simp [Change.advances]
      | some b =>
        by_cases hb : bound ≤ c.installed <;> simp [Change.advances, hb]
    | some i =>
      simp only [Bool.false_eq_true, if_false, reduceCtorEq, false_and, and_false, iff_false]
      split
      · simp [Change.advances]
      · split
        · simp [Change.advances]
        · split <;> simp [Change.advances]
      · split <;> simp [Change.advances]

theorem Chain.state_congr (hi : c'.installed = c.installed)
    (hm : c'.isMegamorphic = c.isMegamorphic) : c'.state = c.state := by
  rw [Chain.state, Chain.state, hi, hm]

/-- Whatever a publication replaces, fills or opens, the chain is in the same state afterwards. -/
theorem Effect.Occurs.state_eq {e : Effect} (h : e.Occurs valid bound name shape built c c')
    (hwant : ¬ c.Wants name shape built) : c'.installed = c.installed ∧ c'.state = c.state := by
  cases e with
  | unchanged =>
    obtain ⟨_, _, rfl⟩ := h
    exact ⟨rfl, rfl⟩
  | appended => exact absurd h.1 hwant
  | collapsed => exact absurd h.1 hwant
  | replaced =>
    obtain ⟨i, n, hn, rfl⟩ := h
    refine ⟨rfl, Chain.state_congr rfl ?_⟩
    rw [Chain.isMegamorphic_ofNodes, hn.inCharge.not_megamorphic]

/-- Only what can be built is ever put into a chain. -/
theorem Chain.buildable_of_needsBranch {buildable : Bool}
    (h : (c.plan valid bound name shape buildable).needsBranch = true) : buildable = true := by
  cases buildable with
  | true => rfl
  | false =>
    unfold Chain.plan at h
    split at h
    · cases h
    · split at h
      · cases h
      · split at h
        · cases h
        · split at h <;> cases h
        · cases h

theorem Chain.installed_published : (c.published valid bound name shape built).installed =
    if c.plan valid bound name shape built.isSome = .append then c.installed + 1
    else c.installed := by
  rw [Chain.published]
  cases hplan : c.plan valid bound name shape built.isSome with
  | append =>
    obtain ⟨b, rfl⟩ := Option.isSome_iff_exists.mp
      (Chain.buildable_of_needsBranch (congrArg Change.needsBranch hplan))
    rfl
  | fill i merges => cases built <;> rfl
  | collapse => cases built <;> rfl
  | keep => rfl
  | openSlot i => rfl

theorem Effect.Occurs.isMegamorphic_iff {e : Effect}
    (h : e.Occurs valid bound name shape built c c') :
    c'.isMegamorphic = true ↔ c.isMegamorphic = true ∨ e = .collapsed := by
  cases e with
  | unchanged => simp [h.2.2]
  | appended =>
    obtain ⟨hwant, _, b, _, rfl⟩ := h
    simp [hwant.growing]
  | collapsed =>
    obtain ⟨_, _, rfl⟩ := h
    exact iff_of_true rfl (.inr rfl)
  | replaced =>
    obtain ⟨i, n, hn, rfl⟩ := h
    simp [hn.inCharge.not_megamorphic]

/-- As long as a chain grows, a publication of something that can be built leaves it with the test that
is in charge, and adds no other one. -/
theorem Effect.Occurs.mem_guards {e : Effect} (h : e.Occurs valid bound name shape built c c')
    (hw : ∀ n ∈ c.nodes, n.WellFormed) (hm : c'.isMegamorphic = false) {g : Guard} :
    g ∈ c'.guards ↔ g ∈ c.guards ∨ (built.isSome = true ∧ g = .of name shape) := by
  have hc : ¬ (c.isMegamorphic = true ∨ e = .collapsed) :=
    fun hor => Bool.eq_false_iff.mp hm (h.isMegamorphic_iff.mpr hor)
  rw [not_or, Bool.not_eq_true] at hc
  have hpresent : c.position? name shape ≠ none → Guard.of name shape ∈ c.guards :=
    fun hp => not_not.mp fun hg => hp ((Chain.position_eq_none_iff hw).mpr hg)
  rw [h.guards_eq hc.2]
  cases e with
  | unchanged =>
    rw [if_neg nofun]
    refine (or_iff_left_of_imp ?_).symm
    rintro ⟨hb, rfl⟩
    exact hpresent fun hp => h.1 ⟨hc.1, hp, hb⟩
  | appended =>
    rw [if_pos rfl, List.mem_append, List.mem_singleton]
    simp only [h.1.built, true_and]
  | collapsed => exact absurd rfl hc.2
  | replaced =>
    obtain ⟨i, n, hn, _⟩ := h
    rw [if_neg nofun]
    refine (or_iff_left_of_imp ?_).symm
    rintro ⟨_, rfl⟩
    exact hpresent fun hp => absurd (hp.symm.trans hn.inCharge.position) nofun

/-- A publication keeps a chain proper, whichever effect it has. -/
theorem Effect.Occurs.proper {e : Effect} (h : e.Occurs valid bound name shape built c c')
    (hw : ∀ n ∈ c.nodes, n.WellFormed) (hc : c.Proper bound) : c'.Proper bound := by
  cases e with
  | unchanged => exact h.2.2 ▸ hc
  | appended =>
    have hguards := h.guards_eq nofun
    obtain ⟨hwant, hlt, b, _, rfl⟩ := h
    have hnew := (Chain.position_eq_none_iff hw).mp hwant.position
    rw [if_pos rfl] at hguards
    refine ⟨?_, hlt, fun _ => ?_, fun _ => Links.terminal_ofNodes _, fun hm => ?_⟩
    · rw [hguards, List.nodup_append]
      refine ⟨hc.distinct, List.nodup_singleton _, fun g hg g' hg' heq => ?_⟩
      exact hnew (List.mem_singleton.mp hg' ▸ heq ▸ hg)
    · rw [hguards, List.length_append, List.length_singleton, hc.growing hwant.growing]
    · simp at hm
  | collapsed =>
    obtain ⟨_, hfull, rfl⟩ := h
    exact ⟨List.nodup_nil, hc.installed_le, nofun, nofun,
      fun _ => Nat.le_antisymm hc.installed_le hfull⟩
  | replaced =>
    have hguards := h.guards_eq nofun
    obtain ⟨i, n, hn, rfl⟩ := h
    rw [if_neg nofun] at hguards
    refine ⟨?_, hc.installed_le, fun _ => ?_, fun _ => Links.terminal_ofNodes _, fun hm => ?_⟩
    · rw [hguards]
      exact hc.distinct
    · rw [hguards]
      exact hc.growing hn.inCharge.not_megamorphic
    · simp at hm

end Publication
end InlineCache
