import InlineCache.Proofs.Chain.Walk

/-! What a publication does to a chain. It has one of four effects, and which one follows from the
chain as it is at that moment: from the node in charge, what its slot holds, and the bound. Except
for the collapse of the chain, every effect leaves all nodes at their places and all slots alone but
one, and that one is written to only if it was open or held an invalid branch. -/
namespace InlineCache

variable {β : Type}

/-- The chain after the publication of what could be built of a resolution. -/
def Chain.published (c : Chain β) (valid : TokenId → Bool) (bound : Nat) (name : String)
    (shape : Shape) (built : Option (Branch β)) : Chain β :=
  c.apply name shape (c.plan valid bound name shape built.isSome) built

/-- The effects that a publication may have. -/
inductive Effect where
  | unchanged
  | appended
  | collapsed
  | replaced
  deriving DecidableEq, Repr

namespace Chain

@[simp] theorem nodes_ofNodes (ns : List (Node β)) (installed : Nat) :
    (⟨.ofNodes ns, installed⟩ : Chain β).nodes = ns := Links.nodes_ofNodes ns

/-- A change that calls for no branch does the same whether there is one or not. -/
theorem apply_of_not_needsBranch {change : Change} (h : change.needsBranch = false) (c : Chain β)
    (name : String) (shape : Shape) (b b' : Option (Branch β)) :
    c.apply name shape change b = c.apply name shape change b' := by
  cases change with
  | keep => rfl
  | openSlot i => rfl
  | fill i merges => cases h
  | append => cases h
  | collapse => cases h

/-- No node is in charge, although nodes are still looked at, and there is a branch to install. -/
structure Wants (c : Chain β) (name : String) (shape : Shape) (built : Option (Branch β)) :
    Prop where
  growing : c.isMegamorphic = false
  position : c.position? name shape = none
  built : built.isSome = true

/-- What a slot holds may be replaced: it is open and there is a branch to put in, or it holds a
branch that is no longer valid. -/
def SlotDue (valid : TokenId → Bool) (built : Option (Branch β)) : Option (Branch β) → Prop
  | none => built.isSome = true
  | some b => b.isValid valid = false

/-- The node in charge, with its slot due. -/
structure Due (c : Chain β) (valid : TokenId → Bool) (name : String) (shape : Shape)
    (built : Option (Branch β)) (i : Nat) (n : Node β) : Prop where
  inCharge : c.InCharge name shape i n
  slot : SlotDue valid built (n.branch? name shape)

end Chain

/-- When a publication has an effect on a chain, and the chain that it then leaves. -/
def Effect.Occurs (valid : TokenId → Bool) (bound : Nat) (name : String) (shape : Shape)
    (built : Option (Branch β)) (c c' : Chain β) : Effect → Prop
  | .unchanged => ¬ c.Wants name shape built ∧ (∀ i n, ¬ c.Due valid name shape built i n) ∧ c' = c
  | .appended => c.Wants name shape built ∧ c.installed < bound ∧ ∃ b, built = some b ∧
      c' = ⟨.ofNodes (c.nodes ++ [.ofBranch name shape b]), c.installed + 1⟩
  | .collapsed => c.Wants name shape built ∧ bound ≤ c.installed ∧ c' = ⟨.megamorphic, c.installed⟩
  | .replaced => ∃ i n, c.Due valid name shape built i n ∧
      c' = ⟨.ofNodes (c.nodes.set i (n.setSlot shape built)), c.installed⟩

variable {valid : TokenId → Bool} {bound : Nat} {name : String} {shape : Shape}
  {built : Option (Branch β)} {c c' : Chain β}

namespace Effect

theorem Occurs.unique {e f : Effect} (he : e.Occurs valid bound name shape built c c')
    (hf : f.Occurs valid bound name shape built c c') : e = f := by
  have hdue : ∀ {i n}, c.Due valid name shape built i n → ¬ c.Wants name shape built :=
    fun hd hw => absurd (hw.position.symm.trans hd.inCharge.position) nofun
  cases e with
  | unchanged =>
    obtain ⟨hw, hd, _⟩ := he
    cases f with
    | unchanged => rfl
    | appended => exact absurd hf.1 hw
    | collapsed => exact absurd hf.1 hw
    | replaced =>
      obtain ⟨i, n, hn, _⟩ := hf
      exact absurd hn (hd i n)
  | appended =>
    obtain ⟨hw, hb, _⟩ := he
    cases f with
    | unchanged => exact absurd hw hf.1
    | appended => rfl
    | collapsed => exact absurd hb (Nat.not_lt_of_le hf.2.1)
    | replaced =>
      obtain ⟨i, n, hn, _⟩ := hf
      exact absurd hw (hdue hn)
  | collapsed =>
    obtain ⟨hw, hb, _⟩ := he
    cases f with
    | unchanged => exact absurd hw hf.1
    | appended => exact absurd hf.2.1 (Nat.not_lt_of_le hb)
    | collapsed => rfl
    | replaced =>
      obtain ⟨i, n, hn, _⟩ := hf
      exact absurd hw (hdue hn)
  | replaced =>
    obtain ⟨i, n, hn, _⟩ := he
    cases f with
    | unchanged => exact absurd hn (hf.2.1 i n)
    | appended => exact absurd hf.1 (hdue hn)
    | collapsed => exact absurd hf.1 (hdue hn)
    | replaced => rfl

end Effect

namespace Chain

/-- The plan where a node is in charge is made from what its slot holds. -/
theorem plan_of_inCharge (hw : ∀ n ∈ c.nodes, n.WellFormed) {i : Nat} {n : Node β}
    (hn : c.InCharge name shape i n) (buildable : Bool) :
    c.plan valid bound name shape buildable = match n.branch? name shape with
      | some b => if b.isValid valid then .keep else if buildable then .fill i false else .openSlot i
      | none => if buildable then .fill i n.isBoolean else .keep := by
  obtain ⟨slot, hs⟩ := Node.slot_of_covers (hw n hn.mem) hn.covers
  rw [plan, if_neg (Bool.eq_false_iff.mp hn.not_megamorphic), hn.position,
    Node.branch_of_slot hn.covers hs]
  simp only [hn.node, hs, Option.bind_some, Option.map_some]
  cases slot <;> rfl

theorem published_of_due (hw : ∀ n ∈ c.nodes, n.WellFormed) {i : Nat} {n : Node β}
    (hd : c.Due valid name shape built i n) : c.published valid bound name shape built =
      ⟨.ofNodes (c.nodes.set i (n.setSlot shape built)), c.installed⟩ := by
  have hset : c.nodes.modify i (fun m => m.setSlot shape built) =
      c.nodes.set i (n.setSlot shape built) := by
    rw [List.modify_eq_set_getElem?, hd.inCharge.node]
    rfl
  have hslot := hd.slot
  rw [published, plan_of_inCharge hw hd.inCharge, ← hset]
  cases hb : n.branch? name shape with
  | none =>
    rw [hb] at hslot
    obtain ⟨b, rfl⟩ := Option.isSome_iff_exists.mp hslot
    rfl
  | some old =>
    rw [hb] at hslot
    have hv : old.isValid valid = false := hslot
    cases built <;> simp [hv, apply]

theorem published_of_not_due (hw : ∀ n ∈ c.nodes, n.WellFormed) {i : Nat} {n : Node β}
    (hn : c.InCharge name shape i n) (hd : ¬ SlotDue valid built (n.branch? name shape)) :
    c.published valid bound name shape built = c := by
  rw [published, plan_of_inCharge hw hn]
  cases hb : n.branch? name shape with
  | none =>
    rw [hb] at hd
    obtain rfl : built = none := Option.not_isSome_iff_eq_none.mp hd
    rfl
  | some old =>
    rw [hb] at hd
    have hv : old.isValid valid = true := (Bool.not_eq_false _).mp hd
    cases built <;> simp [hv, apply]

/-- Every publication has one of the effects. -/
theorem effect_published (hw : ∀ n ∈ c.nodes, n.WellFormed) : ∃ e : Effect,
    e.Occurs valid bound name shape built c (c.published valid bound name shape built) := by
  cases hp : c.position? name shape with
  | none =>
    have hdue : ∀ i n, ¬ c.Due valid name shape built i n :=
      fun i n hd => absurd (hp.symm.trans hd.inCharge.position) nofun
    by_cases hm : c.isMegamorphic = true
    · refine ⟨.unchanged, fun hwant => ?_, hdue, by simp [published, plan, hm, apply]⟩
      cases hm.symm.trans hwant.growing
    · have hm := Bool.eq_false_iff.mpr hm
      cases built with
      | none => exact ⟨.unchanged, fun hwant => absurd hwant.built nofun, hdue,
          by simp [published, plan, hm, hp, apply]⟩
      | some b =>
        have hwant : c.Wants name shape (some b) := ⟨hm, hp, rfl⟩
        by_cases hb : bound ≤ c.installed
        · exact ⟨.collapsed, hwant, hb, by simp [published, plan, hm, hp, hb, apply]⟩
        · exact ⟨.appended, hwant, Nat.lt_of_not_le hb, b, rfl,
            by simp [published, plan, hm, hp, hb, apply]⟩
  | some i =>
    obtain ⟨n, hn⟩ := inCharge_of_position hp
    have hwant : ¬ c.Wants name shape built :=
      fun h => absurd (hp.symm.trans h.position) nofun
    by_cases hd : SlotDue valid built (n.branch? name shape)
    · exact ⟨.replaced, i, n, ⟨hn, hd⟩, published_of_due hw ⟨hn, hd⟩⟩
    · refine ⟨.unchanged, hwant, ?_, published_of_not_due hw hn hd⟩
      intro j m hdue
      obtain rfl : j = i := Option.some.inj (hdue.inCharge.position.symm.trans hp)
      obtain rfl : m = n := Option.some.inj (hdue.inCharge.node.symm.trans hn.node)
      exact hd hdue.slot

end Chain

namespace Effect

/-- A property of all branches is kept if the published branch has it. -/
theorem Occurs.every {P : String → Shape → Branch β → Prop} {e : Effect}
    (h : e.Occurs valid bound name shape built c c') (hc : c.Every P)
    (hb : ∀ b, built = some b → P name shape b) : c'.Every P := by
  cases e with
  | unchanged => exact h.2.2 ▸ hc
  | appended =>
    obtain ⟨_, _, b, hbuilt, rfl⟩ := h
    intro m hm
    rw [Chain.nodes_ofNodes, List.mem_append, List.mem_singleton] at hm
    obtain hm | rfl := hm
    · exact hc m hm
    · refine ⟨Node.wellFormed_ofBranch name shape b, ?_⟩
      intro message other b' hb'
      rw [Node.branch_ofBranch] at hb'
      split at hb'
      · rename_i heq
        obtain ⟨rfl, rfl⟩ := heq
        exact hb b' (hbuilt.trans hb')
      · cases hb'
  | collapsed =>
    obtain ⟨_, _, rfl⟩ := h
    exact fun m hm => absurd hm List.not_mem_nil
  | replaced =>
    obtain ⟨i, n, hn, rfl⟩ := h
    rw [Chain.Every, Chain.nodes_ofNodes]
    exact forall_mem_set hc i ((hc n hn.inCharge.mem).setSlot hn.inCharge.covers hb)

theorem Occurs.guards_eq {e : Effect} (h : e.Occurs valid bound name shape built c c')
    (he : e ≠ .collapsed) :
    c'.guards = if e = .appended then c.guards ++ [.of name shape] else c.guards := by
  cases e with
  | unchanged => rw [h.2.2, if_neg (by decide)]
  | appended =>
    obtain ⟨_, _, b, _, rfl⟩ := h
    rw [if_pos rfl, Chain.guards, Chain.nodes_ofNodes, List.map_append, List.map_singleton,
      Node.guard_ofBranch, Chain.guards]
  | collapsed => exact absurd rfl he
  | replaced =>
    obtain ⟨i, n, hn, rfl⟩ := h
    rw [if_neg (by decide), Chain.guards, Chain.nodes_ofNodes,
      map_guard_set hn.inCharge.node (Node.guard_setSlot n shape built), Chain.guards]

/-- The test of a node never changes and nodes never change places: new ones come last. -/
theorem Occurs.guards {e : Effect} (h : e.Occurs valid bound name shape built c c')
    (he : e ≠ .collapsed) : c.guards <+: c'.guards := by
  rw [h.guards_eq he]
  split
  · exact List.prefix_append _ _
  · exact List.prefix_rfl

/-- What a publication leaves alone: all nodes but the one in charge are the same, and that one has
the same test and remembers the same for every other message and shape. -/
theorem Occurs.frame {e : Effect} (h : e.Occurs valid bound name shape built c c')
    (he : e ≠ .collapsed) (hw : ∀ n ∈ c.nodes, n.WellFormed) {j : Nat} {m : Node β}
    (hj : c.nodes[j]? = some m) :
    ∃ m', c'.nodes[j]? = some m' ∧ m'.guard = m.guard ∧
      (c.position? name shape ≠ some j → m' = m) ∧
      ∀ message other, ¬ (message = name ∧ other = shape) →
        m'.branch? message other = m.branch? message other := by
  cases e with
  | unchanged =>
    obtain ⟨_, _, rfl⟩ := h
    exact ⟨m, hj, rfl, fun _ => rfl, fun _ _ _ => rfl⟩
  | appended =>
    obtain ⟨_, _, b, _, rfl⟩ := h
    refine ⟨m, ?_, rfl, fun _ => rfl, fun _ _ _ => rfl⟩
    obtain ⟨hlt, _⟩ := List.getElem?_eq_some_iff.mp hj
    rw [Chain.nodes_ofNodes, List.getElem?_append_left hlt, hj]
  | collapsed => exact absurd rfl he
  | replaced =>
    obtain ⟨i, n, hn, rfl⟩ := h
    obtain ⟨hi, _⟩ := List.getElem?_eq_some_iff.mp hn.inCharge.node
    rw [Chain.nodes_ofNodes, List.getElem?_set]
    by_cases hij : i = j
    · subst hij
      obtain rfl : n = m := Option.some.inj (hn.inCharge.node.symm.trans hj)
      refine ⟨n.setSlot shape built, by rw [if_pos rfl, if_pos hi], Node.guard_setSlot n shape built,
        fun hne => absurd hn.inCharge.position hne, ?_⟩
      intro message other hne
      rw [Node.branch_setSlot (hw n hn.inCharge.mem) hn.inCharge.covers, if_neg hne]
    · rw [if_neg hij]
      exact ⟨m, hj, rfl, fun _ => rfl, fun _ _ _ => rfl⟩

/-- A branch that is valid at the moment of a publication is still there after it. -/
theorem Occurs.survives {e : Effect} (h : e.Occurs valid bound name shape built c c')
    (he : e ≠ .collapsed) (hw : ∀ n ∈ c.nodes, n.WellFormed) {j : Nat} {m : Node β}
    (hj : c.nodes[j]? = some m) {message : String} {other : Shape} {b : Branch β}
    (hb : m.branch? message other = some b) (hv : b.isValid valid = true) :
    ∃ m', c'.nodes[j]? = some m' ∧ m'.branch? message other = some b := by
  obtain ⟨m', hj', _, hsame, hothers⟩ := h.frame he hw hj
  refine ⟨m', hj', ?_⟩
  by_cases hother : message = name ∧ other = shape
  · obtain ⟨rfl, rfl⟩ := hother
    cases e with
    | collapsed => exact absurd rfl he
    | unchanged =>
      obtain ⟨_, _, rfl⟩ := h
      obtain rfl : m = m' := Option.some.inj (hj.symm.trans hj')
      exact hb
    | appended =>
      rw [hsame (fun hp => absurd (h.1.position.symm.trans hp) nofun), hb]
    | replaced =>
      obtain ⟨i, n, hn, _⟩ := h
      have hne : c.position? message other ≠ some j := by
        intro hp
        obtain rfl : i = j := Option.some.inj (hn.inCharge.position.symm.trans hp)
        obtain rfl : n = m := Option.some.inj (hn.inCharge.node.symm.trans hj)
        have hdue := hn.slot
        rw [hb] at hdue
        cases hv.symm.trans hdue
      rw [hsame hne, hb]
  · rw [hothers message other hother, hb]

/-- Nodes that a publication adds serve its message and shape and remember nothing else. -/
theorem Occurs.added {e : Effect} (h : e.Occurs valid bound name shape built c c') :
    ∀ n ∈ c'.nodes.drop c.nodes.length, n.covers name shape = true ∧
      ∀ message other, n.branch? message other =
        if message = name ∧ other = shape then built else none := by
  cases e with
  | unchanged => simp [h.2.2]
  | appended =>
    obtain ⟨_, _, b, rfl, rfl⟩ := h
    intro n hn
    rw [Chain.nodes_ofNodes, List.drop_left, List.mem_singleton] at hn
    subst hn
    exact ⟨Node.covers_ofBranch name shape b, Node.branch_ofBranch name shape b⟩
  | collapsed =>
    obtain ⟨_, _, rfl⟩ := h
    simp [Chain.nodes, Links.nodes]
  | replaced =>
    obtain ⟨i, n, _, rfl⟩ := h
    have hnone : (c.nodes.set i (n.setSlot shape built)).drop c.nodes.length = [] :=
      List.drop_eq_nil_of_le (Nat.le_of_eq List.length_set)
    rw [Chain.nodes_ofNodes, hnone]
    exact fun m hm => absurd hm List.not_mem_nil

end Effect

/-- How a chain goes on in time: tests are added behind those that are there, until the chain gives
up for good. -/
structure Chain.Grows (c c' : Chain β) : Prop where
  megamorphic : c.isMegamorphic = true → c'.isMegamorphic = true
  guards : c'.isMegamorphic = true ∨ c.guards <+: c'.guards

namespace Chain.Grows

theorem refl (c : Chain β) : c.Grows c := ⟨fun h => h, .inr List.prefix_rfl⟩

theorem trans {d : Chain β} (h : c.Grows c') (h' : c'.Grows d) : c.Grows d := by
  refine ⟨fun hm => h'.megamorphic (h.megamorphic hm), ?_⟩
  obtain hm | hg := h.guards
  · exact .inl (h'.megamorphic hm)
  · exact h'.guards.imp_right hg.trans

theorem walked (hw : ∀ n ∈ c.nodes, n.WellFormed) (valid : TokenId → Bool) (call : Call) :
    c.Grows (c.walked valid call) :=
  ⟨fun hm => by rwa [isMegamorphic_walked], .inr (guards_walked hw valid call ▸ List.prefix_rfl)⟩

theorem of_occurs {e : Effect} (h : e.Occurs valid bound name shape built c c') : c.Grows c' := by
  by_cases he : e = .collapsed
  · subst he
    obtain ⟨_, _, rfl⟩ := h
    exact ⟨fun _ => rfl, .inl rfl⟩
  · refine ⟨fun hm => ?_, .inr (h.guards he)⟩
    cases e with
    | unchanged => exact h.2.2 ▸ hm
    | appended => cases hm.symm.trans h.1.growing
    | collapsed => exact absurd rfl he
    | replaced =>
      obtain ⟨i, n, hn, _⟩ := h
      cases hm.symm.trans hn.inCharge.not_megamorphic

end Chain.Grows
end InlineCache
