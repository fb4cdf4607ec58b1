import InlineCache.Proofs.Chain.Keys

/-! A chain as a memory of branches by message and shape. What a walk comes to is read off the branch
that is remembered; a walk remembers the same as before up to its counters; a publication writes the
branch for its message and shape, unless a valid one is remembered, and no other one. -/
namespace InlineCache

variable {β : Type}

/-- What a chain remembers for a message and a shape. -/
def Chain.branch? (c : Chain β) (name : String) (shape : Shape) : Option (Branch β) :=
  (c.position? name shape).bind fun i => (c.nodes[i]?).bind fun n => n.branch? name shape

namespace Chain

variable {c c' : Chain β} {name : String} {shape : Shape}

theorem branch_of_inCharge {i : Nat} {n : Node β} (hn : c.InCharge name shape i n) :
    c.branch? name shape = n.branch? name shape := by
  rw [branch?, hn.position, Option.bind_some, hn.node, Option.bind_some]

theorem branch_of_position (h : c.position? name shape = none) : c.branch? name shape = none := by
  rw [branch?, h, Option.bind_none]

theorem branch_of_isMegamorphic (h : c.isMegamorphic = true) : c.branch? name shape = none := by
  rw [branch?, nodes_of_isMegamorphic h]
  exact Option.bind_eq_none_iff.mpr fun i _ => rfl

/-- The places of the nodes in charge are told by the tests. -/
theorem position_congr (h : c'.guards = c.guards) (message : String) (other : Shape) :
    c'.position? message other = c.position? message other := by
  have hguards : ∀ d : Chain β, d.position? message other =
      d.guards.findIdx? fun g => g.covers message other := by
    intro d
    rw [guards, List.findIdx?_map]
    rfl
  rw [hguards, hguards, h]

/-- Filling the slot of the node in charge. -/
theorem branch_set (hw : ∀ n ∈ c.nodes, n.WellFormed) {i : Nat} {n : Node β}
    (hn : c.InCharge name shape i n) {slot : Option (Branch β)}
    (hc' : c'.nodes = c.nodes.set i (n.setSlot shape slot)) (message : String) (other : Shape) :
    c'.branch? message other =
      if message = name ∧ other = shape then slot else c.branch? message other := by
  have hguards : c'.guards = c.guards := by
    rw [guards, hc', map_guard_set hn.node (Node.guard_setSlot n shape slot), guards]
  have hpos := position_congr hguards message other
  obtain ⟨hlt, _⟩ := List.getElem?_eq_some_iff.mp hn.node
  have hslot := Node.branch_setSlot (hw n hn.mem) hn.covers slot message other
  cases hp : c.position? message other with
  | none =>
    have hne : ¬ (message = name ∧ other = shape) := by
      rintro ⟨rfl, rfl⟩
      cases hp.symm.trans hn.position
    rw [branch_of_position (hpos.trans hp), branch_of_position hp, if_neg hne]
  | some j =>
    obtain ⟨m, hm⟩ := inCharge_of_position hp
    by_cases hij : i = j
    · subst hij
      obtain rfl : n = m := Option.some.inj (hn.node.symm.trans hm.node)
      have hm' : c'.InCharge message other i (n.setSlot shape slot) :=
        ⟨hpos.trans hp, by rw [hc', List.getElem?_set_self hlt]⟩
      rw [branch_of_inCharge hm', branch_of_inCharge hm, hslot]
    · have hne : ¬ (message = name ∧ other = shape) := by
        rintro ⟨rfl, rfl⟩
        exact hij (Option.some.inj (hn.position.symm.trans hp))
      have hm' : c'.InCharge message other j m :=
        ⟨hpos.trans hp, by rw [hc', List.getElem?_set_ne hij, hm.node]⟩
      rw [branch_of_inCharge hm', branch_of_inCharge hm, if_neg hne]

/-- Adding a node behind all others. -/
theorem branch_append (hp : c.position? name shape = none) {b : Branch β}
    (hc' : c'.nodes = c.nodes ++ [.ofBranch name shape b]) (message : String) (other : Shape) :
    c'.branch? message other =
      if message = name ∧ other = shape then some b else c.branch? message other := by
  have hpos : c'.position? message other = (c.position? message other).or
      (([Node.ofBranch name shape b].findIdx? fun n => n.covers message other).map
        (· + c.nodes.length)) := by
    rw [position?, hc', List.findIdx?_append]
    rfl
  cases hold : c.position? message other with
  | some j =>
    obtain ⟨m, hm⟩ := inCharge_of_position hold
    have hne : ¬ (message = name ∧ other = shape) := by
      rintro ⟨rfl, rfl⟩
      cases hp.symm.trans hold
    obtain ⟨hlt, _⟩ := List.getElem?_eq_some_iff.mp hm.node
    have hm' : c'.InCharge message other j m := by
      refine ⟨by rw [hpos, hold, Option.some_or], ?_⟩
      rw [hc', List.getElem?_append_left hlt, hm.node]
    rw [branch_of_inCharge hm', branch_of_inCharge hm, if_neg hne]
  | none =>
    rw [branch_of_position hold, ← Node.branch_ofBranch]
    rw [hold, Option.none_or, List.findIdx?_singleton] at hpos
    split at hpos
    · have hm' : c'.InCharge message other c.nodes.length (.ofBranch name shape b) :=
        ⟨by simpa using hpos, by rw [hc', List.getElem?_concat_length]⟩
      rw [branch_of_inCharge hm']
    · rename_i hcovers
      rw [branch_of_position hpos, Node.branch?, if_neg hcovers]

end Chain

section Walk

variable {c : Chain β}

/-- What a walk comes to is told by what the chain remembers for the call. -/
theorem Chain.verdict_walk {bound : Nat} (hc : c.Proper bound) (hw : ∀ n ∈ c.nodes, n.WellFormed)
    (valid : TokenId → Bool) (call : Call) :
    (c.links.walk valid call).2 = if c.isMegamorphic then .megamorphic
      else match c.branch? call.name call.receiver.shape with
        | some b => if b.isValid valid then .served b.target else .repair
        | none => .generic := by
  cases hm : c.isMegamorphic with
  | true =>
    unfold Chain.isMegamorphic at hm
    cases hl : c.links with
    | megamorphic => rfl
    | _ => simp [hl] at hm
  | false =>
    rw [if_neg Bool.false_ne_true]
    cases hp : c.position? call.name call.receiver.shape with
    | none =>
      rw [Links.walk_of_not_covers valid (Chain.not_covers_of_position hp), hc.terminal hm,
        Chain.branch_of_position hp]
    | some i =>
      obtain ⟨n, hn⟩ := Chain.inCharge_of_position hp
      rw [(Links.walk_of_covers valid (hw n hn.mem) hn.position hn.node).2,
        Chain.branch_of_inCharge hn]
      cases n.branch? call.name call.receiver.shape <;> rfl

/-- A walk counts a try in the branch that is remembered for its call and leaves all others alone. -/
theorem Chain.branch_walked (hw : ∀ n ∈ c.nodes, n.WellFormed) (valid : TokenId → Bool) (call : Call)
    (name : String) (shape : Shape) : (c.walked valid call).branch? name shape =
      if name = call.name ∧ shape = call.receiver.shape then
        (c.branch? name shape).map fun b => { b with entered := b.entered + 1 }
      else c.branch? name shape := by
  cases hp : c.position? call.name call.receiver.shape with
  | none =>
    rw [Chain.walked, Links.walk_of_not_covers valid (Chain.not_covers_of_position hp)]
    split
    · rename_i heq
      obtain ⟨rfl, rfl⟩ := heq
      rw [Chain.branch_of_position hp]
      rfl
    · rfl
  | some i =>
    obtain ⟨n, hn⟩ := Chain.inCharge_of_position hp
    obtain ⟨hnodes, _⟩ := Links.walk_of_covers valid (hw n hn.mem) hn.position hn.node
    have hset : (c.walked valid call).nodes = _ := hnodes
    rw [Chain.branch_set hw hn hset]
    split
    · rename_i heq
      obtain ⟨rfl, rfl⟩ := heq
      rw [Chain.branch_of_inCharge hn]
      cases n.branch? call.name call.receiver.shape <;> rfl
    · rfl

/-- A walk leaves the tokens of all branches as they are. -/
theorem Chain.tokens_walked (hw : ∀ n ∈ c.nodes, n.WellFormed) (valid : TokenId → Bool) (call : Call)
    (name : String) (shape : Shape) :
    ((c.walked valid call).branch? name shape).map Branch.tokens =
      (c.branch? name shape).map Branch.tokens := by
  rw [Chain.branch_walked hw]
  split
  · rw [Option.map_map]
    rfl
  · rfl

end Walk

/-- Where a publication has nothing to do, a valid branch is remembered, or none is and none is
brought. -/
theorem Chain.branch_of_settled {c : Chain β} {valid : TokenId → Bool} {name : String} {shape : Shape}
    {built : Option (Branch β)} (hm : c.isMegamorphic = false)
    (hwant : ¬ c.Wants name shape built)
    (hdue : ∀ i n, ¬ c.Due valid name shape built i n) :
    c.branch? name shape = ((c.branch? name shape).filter fun b => b.isValid valid).or built := by
  cases hp : c.position? name shape with
  | none =>
    have hb : built = none :=
      Option.not_isSome_iff_eq_none.mp fun hb => hwant ⟨hm, hp, hb⟩
    rw [Chain.branch_of_position hp, hb]
    rfl
  | some i =>
    obtain ⟨n, hn⟩ := Chain.inCharge_of_position hp
    have hslot : ¬ Chain.SlotDue valid built (n.branch? name shape) :=
      fun hs => hdue i n ⟨hn, hs⟩
    rw [Chain.branch_of_inCharge hn]
    cases hb : n.branch? name shape with
    | none =>
      rw [hb] at hslot
      exact (Option.not_isSome_iff_eq_none.mp hslot).symm
    | some b =>
      rw [hb] at hslot
      have hv : b.isValid valid = true := (Bool.not_eq_false _).mp hslot
      rw [Option.filter_some, if_pos hv, Option.some_or]

/-- Unless the chain collapses, a publication leaves the branch that it brings, if there is none that is
valid, and all other branches. -/
theorem Effect.Occurs.branch_eq {valid : TokenId → Bool} {bound : Nat} {name : String} {shape : Shape}
    {built : Option (Branch β)} {c c' : Chain β} {e : Effect}
    (h : e.Occurs valid bound name shape built c c') (hw : ∀ n ∈ c.nodes, n.WellFormed)
    (hm : c'.isMegamorphic = false) (message : String) (other : Shape) :
    c'.branch? message other = if message = name ∧ other = shape then
      ((c.branch? name shape).filter fun b => b.isValid valid).or built
    else c.branch? message other := by
  cases e with
  | unchanged =>
    obtain ⟨hwant, hdue, rfl⟩ := h
    split
    · rename_i heq
      obtain ⟨rfl, rfl⟩ := heq
      exact Chain.branch_of_settled hm hwant hdue
    · rfl
  | appended =>
    obtain ⟨hwant, _, b, rfl, rfl⟩ := h
    rw [Chain.branch_append hwant.position (Chain.nodes_ofNodes _ _), Chain.branch_of_position
      hwant.position]
    rfl
  | collapsed =>
    obtain ⟨_, _, rfl⟩ := h
    cases hm
  | replaced =>
    obtain ⟨i, n, hn, rfl⟩ := h
    rw [Chain.branch_set hw hn.inCharge (Chain.nodes_ofNodes _ _),
      Chain.branch_of_inCharge hn.inCharge]
    have hslot := hn.slot
    cases hb : n.branch? name shape with
    | none => rfl
    | some b =>
      rw [hb] at hslot
      have hv : b.isValid valid = false := hslot
      rw [Option.filter_some, hv, if_neg Bool.false_ne_true, Option.none_or]

end InlineCache
