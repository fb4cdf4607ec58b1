import InlineCache.Proofs.Cache.Fitness
import InlineCache.Proofs.Chain.Recall

/-! Readers and writers of a chain meet at the same branch. A reader goes along the links with the
receiver at hand and takes the branch that the receiver selects in the first node whose test passes;
a writer looks for the place of the node in charge of a message and a shape, and edits the slot for
the shape there. Were they to differ, a branch could be repaired over and over where no reader looks. -/
namespace InlineCache

variable {β : Type}

/-- The branch of a node that a receiver selects: the one for `true` if it is that value, and otherwise
the other one, where there are two. -/
def Node.selected : Node β → Value → Option (Branch β)
  | boolean _ onFalse onTrue, receiver => if receiver = .bool true then onTrue else onFalse
  | single _ branch, _ => branch

/-- What a target does for a call, by the action of the site: it starts its method, as a handler with
the message before the arguments, or it says that there is one. -/
inductive Target.Does (call : Call) : Action → Target β → Landing β → Prop where
  | direct (t : CallTarget β) : Does call .invoke (.direct t) (.running .hit (call.activate t.method))
  | handler (t : CallTarget β) :
      Does call .invoke (.handler t) (.running .hit (call.toHandler.activate t.method))
  | found (t : CallTarget β) : Does call .probe (.direct t) (.finished .hit (.ok (.responds true)))
  | probe : Does call .probe .probe (.finished .hit (.ok (.responds true)))

theorem Target.Does.serve_eq {w : World β} {s : SiteId} {call : Call} {target : Target β}
    {landing : Landing β} (h : target.Does call (w.site s).options.action landing) :
    (w.serve s call target).2 = landing := by
  unfold World.serve
  generalize (w.site s).options.action = action at h
  cases h <;> rfl

namespace Links

/-- Links that are made from the last node to the first. -/
theorem ofNodes_eq_foldl (ns : List (Node β)) :
    ofNodes ns = ns.reverse.foldl (fun rest n => .cached n rest) .generic := by
  rw [List.foldl_reverse]
  induction ns with
  | nil => rfl
  | cons n r ih => rw [ofNodes, ih, List.foldr_cons]

/-- A chain that may grow is made of its nodes. -/
theorem eq_ofNodes {l : Links β} (h : l.terminal = .generic) : l = ofNodes l.nodes := by
  induction l with
  | cached n r ih => rw [nodes, ofNodes, ← ih h]
  | generic => rfl
  | megamorphic => cases h

end Links

namespace Node

variable {n : Node β} {name : String} {v : Value}

/-- What a receiver selects is what is remembered for its shape. -/
theorem branch_eq_selected (h : n.WellFormed) (hc : n.covers name v.shape = true) :
    n.branch? name v.shape = n.selected v := by
  cases n with
  | boolean g onFalse onTrue =>
    obtain ⟨_, b, hb⟩ := (covers_boolean h).mp hc
    obtain rfl : v = .bool b := by cases v <;> simp_all [Value.shape]
    rw [branch_of_slot hc rfl]
    cases b <;> rfl
  | single g branch => rw [branch_of_slot hc rfl, selected]

/-- A slot that is written is the one that receivers of the shape select, and no others do. -/
theorem selected_setSlot (h : n.WellFormed) {call : Call}
    (hc : n.covers call.name call.receiver.shape = true) (slot : Option (Branch β))
    (hv : n.covers call.name v.shape = true) :
    (n.setSlot call.receiver.shape slot).selected v =
      if v.shape = call.receiver.shape then slot else n.selected v := by
  rw [← branch_eq_selected (h.setSlot _ _) ((covers_setSlot n _ slot _ _).trans hv),
    branch_setSlot h hc, branch_eq_selected h hv]
  simp only [true_and]

theorem setSlot_selected (h : n.WellFormed) (hc : n.covers name v.shape = true) :
    n.setSlot v.shape (n.selected v) = n := by
  cases n with
  | boolean g onFalse onTrue =>
    obtain ⟨_, b, hb⟩ := (covers_boolean h).mp hc
    obtain rfl : v = .bool b := by cases v <;> simp_all [Value.shape]
    cases b <;> rfl
  | single g branch => rfl

/-- What a receiver selects is a branch of the node. -/
theorem mem_branches_of_selected {b : Branch β} (h : n.selected v = some b) : b ∈ n.branches := by
  cases n with
  | boolean g onFalse onTrue =>
    rw [selected] at h
    rw [branches, List.mem_append, Option.mem_toList, Option.mem_toList]
    split at h
    · exact .inr h
    · exact .inl h
  | single g branch => exact Option.mem_toList.mpr h

end Node

section Walk

variable {w : World β} {s : SiteId} {ns : List (Node β)} {call : Call}

/-- Where no node is in charge a walk comes to the end and leaves all as it is. -/
theorem World.verdict_of_unplaced (hlinks : (w.site s).chain.links = .ofNodes ns)
    (hp : (w.site s).chain.position? call.name call.receiver.shape = none) :
    w.verdict s call = .generic ∧ (w.site s).chain.walked w.isValid call = (w.site s).chain := by
  have hwalk := Links.walk_of_not_covers w.isValid (Chain.not_covers_of_position hp)
  rw [World.verdict, Chain.walked, hwalk]
  exact ⟨hlinks ▸ Links.terminal_ofNodes ns, rfl⟩

/-- Where a node is in charge a walk enters the slot that the receiver selects. -/
theorem World.verdict_of_inCharge (hlinks : (w.site s).chain.links = .ofNodes ns) {i : Nat}
    {n : Node β} (hw : n.WellFormed)
    (hn : (w.site s).chain.InCharge call.name call.receiver.shape i n) :
    w.verdict s call = (enterSlot w.isValid (n.selected call.receiver)).2 ∧
      (w.site s).chain.walked w.isValid call = { (w.site s).chain with
        links := .ofNodes (ns.set i (n.setSlot call.receiver.shape
          (enterSlot w.isValid (n.selected call.receiver)).1)) } := by
  obtain ⟨hnodes, hverdict⟩ := Links.walk_of_covers w.isValid hw hn.position hn.node
  have hend : ((w.site s).chain.links.walk w.isValid call).1.terminal = .generic := by
    rw [Links.terminal_walk, hlinks, Links.terminal_ofNodes]
  rw [Node.branch_eq_selected hw hn.covers] at hnodes hverdict
  refine ⟨hverdict, ?_⟩
  rw [Chain.walked, Links.eq_ofNodes hend, hnodes, hlinks, Links.nodes_ofNodes]

/-- A target is served by doing what it does for the call. -/
theorem World.begin_of_does {target : Target β} {landing : Landing β}
    (hv : w.verdict s call = .served target)
    (hdoes : target.Does call (w.site s).options.action landing) :
    (w.begin s call).2 = .landed landing := by
  rw [← World.options_walkSite w s call] at hdoes
  simp only [World.begin_eq, hv, hdoes.serve_eq]

end Walk

/-- On a chain of any nodes that are built as nodes are, whose targets have something to do at the
site, a call comes to the end where no node is in charge of it, and the chain stays as it is. Else it
comes to the branch that its receiver selects in the first node in charge: to a miss if that is open,
to a repair if it has lost a token, and if not to what its target does; that branch has one try more, and
nothing else in the chain is changed. A publication for the same message and shape writes to this very
branch or to none, and no other receiver of the node selects what it wrote. Nodes are linked from the
last to the first and read off in the order they had. -/
theorem World.walk_selects_position (w : World β) (s : SiteId) (ns : List (Node β))
    (hlinks : (w.site s).chain.links = .ofNodes ns) (hw : ∀ n ∈ ns, n.WellFormed) (call : Call)
    (hdoes : ∀ n ∈ ns, ∀ b ∈ n.branches,
      ∃ landing, b.target.Does call (w.site s).options.action landing) :
    let c := (w.site s).chain
    let shape := call.receiver.shape
    (c.nodes = ns ∧ c.links = ns.reverse.foldl (fun rest n => .cached n rest) .generic) ∧
    (c.position? call.name shape = none →
      w.verdict s call = .generic ∧ c.walked w.isValid call = c) ∧
    ∀ i, c.position? call.name shape = some i → ∃ n, ns[i]? = some n ∧
      (n.selected call.receiver = none →
        w.verdict s call = .generic ∧ c.walked w.isValid call = c) ∧
      (∀ b, n.selected call.receiver = some b →
        c.walked w.isValid call = { c with links := .ofNodes (ns.set i
          (n.setSlot shape (some { b with entered := b.entered + 1 }))) } ∧
        (b.isValid w.isValid = false → w.verdict s call = .repair) ∧
        (b.isValid w.isValid = true → w.verdict s call = .served b.target ∧
          ∃ landing, b.target.Does call (w.site s).options.action landing ∧
            (w.begin s call).2 = .landed landing)) ∧
      ∀ (valid : TokenId → Bool) (bound : Nat) (built : Option (Branch β)),
        (Chain.SlotDue valid built (n.selected call.receiver) →
          c.published valid bound call.name shape built =
            { c with links := .ofNodes (ns.set i (n.setSlot shape built)) }) ∧
        (¬ Chain.SlotDue valid built (n.selected call.receiver) →
          c.published valid bound call.name shape built = c) ∧
        ∀ v : Value, n.covers call.name v.shape = true → (n.setSlot shape built).selected v =
          if v.shape = shape then built else n.selected v := by
  intro c shape
  have hnodes : c.nodes = ns := by rw [Chain.nodes, hlinks, Links.nodes_ofNodes]
  have hwc : ∀ n ∈ c.nodes, n.WellFormed := hnodes ▸ hw
  refine ⟨⟨hnodes, by rw [hlinks, Links.ofNodes_eq_foldl]⟩, fun hp => verdict_of_unplaced hlinks hp,
    fun i hi => ?_⟩
  obtain ⟨n, hn⟩ := Chain.inCharge_of_position hi
  have hget : ns[i]? = some n := hnodes ▸ hn.node
  have hmem : n ∈ ns := List.mem_of_getElem? hget
  have hself := Node.branch_eq_selected (hw n hmem) hn.covers
  obtain ⟨hverdict, hwalked⟩ := verdict_of_inCharge hlinks (hw n hmem) hn
  refine ⟨n, hget, fun hopen => ?_, fun b hb => ?_, fun valid bound built => ⟨?_, ?_, ?_⟩⟩
  · -- an open slot is entered without a trace
    obtain ⟨hlt, hin⟩ := List.getElem?_eq_some_iff.mp hget
    have hsame := Node.setSlot_selected (hw n hmem) hn.covers
    rw [hopen] at hverdict hwalked hsame
    refine ⟨hverdict, hwalked.trans ?_⟩
    rw [enterSlot, hsame, ← hin, List.set_getElem_self, ← hlinks]
  · rw [hb] at hverdict hwalked
    refine ⟨hwalked, fun hv => ?_, fun hv => ?_⟩
    · simpa [enterSlot, Branch.enter, hv] using hverdict
    · have hserved : w.verdict s call = .served b.target := by
        simpa [enterSlot, Branch.enter, hv] using hverdict
      obtain ⟨landing, hlanding⟩ := hdoes n hmem b (Node.mem_branches_of_selected hb)
      exact ⟨hserved, landing, hlanding, begin_of_does hserved hlanding⟩
  · intro hdue
    rw [Chain.published_of_due hwc ⟨hn, hself ▸ hdue⟩, hnodes]
  · intro hdue
    exact Chain.published_of_not_due hwc hn (hself ▸ hdue)
  · exact fun v hv => Node.selected_setSlot (hw n hmem) hn.covers built hv

/-- A site that has cached a method for `true` and then for an integer. `true` is served from the first
node and `false` comes to the open slot there; an integer fails the test of that node and is served
from the second one, where the try is counted; and `nil` fails both tests. -/
theorem System.walk_selects_position_warmSite :
    let call (receiver : Value) : Call := { name := "m", receiver }
    let w := (run (warmSite ++ [.begin ⟨0⟩ (call (.int 1)), .resume 1])).world
    let target (id : Nat) : Target Unit :=
      .direct ⟨⟨{ name := "m", alwaysClone := true, body := () }, id, .object⟩, true⟩
    let onBooleans : Node Unit := .boolean ⟨"m", .boolean⟩ none (some ⟨[⟨10⟩], target 2, 0⟩)
    let onIntegers (entered : Nat) : Node Unit :=
      .single ⟨"m", .exactly .int⟩ (some ⟨[⟨12⟩], target 3, entered⟩)
    let ns : List (Node Unit) := [onBooleans, onIntegers 0]
    (w.site ⟨0⟩).chain.links = .ofNodes ns ∧ (∀ n ∈ ns, n.WellFormed) ∧
    (∀ v, ∀ n ∈ ns, ∀ b ∈ n.branches,
      ∃ landing, b.target.Does (call v) (w.site ⟨0⟩).options.action landing) ∧
    w.verdict ⟨0⟩ (call (.bool true)) = .served (target 2) ∧
    w.verdict ⟨0⟩ (call (.bool false)) = .generic ∧
    (w.verdict ⟨0⟩ (call (.int 7)) = .served (target 3) ∧
      ((w.site ⟨0⟩).chain.walked w.isValid (call (.int 7))).nodes = [onBooleans, onIntegers 1]) ∧
    w.verdict ⟨0⟩ (call .nil) = .generic := by
  intro call w target onBooleans onIntegers ns
  have hlinks : (w.site ⟨0⟩).chain.links = .ofNodes ns := by decide +kernel
  have haction : (w.site ⟨0⟩).options.action = .invoke := by decide +kernel
  have hw : ∀ n ∈ ns, n.WellFormed := by
    simp [ns, onBooleans, onIntegers, Node.WellFormed, Shape.isBool]
  have htargets : ∀ n ∈ ns, ∀ b ∈ n.branches, b.target = target 2 ∨ b.target = target 3 := by
    decide +kernel
  have hdoes : ∀ v, ∀ n ∈ ns, ∀ b ∈ n.branches,
      ∃ landing, b.target.Does (call v) (w.site ⟨0⟩).options.action landing := by
    intro v n hn b hb
    obtain h | h := htargets n hn b hb <;> rw [haction, h] <;> exact ⟨_, .direct _⟩
  -- the place that the walk must come to, for each receiver
  have htrue : (w.site ⟨0⟩).chain.position? "m" (.bool true) = some 0 := by decide +kernel
  have hfalse : (w.site ⟨0⟩).chain.position? "m" (.bool false) = some 0 := by decide +kernel
  have hint : (w.site ⟨0⟩).chain.position? "m" .int = some 1 := by decide +kernel
  have hnil : (w.site ⟨0⟩).chain.position? "m" .nil = none := by decide +kernel
  have hwalk (v : Value) := World.walk_selects_position w ⟨0⟩ ns hlinks hw (call v) (hdoes v)
  obtain ⟨_, hn, _, htaken, _⟩ := (hwalk (.bool true)).2.2 0 htrue
  obtain rfl := Option.some.inj hn
  obtain ⟨_, hm, hopen, _⟩ := (hwalk (.bool false)).2.2 0 hfalse
  obtain rfl := Option.some.inj hm
  obtain ⟨_, hk, _, hpassed, _⟩ := (hwalk (.int 7)).2.2 1 hint
  obtain rfl := Option.some.inj hk
  obtain ⟨_, _, hserved⟩ := htaken _ rfl
  obtain ⟨hcounted, _, hserved'⟩ := hpassed _ rfl
  exact ⟨hlinks, hw, hdoes, (hserved (by decide +kernel)).1, (hopen rfl).1,
    ⟨(hserved' (by decide +kernel)).1, congrArg Chain.nodes hcounted⟩, ((hwalk .nil).2.1 hnil).1⟩

end InlineCache
