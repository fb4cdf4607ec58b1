import InlineCache.Proofs.Cache.Classes
import InlineCache.Proofs.Registry.Hierarchy
import InlineCache.Proofs.Scenario.Independence

/-! The labels in the report of a run. A branch is labelled by what it tests for: a kind of builtin
values by the word for the kind, the objects of a class by the name of the class. No two kinds have the
same word and no two classes the same name, but a class may be called like a kind, as the class of
integers is. Labels are mistaken for one another in this way and in no other. -/
namespace InlineCache

variable {β : Type}

namespace Registry

/-- A kind of builtin values, and the objects of a class that is called what the kind is called. -/
inductive Namesakes (r : Registry β) : Shape → Shape → Prop
  | intro {kind : Shape} {c : ClassId} (builtin : ∀ d, kind ≠ .ofClass d) (defined : r.Defined c)
      (named : r.className c = kind.display) : Namesakes r kind (.ofClass c)

variable {r : Registry β}

/-- No two classes have the same name. -/
theorem className_injective (h : IsTree r.tree) {c d : ClassId} (hc : r.Defined c) (hd : r.Defined d)
    (hname : r.className c = r.className d) : c = d :=
  (Prod.mk.inj (List.inj_on_of_nodup_map (nodup_classList h).1 (className_iff_mem.mp ⟨hc, rfl⟩)
    (className_iff_mem.mp ⟨hd, rfl⟩) hname)).2

/-- The classes with the first eight numbers are the builtin ones. -/
theorem mem_builtinClasses (h : IsTree r.tree) {rest : List (String × ClassId)}
    (hlist : r.classList = builtinClasses ++ rest) {name : String} {c : ClassId}
    (hmem : (name, c) ∈ r.classList) (hc : c.number < 8) : (name, c) ∈ builtinClasses := by
  have hall : ∀ i, i < 8 → ∃ p ∈ builtinClasses, p.2 = ⟨i⟩ := by decide
  obtain ⟨p, hp, hpc⟩ := hall c.number hc
  have hsame := List.inj_on_of_nodup_map (nodup_classList h).2 hmem
    (hlist ▸ List.mem_append_left rest hp) hpc.symm
  rwa [hsame]

/-- A kind that is called like a builtin class is called like its own one. The other kinds are only
called like classes that were defined. -/
theorem Namesakes.cases (h : IsTree r.tree) {rest : List (String × ClassId)}
    (hlist : r.classList = builtinClasses ++ rest) {kind : Shape} {c : ClassId}
    (hn : r.Namesakes kind (.ofClass c)) :
    (kind ∈ [.int, .float, .symbol, .str] ∧ c = kind.classId) ∨
      (kind ∈ [.nil, .bool false, .bool true] ∧ 8 ≤ c.number) := by
  obtain ⟨hkind, hdefined, hname⟩ := hn
  have hmem := className_iff_mem.mp ⟨hdefined, hname⟩
  have hown : (kind.display, kind.classId) ∈ builtinClasses → c = kind.classId := by
    intro hb
    have hmem' : (kind.display, kind.classId) ∈ r.classList := hlist ▸ List.mem_append_left rest hb
    exact (Prod.mk.inj (List.inj_on_of_nodup_map (nodup_classList h).1 hmem hmem' rfl)).2
  have hnew : (∀ p ∈ builtinClasses, p.1 ≠ kind.display) → 8 ≤ c.number := fun hb =>
    Nat.le_of_not_lt fun hlt => hb _ (mem_builtinClasses h hlist hmem hlt) rfl
  cases kind with
  | int | float | symbol | str => exact .inl ⟨by simp, hown (by decide)⟩
  | nil => exact .inr ⟨by simp, hnew (by decide)⟩
  | bool b => cases b <;> exact .inr ⟨by simp, hnew (by decide)⟩
  | ofClass d => exact absurd rfl (hkind d)

end Registry

namespace System

theorem isTree_run (events : List (Event β)) :
    Registry.IsTree (run events).world.registry.tree := by
  rw [run, registry_runFrom]
  exact Registry.isTree_performAll _

theorem classList_run (events : List (Event β)) :
    ∃ rest, (run events).world.registry.classList = Registry.builtinClasses ++ rest := by
  rw [run, registry_runFrom]
  exact ⟨_, (Registry.classList_performAll _ _).trans (congrArg (· ++ _) Registry.classList_builtin)⟩

end System

namespace World.Reached

variable {w : World β} (h : w.Reached) {s : SiteId} {n m : Node β}
include h

theorem isTree : Registry.IsTree w.registry.tree := by
  obtain ⟨events, rfl⟩ := h
  exact System.isTree_run events

theorem classList : ∃ rest, w.registry.classList = Registry.builtinClasses ++ rest := by
  obtain ⟨events, rfl⟩ := h
  exact System.classList_run events

theorem wellFormed (hn : n ∈ (w.site s).chain.nodes) : n.WellFormed := by
  obtain ⟨events, rfl⟩ := h
  exact ((System.coherent_run events).chains s).wellFormed n hn

/-- Nodes that are in charge of the objects of a class are so of a class that is defined. -/
theorem defined_of_covers (hn : n ∈ (w.site s).chain.nodes) {name : String} {c : ClassId}
    (hc : n.covers name (.ofClass c) = true) : w.registry.Defined c := by
  have hguard := (Node.covers_iff_guard (h.wellFormed hn)).mp hc
  obtain ⟨events, rfl⟩ := h
  exact (System.classesDefined_run events).guards s name c (hguard ▸ List.mem_map_of_mem hn)

/-- At most one node is in charge of a message and a shape. -/
theorem index_unique {i j : Nat} (hi : (w.site s).chain.nodes[i]? = some n)
    (hj : (w.site s).chain.nodes[j]? = some m) {name : String} {shape : Shape}
    (hn : n.covers name shape = true) (hm : m.covers name shape = true) : i = j := by
  rw [Node.covers_iff_guard (h.wellFormed (List.mem_of_getElem? hi))] at hn
  rw [Node.covers_iff_guard (h.wellFormed (List.mem_of_getElem? hj))] at hm
  obtain ⟨events, rfl⟩ := h
  exact (System.counted_run events s).proper.index_unique hi hj (hn.trans hm.symm)

end World.Reached

namespace Registry

@[simp] theorem shape_describeSlot (r : Registry β) (shape : String) (slot : Option (Branch β)) :
    (r.describeSlot shape slot).shape = shape := by
  cases slot <;> rfl

@[simp] theorem method_describeNode (r : Registry β) (label : Shape → String) (n : Node β) :
    (r.describeNode label n).method = n.guard.name := by
  cases n <;> rfl

/-- The branches of a node are labelled by the shapes that the node is in charge of. -/
theorem exists_branch_iff (r : Registry β) {label : Shape → String}
    (hlabel : ∀ b, label (.bool b) = (Shape.bool b).display) {n : Node β} (hw : n.WellFormed)
    {text : String} : (∃ b ∈ (r.describeNode label n).branches, b.shape = text) ↔
      ∃ shape, n.covers n.guard.name shape = true ∧ label shape = text := by
  cases n with
  | boolean g onFalse onTrue =>
    simp only [Node.covers_boolean hw, Node.guard, describeNode, true_and]
    simp [hlabel, Shape.display]
  | single g branch =>
    obtain ⟨shape, hshape, _⟩ := hw
    simp [Node.covers_single hshape, Node.guard, describeNode, hshape]

end Registry

namespace Scenario

section Label

variable {s : Stage} {σ τ : Shape}

theorem Stage.label_of_kind (h : ∀ c, σ ≠ .ofClass c) : s.label σ = σ.display := by
  cases σ with
  | ofClass c => exact absurd rfl (h c)
  | _ => rfl

theorem display_injective (hσ : ∀ c, σ ≠ .ofClass c) (hτ : ∀ c, τ ≠ .ofClass c)
    (h : σ.display = τ.display) : σ = τ := by
  cases σ <;> cases τ <;> simp_all [Shape.display] <;> split at h <;> simp_all

/-- Two shapes have the same label only as namesakes. -/
theorem Stage.label_eq_iff (htree : Registry.IsTree s.world.registry.tree)
    (hσ : ∀ c, σ = .ofClass c → s.world.registry.Defined c)
    (hτ : ∀ c, τ = .ofClass c → s.world.registry.Defined c) (hne : σ ≠ τ) :
    s.label σ = s.label τ ↔
      s.world.registry.Namesakes σ τ ∨ s.world.registry.Namesakes τ σ := by
  constructor
  · intro h
    by_cases hkind : ∀ c, σ ≠ .ofClass c
    · by_cases hkind' : ∀ c, τ ≠ .ofClass c
      · rw [label_of_kind hkind, label_of_kind hkind'] at h
        exact absurd (display_injective hkind hkind' h) hne
      · obtain ⟨d, hd⟩ := not_forall_not.mp hkind'
        subst hd
        exact .inl ⟨hkind, hτ d rfl, h.symm.trans (label_of_kind hkind)⟩
    · obtain ⟨c, hc⟩ := not_forall_not.mp hkind
      subst hc
      by_cases hkind' : ∀ c, τ ≠ .ofClass c
      · exact .inr ⟨hkind', hσ c rfl, h.trans (label_of_kind hkind')⟩
      · -- two classes: their names differ, as both are defined
        obtain ⟨d, hd⟩ := not_forall_not.mp hkind'
        subst hd
        exact absurd (congrArg _ (Registry.className_injective htree (hσ c rfl) (hτ d rfl) h)) hne
  · rintro (⟨hkind, _, hname⟩ | ⟨hkind, _, hname⟩)
    · exact (label_of_kind hkind).trans hname.symm
    · exact hname.trans (label_of_kind hkind).symm

end Label

/-- Two nodes of a chain have a label in common only if they are in charge of namesakes. -/
theorem Stage.common_label_iff {s : Stage} (hs : s.world.Reached) {id : SiteId} {i j : Nat}
    {n m : Node Body} (hi : (s.world.site id).chain.nodes[i]? = some n)
    (hj : (s.world.site id).chain.nodes[j]? = some m) (hij : i ≠ j)
    (hname : n.guard.name = m.guard.name) :
    (∃ a ∈ (s.world.registry.describeNode s.label n).branches,
      ∃ b ∈ (s.world.registry.describeNode s.label m).branches, a.shape = b.shape) ↔
      ∃ σ τ, n.covers n.guard.name σ = true ∧ m.covers m.guard.name τ = true ∧
        (s.world.registry.Namesakes σ τ ∨ s.world.registry.Namesakes τ σ) := by
  have hn := List.mem_of_getElem? hi
  have hm := List.mem_of_getElem? hj
  have hbool : ∀ b, s.label (.bool b) = (Shape.bool b).display := fun _ => rfl
  have hbranches : ∀ x ∈ (s.world.site id).chain.nodes, ∀ text,
      (∃ b ∈ (s.world.registry.describeNode s.label x).branches, b.shape = text) ↔
        ∃ shape, x.covers x.guard.name shape = true ∧ s.label shape = text :=
    fun x hx _ => Registry.exists_branch_iff s.world.registry hbool (hs.wellFormed hx)
  have hcommon : ∀ σ τ, n.covers n.guard.name σ = true → m.covers m.guard.name τ = true →
      (s.label σ = s.label τ ↔
        s.world.registry.Namesakes σ τ ∨ s.world.registry.Namesakes τ σ) := by
    intro σ τ hσ hτ
    -- a shape that both nodes are in charge of would have its node twice
    refine Stage.label_eq_iff hs.isTree (fun c hc => hs.defined_of_covers hn (hc ▸ hσ))
      (fun c hc => hs.defined_of_covers hm (hc ▸ hτ)) ?_
    rintro rfl
    exact hij (hs.index_unique hi hj hσ (hname ▸ hτ))
  constructor
  · rintro ⟨a, ha, b, hb, hab⟩
    obtain ⟨σ, hσ, hlσ⟩ := (hbranches n hn _).mp ⟨a, ha, rfl⟩
    obtain ⟨τ, hτ, hlτ⟩ := (hbranches m hm _).mp ⟨b, hb, rfl⟩
    exact ⟨σ, τ, hσ, hτ, (hcommon σ τ hσ hτ).mp (hlσ.trans (hab.trans hlτ.symm))⟩
  · rintro ⟨σ, τ, hσ, hτ, hsame⟩
    obtain ⟨a, ha, hla⟩ := (hbranches n hn _).mpr ⟨σ, hσ, rfl⟩
    obtain ⟨b, hb, hlb⟩ := (hbranches m hm _).mpr ⟨τ, hτ, rfl⟩
    exact ⟨a, ha, b, hb, hla.trans (((hcommon σ τ hσ hτ).mpr hsame).trans hlb.symm)⟩

/-- What a run reports of its sites is what the stage that it comes to tells of them. -/
theorem exists_stage_of_run {s : Scenario} {c : Config} {report : RunReport}
    (h : run s c = .ok report) :
    ∃ stage : Stage, (build s c >>= fun start => start.performAll 1 s.steps) =
        .ok (stage, report.steps) ∧
      report.sites = stage.sites.map (fun e => stage.world.describe stage.label e.2) ∧
      stage.world.Reached := by
  have hagree : Agree (fun (a : Stage × List StepReport) _ => a.1.world.Reached)
      (build s c >>= fun start => start.performAll 1 s.steps)
      (Interpreter.build s >>= fun start => start.performAll 1 s.steps) :=
    (build_shows s c).bind fun stage p hshows =>
      (hshows.performAll 1 s.steps).mono fun _ _ hab => hab.1.reached
  have hrun : run s c = (build s c >>= fun start => start.performAll 1 s.steps) >>= fun p =>
      .ok { maxChainLength := c.maxChainLength, steps := p.2,
            sites := p.1.sites.map fun e => p.1.world.describe p.1.label e.2 } := by
    rw [bind_assoc]
    rfl
  rw [hrun] at h
  generalize (build s c >>= fun start => start.performAll 1 s.steps) = outcome at h hagree
  generalize (Interpreter.build s >>= fun start => start.performAll 1 s.steps) = plain at hagree
  cases hagree with
  | @ok p _ hreached =>
    obtain rfl := Except.ok.inj h
    exact ⟨p.1, rfl, rfl, hreached⟩
  | error e => cases h

/-- In every report of a run, whatever the scenario and its settings, two nodes of a site for the same
message have a label in common exactly if one is in charge of a kind of builtin values and the other of
the objects of a class that is called like the kind. This is the builtin class of the kind, for
integers, floats, symbols and texts, or else a class of the scenario that is called `nil`, `true` or
`false`. -/
theorem common_label_iff_namesakes (s : Scenario) (c : Config) (report : RunReport)
    (h : run s c = .ok report) :
    ∃ stage : Stage, (build s c >>= fun start => start.performAll 1 s.steps) =
        .ok (stage, report.steps) ∧
      report.sites = stage.sites.map (fun e => stage.world.describe stage.label e.2) ∧
      (∀ (id : SiteId) (i j : Nat) (x y : NodeReport),
        (stage.world.describe stage.label id).nodes[i]? = some x →
        (stage.world.describe stage.label id).nodes[j]? = some y →
        i ≠ j → x.method = y.method →
        ∃ n m, (stage.world.site id).chain.nodes[i]? = some n ∧
          (stage.world.site id).chain.nodes[j]? = some m ∧
          ((∃ a ∈ x.branches, ∃ b ∈ y.branches, a.shape = b.shape) ↔
            ∃ σ τ, n.covers x.method σ = true ∧ m.covers y.method τ = true ∧
              (stage.world.registry.Namesakes σ τ ∨ stage.world.registry.Namesakes τ σ))) ∧
      ∀ (kind : Shape) (d : ClassId), stage.world.registry.Namesakes kind (.ofClass d) →
        (kind ∈ [.int, .float, .symbol, .str] ∧ d = kind.classId) ∨
          (kind ∈ [.nil, .bool false, .bool true] ∧ 8 ≤ d.number) := by
  obtain ⟨stage, hrun, hsites, hreached⟩ := exists_stage_of_run h
  refine ⟨stage, hrun, hsites, fun id i j x y hx hy hij hmethod => ?_, fun kind d hn => ?_⟩
  · simp only [World.describe, List.getElem?_map, Option.map_eq_some_iff] at hx hy
    obtain ⟨n, hi, rfl⟩ := hx
    obtain ⟨m, hj, rfl⟩ := hy
    rw [Registry.method_describeNode, Registry.method_describeNode] at hmethod ⊢
    exact ⟨n, m, hi, hj, Stage.common_label_iff hreached hi hj hij hmethod⟩
  · obtain ⟨rest, hlist⟩ := hreached.classList
    exact hn.cases hreached.isTree hlist

/-- A message to an integer and to an object of the class of integers. -/
def integers : Scenario where
  methods := [{ className := "Integer", name := "m", returns := some "1" }]
  sites := [{ name := "m" }]
  steps := [.call { site := "m", receiver := "1" }, .call { site := "m", receiver := "new Integer" }]

/-- The node for the integer, and the one for the object, as they are both reported. -/
def integerNode : NodeReport :=
  { kind := "single", method := "m"
    branches := [{ shape := "Integer", cached := true, valid := true, target := some "Integer#m" }] }

def integersReport : RunReport where
  maxChainLength := 8
  steps := [{ index := 1, description := "m: m(1)", result := "1" },
    { index := 2, description := "m: m(new Integer)", result := "1" }]
  sites := [{
    name := "m", state := .polymorphic, installed := 2, bound := 8, nodes := [integerNode, integerNode]
    stats := { misses := 2, installs := 2 } }]

/-- The run comes to a stage where the site has the two nodes, and what they are in charge of goes by
one name. -/
theorem common_label_iff_namesakes_integers : run integers {} = .ok integersReport ∧
    ∃ (stage : Stage) (n m : Node Body) (σ τ : Shape),
      (build integers {} >>= fun start => start.performAll 1 integers.steps) =
        .ok (stage, integersReport.steps) ∧
      (stage.world.site ⟨0⟩).chain.nodes[0]? = some n ∧
      (stage.world.site ⟨0⟩).chain.nodes[1]? = some m ∧
      n.covers "m" σ = true ∧ m.covers "m" τ = true ∧
      (stage.world.registry.Namesakes σ τ ∨ stage.world.registry.Namesakes τ σ) := by
  have hrun : run integers {} = .ok integersReport := by decide +kernel
  refine ⟨hrun, ?_⟩
  obtain ⟨stage, hstage, hsites, hnodes, _⟩ := common_label_iff_namesakes integers {} _ hrun
  have hplaces : (build integers {} >>= fun start => start.performAll 1 integers.steps).map
      (fun p => p.1.sites) = .ok [("m", ⟨0⟩)] := by decide +kernel
  rw [hstage] at hplaces
  have hone : stage.sites = [("m", ⟨0⟩)] := Except.ok.inj hplaces
  rw [hone] at hsites
  have hshown : (stage.world.describe stage.label ⟨0⟩).nodes = [integerNode, integerNode] :=
    (congrArg SiteReport.nodes (List.cons.inj hsites).1).symm
  obtain ⟨n, m, hn, hm, hcommon⟩ := hnodes ⟨0⟩ 0 1 integerNode integerNode (by rw [hshown]; rfl)
    (by rw [hshown]; rfl) nofun rfl
  obtain ⟨σ, τ, hσ, hτ, hnames⟩ := hcommon.mp ⟨_, List.mem_singleton_self _, _,
    List.mem_singleton_self _, rfl⟩
  exact ⟨stage, n, m, σ, τ, hstage, hn, hm, hσ, hτ, hnames⟩

/-- The two nodes are told apart by nothing in the report. -/
theorem integer_labels_coincide :
    ∃ report, run integers {} = .ok report ∧ ∃ site ∈ report.sites, ∃ (i j : Nat) (x y : NodeReport),
      i ≠ j ∧ site.nodes[i]? = some x ∧ site.nodes[j]? = some y ∧ x.method = y.method ∧
        ∃ a ∈ x.branches, ∃ b ∈ y.branches, a.shape = b.shape :=
  ⟨integersReport, by decide +kernel, _, List.mem_singleton_self _, 0, 1, integerNode, integerNode,
    nofun, rfl, rfl, rfl, _, List.mem_singleton_self _, _, List.mem_singleton_self _, rfl⟩

end Scenario
end InlineCache
