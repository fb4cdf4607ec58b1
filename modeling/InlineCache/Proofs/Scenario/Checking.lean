import InlineCache.Proofs.Scenario.Independence

/-! Checking a scenario and running it find the same fault. A step is checked against the names of the
classes and sites alone. No step changes these, and a step that passes its check is carried out,
whatever a call comes to. So the check can stay with the first stage while the run goes on. -/
namespace InlineCache.Scenario

section Names

theorem classId_of_names (r : Registry Body) (name : String) : r.classId? name =
    ((r.classes.map ClassEntry.name).findIdx? fun n => n == name).map ClassId.mk := by
  rw [Registry.classId?, Array.findIdx?_map]
  rfl

theorem classNames_change {f : ClassEntry Body → ClassEntry Body} (hf : ∀ e, (f e).name = e.name)
    (r : Registry Body) (c : ClassId) :
    (r.change c f).classes.map ClassEntry.name = r.classes.map ClassEntry.name := by
  rw [Registry.map_change (g := ClassEntry.name) (fun _ _ => rfl), Registry.edited]
  exact (map_modify (k := id) hf r.classes c.number).trans (modify_id _ _)

/-- All that a check looks at: the names of the classes and of the sites. -/
structure Stage.SameNames (s t : Stage) : Prop where
  classes : s.world.registry.classes.map ClassEntry.name =
    t.world.registry.classes.map ClassEntry.name
  sites : s.sites.map Prod.fst = t.sites.map Prod.fst

namespace Stage.SameNames

variable {s t u : Stage}

theorem refl (s : Stage) : s.SameNames s := ⟨rfl, rfl⟩

/-- Another world with classes of the same names. -/
theorem of_world {w : World Body} (h : w.registry.classes.map ClassEntry.name =
    s.world.registry.classes.map ClassEntry.name) : ({ s with world := w } : Stage).SameNames s :=
  ⟨h, rfl⟩

theorem symm (h : s.SameNames t) : t.SameNames s := ⟨h.classes.symm, h.sites.symm⟩

theorem trans (h : s.SameNames t) (h' : t.SameNames u) : s.SameNames u :=
  ⟨h.classes.trans h'.classes, h.sites.trans h'.sites⟩

theorem classId? (h : s.SameNames t) (name : String) :
    s.world.registry.classId? name = t.world.registry.classId? name := by
  rw [classId_of_names, classId_of_names, h.classes]

theorem classId (h : s.SameNames t) (name : String) : s.classId name = t.classId name := by
  rw [Stage.classId, Stage.classId, h.classId?]

theorem site (h : s.SameNames t) (name : String) :
    Agree (fun _ _ => True) (s.site name) (t.site name) := by
  have hfound := congrArg (fun l : List String => (l.find? fun n => n == name).isSome) h.sites
  simp only [List.find?_map, Option.isSome_map, Function.comp_def] at hfound
  rw [Stage.site, Stage.site]
  cases hs : s.sites.find? fun e => e.1 == name <;>
    cases ht : t.sites.find? fun e => e.1 == name
  · exact .error _
  · simp [hs, ht] at hfound
  · simp [hs, ht] at hfound
  · exact .ok trivial

end Stage.SameNames

end Names

section Steps

/-- Both stages of a pair of readings have kept the names. -/
structure Alike {α : Type} (s t : Stage) (a b : Stage × α) : Prop where
  left : a.1.SameNames s
  right : b.1.SameNames t

variable {s t : Stage}

theorem Alike.between {α : Type} {a b : Stage × α} (h : Alike s t a b) (hst : s.SameNames t) :
    a.1.SameNames b.1 := h.left.trans (hst.trans h.right.symm)

theorem literal_alike (h : s.SameNames t) (raw : String) :
    Agree (Alike s t) (s.literal raw) (t.literal raw) := by
  rw [Stage.literal, Stage.literal, evalLiteral, evalLiteral]
  cases Literal.read raw with
  | error e => exact .error _
  | ok l =>
    cases l with
    | value v => exact .ok ⟨.refl s, .refl t⟩
    | new name =>
      simp only [h.classId?]
      cases t.world.registry.classId? name with
      | none => exact .error _
      | some c => exact .ok ⟨.of_world rfl, .of_world rfl⟩

theorem literals_alike (h : s.SameNames t) (raws : List String) :
    Agree (Alike s t) (s.literals raws) (t.literals raws) := by
  induction raws generalizing s t with
  | nil => exact .ok ⟨.refl s, .refl t⟩
  | cons raw rest ih =>
    refine (literal_alike h raw).bind fun a b hread => ?_
    refine (ih (hread.between h)).bind fun a' b' hrest => ?_
    exact .ok ⟨hrest.left.trans hread.left, hrest.right.trans hread.right⟩

theorem body_alike (h : s.SameNames t) (m : MethodSpec) :
    Agree (Alike s t) (s.body m) (t.body m) := by
  rw [Stage.body, Stage.body]
  cases m.returns with
  | some raw =>
    cases m.fails with
    | some message => exact .error _
    | none => exact (literal_alike h raw).bind fun a b hread => .ok ⟨hread.left, hread.right⟩
  | none =>
    cases m.fails with
    | some message => exact .ok ⟨.refl s, .refl t⟩
    | none => exact .error _

/-- A class that is found by name is there for a definition, which keeps the names. -/
theorem defineMethod_kept {c : ClassId} {name : String}
    (hc : s.world.registry.classId? name = some c) (d : MethodDef Body) :
    ∃ m, (s.world.defineMethod c d).2 = .ok m ∧
      ({ s with world := (s.world.defineMethod c d).1 } : Stage).SameNames s := by
  obtain ⟨e, he⟩ := Registry.exists_entry_of_classId hc
  rw [defineMethod_of_entry he]
  exact ⟨_, rfl, .of_world (classNames_change (fun _ => by rfl) _ c)⟩

theorem removeMethod_kept {c : ClassId} {name : String}
    (hc : s.world.registry.classId? name = some c) (key : String) :
    ∃ removed, (s.world.removeMethod c key).2 = .ok removed ∧
      ({ s with world := (s.world.removeMethod c key).1 } : Stage).SameNames s := by
  obtain ⟨e, he⟩ := Registry.exists_entry_of_classId hc
  rw [removeMethod_of_entry he]
  refine ⟨_, rfl, .of_world ?_⟩
  split
  · exact classNames_change (fun _ => by rfl) _ c
  · rfl

theorem define_checked (h : s.SameNames t) (m : MethodSpec) :
    Agree (fun _ b => b.SameNames t) (s.check (.define m)) (t.define m) := by
  simp only [Stage.check, Stage.define, h.classId]
  cases hc : t.classId m.className with
  | error f => exact .error f
  | ok c =>
    refine (body_alike h m).bind fun a b hread => ?_
    have hfound : b.1.world.registry.classId? m.className = some c := by
      rw [hread.right.classId?, classId?_of_ok hc]
    obtain ⟨method, hok, hnames⟩ := defineMethod_kept hfound
      { name := m.name, isPrivate := m.isPrivate, alwaysClone := m.alwaysClone, body := b.2 }
    simp only [hok]
    exact .ok (hnames.trans hread.right)

/-- A step fails only as its check does, in any stage with the same names; else it is reported under
its number, and the names are as before. -/
theorem perform_checked (h : s.SameNames t) (index : Nat) (step : StepSpec) :
    Agree (fun _ b => b.1.SameNames t ∧ b.2.index = index) (s.check step)
      (t.perform index step) := by
  cases step with
  | call c =>
    -- the check has the site of its own stage, and makes nothing of it
    refine (h.site c.site).bind fun i j _ => ?_
    refine (literal_alike h c.receiver).bind fun a b hread => ?_
    refine (literals_alike (hread.between h) c.args).bind fun a' b' hrest => ?_
    have hsend : ∀ call, ({ b'.1 with world := (b'.1.world.send j call Body.result).1 } : Stage).SameNames
        b'.1 := fun call => .of_world (by rw [World.registry_send])
    exact .ok ⟨(hsend _).trans (hrest.right.trans hread.right), rfl⟩
  | define m => exact (define_checked h m).bind_right fun _ _ hnames => .ok ⟨hnames, rfl⟩
  | remove className name =>
    simp only [Stage.check, Stage.perform, h.classId]
    cases hc : t.classId className with
    | error f => exact .error f
    | ok c =>
      obtain ⟨removed, hok, hnames⟩ := removeMethod_kept (classId?_of_ok hc) name
      simp only [bind, Except.bind, hok]
      exact .ok ⟨hnames, rfl⟩

end Steps

/-- The run may have gone on from the stage that the steps are checked in. -/
theorem performAll_checked {s t : Stage} (h : s.SameNames t) (index : Nat) (steps : List StepSpec) :
    Agree (fun _ b => b.2.map StepReport.index = List.range' index steps.length)
      (s.checkAll index steps) (t.performAll index steps) := by
  induction steps generalizing t index with
  | nil => exact .ok rfl
  | cons step rest ih =>
    refine (agree_within (perform_checked h index step) (.inStep index)).bind ?_
    rintro _ ⟨t₁, report⟩ ⟨hnames, rfl⟩
    refine (ih (h.trans hnames.symm) (report.index + 1)).bind_right ?_
    rintro _ ⟨t₂, reports⟩ hreports
    exact .ok (congrArg (List.cons report.index) hreports)

theorem Stage.Shows.sameNames {s t : Stage} {p : Interpreter} (hs : s.Shows p) (ht : t.Shows p) :
    s.SameNames t where
  classes := by
    have hclasses := congrArg (Array.map PlainClass.name) (hs.classes.trans ht.classes.symm)
    rw [Array.map_map, Array.map_map] at hclasses
    exact hclasses
  sites := by
    have hsites := congrArg (List.map Prod.fst) (hs.sites.trans ht.sites.symm)
    rw [List.map_map, List.map_map] at hsites
    exact hsites

/-- All settings give the same names. -/
theorem build_sameNames (s : Scenario) (c c' : Config) :
    Agree Stage.SameNames (build s c) (build s c') :=
  ((build_shows s c).join (build_shows s c')).mono fun _ _ ⟨_, h, h'⟩ => h.sameNames h'

theorem run_checked (s : Scenario) (c : Config) :
    Agree (fun _ report => report.steps.map StepReport.index = List.range' 1 s.steps.length)
      (check s) (run s c) := by
  refine (build_sameNames s (s.config.getD {}) c).bind fun stage stage' h => ?_
  refine (performAll_checked h 1 s.steps).bind ?_
  rintro _ ⟨_, reports⟩ hreports
  exact .ok hreports

/-- Checking finds a fault if and only if running does, under any settings, and it is the same fault at
the same place. A scenario that passes the check is run to its end, with a report for each step. In
any stage at all a step fails only with a fault that its check finds, so never for what a call
comes to. -/
theorem check_agrees_with_run (s : Scenario) (c : Config) :
    (∀ f, check s = .error f ↔ run s c = .error f) ∧
      (run s c).map (fun report => report.steps.map StepReport.index) =
        (check s).map (fun _ => List.range' 1 s.steps.length) ∧
      ∀ (stage : Stage) (index : Nat) (step : StepSpec) (f : Fault),
        stage.perform index step = .error f ↔ stage.check step = .error f := by
  have hrun := run_checked s c
  refine ⟨hrun.error_iff, ?_, fun stage index step f =>
    ((perform_checked (.refl stage) index step).error_iff f).symm⟩
  exact (hrun.map fun _ _ h => h.symm).eq.symm

end InlineCache.Scenario
