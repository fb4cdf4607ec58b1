import InlineCache.Proofs.Agreement
import InlineCache.Proofs.Scenario.Interpreter
import InlineCache.Proofs.World.Sequential

/-! Scenarios do not depend on their caches. A stage shows an interpreter: what is in it apart from
tokens, chains, counters and settings. Every part of a scenario takes a stage and the interpreter it
shows to the same fault, or to a stage and an interpreter that it shows; a call does so because a
send replies what full dispatch decides. -/
namespace InlineCache.Scenario

/-- What an interpreter keeps of a method. -/
def plainMethod (m : Method Body) : Definition := { isPrivate := m.isPrivate, body := m.body }

def plainClass (e : ClassEntry Body) : PlainClass :=
  { name := e.name, superclass := e.superclass
    methods := fun name => (e.methods.get? name).map plainMethod }

def plainSite (x : Site Body) : PlainSite := { message := x.name, options := x.options }

/-- A stage that a run of events comes to, and what an interpreter keeps of it. The first class is there
for classes without a superclass, the first invoker for all sites. -/
structure Stage.Shows (s : Stage) (p : Interpreter) : Prop where
  classes : s.world.registry.classes.map plainClass = p.classes
  sites : s.sites.map (fun e => (e.1, plainSite (s.world.site e.2))) = p.sites
  nextObject : s.world.nextObject = p.nextObject
  inside : ∀ e ∈ s.sites, e.2.place < s.world.sites.size
  rooted : 0 < p.classes.size
  invoker : 0 < s.world.invokers.size
  reached : s.world.Reached

section Lookups

variable {r : Registry Body} {p : Interpreter} (h : r.classes.map plainClass = p.classes)
include h

theorem entry_plain (c : ClassId) : p.classes[c.number]? = (r.entry? c).map plainClass := by
  rw [← h, Array.getElem?_map, Registry.entry?]

theorem classId_plain (name : String) : r.classId? name = p.classId? name := by
  rw [Registry.classId?, Interpreter.classId?, ← h, Array.findIdx?_map]
  rfl

theorem className_plain (c : ClassId) : r.className c = p.className c := by
  rw [Registry.className, Interpreter.className, entry_plain h]
  cases r.entry? c <;> rfl

theorem find_plain (c : ClassId) (name : String) :
    (r.find? c name).map plainMethod = p.find? c name := by
  -- both searches go up the tree, where the numbers of classes get smaller
  induction hn : c.number using Nat.strongRecOn generalizing c with
  | ind n ih =>
    subst hn
    rw [Interpreter.find?, entry_plain h]
    cases he : r.entry? c with
    | none =>
      rw [Registry.find?, Registry.ancestry_of_none he]
      rfl
    | some e =>
      rw [Registry.find?_of_some he, Option.map_some]
      simp only [plainClass]
      cases e.methods.get? name with
      | some m => simp
      | none =>
        cases e.superclass with
        | none => simp
        | some s =>
          by_cases hlt : s.number < c.number
          · simpa [hlt] using ih s.number hlt s rfl
          · simp [hlt]

theorem lookup_plain (c : ClassId) (name : String) (iv : Bool) :
    (r.resolve c name iv).method.map plainMethod = p.lookup c name iv := by
  rw [Interpreter.lookup, ← find_plain h, Registry.resolve]
  cases he : r.entry? c with
  | none =>
    rw [Registry.find?, Registry.ancestry_of_none he]
    rfl
  | some e =>
    cases r.find? c name with
    | none => rfl
    | some m => cases hm : iv || !m.isPrivate <;> simp [Option.filter, plainMethod, hm]

/-- Full dispatch in the registry replies what the interpreter answers. -/
theorem answer_plain (o : SiteOptions) (call : Call) :
    (r.dispatch o call).outcome Body.result = p.answer o call.name call.receiver := by
  have hrun : ∀ (c : Call) (m : Method Body),
      (Decision.invoke (c.activate m)).outcome Body.result = (plainMethod m).body.reply := by
    intro c m
    simp only [Decision.outcome, Body.result, Call.activate, plainMethod]
    cases m.body <;> rfl
  have hfound := lookup_plain h call.receiver.classId call.name o.ignoreVisibility
  rw [Interpreter.answer, ← hfound, ← lookup_plain h, ← className_plain h, Registry.dispatch,
    Registry.resolution, Registry.lookup]
  obtain ⟨action, missing, iv⟩ := o
  cases action with
  | probe => simp [Resolution.decide, Decision.outcome]
  | invoke =>
    cases hm : (r.resolve call.receiver.classId call.name iv).method with
    | some m => simpa [Resolution.decide, hm] using hrun call m
    | none =>
      cases missing with
      | returnMissing => simp [Resolution.decide, hm, Decision.outcome]
      | callHandler =>
        cases hh : (r.resolve call.receiver.classId handlerName true).method with
        | some m =>
          simpa [Resolution.decide, SiteOptions.wantsHandler, Resolution.handlerMethod?,
            Registry.lookupHandler, hm, hh] using hrun call.toHandler m
        | none =>
          simp [Resolution.decide, SiteOptions.wantsHandler, Resolution.handlerMethod?,
            Registry.lookupHandler, hm, hh, Decision.outcome]

end Lookups

section Changes

variable {r : Registry Body}

theorem classes_change {f : ClassEntry Body → ClassEntry Body} (k : PlainClass → PlainClass)
    (hf : ∀ e, plainClass (f e) = k (plainClass e)) (c : ClassId) :
    (r.change c f).classes.map plainClass = (r.classes.map plainClass).modify c.number k := by
  rw [Registry.map_change (g := plainClass) (fun _ _ => rfl), Registry.edited]
  exact map_modify hf r.classes c.number

theorem plainClass_put (e : ClassEntry Body) (m : Method Body) :
    plainClass { e with methods := e.methods.put m.name m } =
      (plainClass e).set m.name (some (plainMethod m)) := by
  rw [plainClass, PlainClass.set, PlainClass.mk.injEq]
  refine ⟨rfl, rfl, funext fun n => ?_⟩
  rw [Table.get?_put]
  by_cases hn : n = m.name
  · rw [if_pos hn, if_pos hn.symm, Option.map_some]
  · rw [if_neg hn, if_neg (Ne.symm hn)]
    rfl

theorem plainClass_erase (e : ClassEntry Body) (name : String) :
    plainClass { e with methods := e.methods.erase name } = (plainClass e).set name none := by
  rw [plainClass, PlainClass.set, PlainClass.mk.injEq]
  refine ⟨rfl, rfl, funext fun n => ?_⟩
  rw [Table.get?_erase]
  by_cases hn : n = name
  · rw [if_pos hn, if_pos hn.symm, Option.map_none]
  · rw [if_neg hn, if_neg (Ne.symm hn)]
    rfl

/-- To take away what is not there changes nothing. -/
theorem set_of_absent {p : Interpreter} {c : ClassId} {name : String} (h : p.own? c name = none) :
    p.set c name none = p := by
  have hsame : p.classes.modify c.number (fun e => e.set name none) = p.classes := by
    refine Array.ext_getElem? fun i => ?_
    rw [Array.getElem?_modify]
    split
    · rename_i hi
      subst hi
      cases he : p.classes[c.number]? with
      | none => rfl
      | some e =>
        rw [Interpreter.own?, he, Option.bind_some] at h
        rw [Option.map_some, PlainClass.set]
        refine congrArg some (congrArg (PlainClass.mk e.name e.superclass) (funext fun n => ?_))
        by_cases hn : n = name
        · rw [if_pos hn, hn, h]
        · rw [if_neg hn]
    · rfl
  rw [Interpreter.set, hsame]

variable {w : World Body} {c : ClassId} {e : ClassEntry Body}

/-- On a class that is there nothing is refused. -/
theorem setCacheable_of_entry (he : w.registry.entry? c = some e) (cacheable : Bool) :
    w.setCacheable c cacheable =
      ({ w with registry := w.registry.change c fun e => { e with cacheable } }, .ok ()) := by
  simp [World.setCacheable, Registry.setCacheable, he]

theorem defineMethod_of_entry (he : w.registry.entry? c = some e) (d : MethodDef Body) :
    let m : Method Body := { d with id := w.nextMethod, owner := c }
    w.defineMethod c d = ({ w with
      nextMethod := w.nextMethod + 1
      registry := w.registry.change c fun e => { e with methods := e.methods.put m.name m } },
        .ok m) := by
  intro m
  have hok : w.registry.defineMethod m =
      .ok (w.registry.change c fun e => { e with methods := e.methods.put m.name m }) := by
    simp [Registry.defineMethod, m, he]
  simp only [World.defineMethod]
  rw [show w.registry.defineMethod { d with id := w.nextMethod, owner := c } = _ from hok]

theorem removeMethod_of_entry (he : w.registry.entry? c = some e) (name : String) :
    w.removeMethod c name = ({ w with
      registry := if e.methods.contains name = true then
        w.registry.change c fun e => { e with methods := e.methods.erase name }
      else w.registry }, .ok (e.methods.contains name)) := by
  cases hc : e.methods.contains name <;>
    simp [World.removeMethod, Registry.removeMethod, he, hc]

end Changes

section Parts

variable {s : Stage} {p : Interpreter}

theorem plainSite_of_setup {x y : Site Body} (h : x.setup = y.setup) : plainSite x = plainSite y :=
  (congrArg plainSite h : plainSite x.setup = plainSite y.setup)

theorem classId?_of_ok {name : String} {c : ClassId} (h : s.classId name = .ok c) :
    s.world.registry.classId? name = some c := by
  rw [Stage.classId] at h
  cases hid : s.world.registry.classId? name with
  | none => simp [hid] at h
  | some d => simpa [hid] using h

/-- A stage with the next object numbered otherwise. -/
def Stage.numbered (s : Stage) (n : Nat) : Stage :=
  { s with world := { s.world with nextObject := n } }

def Interpreter.numbered (p : Interpreter) (n : Nat) : Interpreter := { p with nextObject := n }

/-- The same is read in a stage and in the interpreter that it shows, and nothing is left of it but the
numbering of objects. -/
structure Evaluates {α : Type} (s : Stage) (p : Interpreter) (a : Stage × α) (b : Interpreter × α) :
    Prop where
  shows : a.1.Shows b.1
  value : a.2 = b.2
  numbered : ∃ n, a.1 = s.numbered n ∧ b.1 = p.numbered n

namespace Evaluates

variable {α γ δ : Type} {a : Stage × α} {b : Interpreter × α}

theorem refl (h : s.Shows p) (v : α) : Evaluates s p (s, v) (p, v) :=
  ⟨h, rfl, s.world.nextObject, rfl, by rw [h.nextObject]; rfl⟩

theorem trans (h : Evaluates s p a b) {a' : Stage × γ} {b' : Interpreter × γ}
    (h' : Evaluates a.1 b.1 a' b') {v v' : δ} (hv : v = v') : Evaluates s p (a'.1, v) (b'.1, v') := by
  obtain ⟨m, ha, hb⟩ := h.numbered
  obtain ⟨n, ha', hb'⟩ := h'.numbered
  exact ⟨h'.shows, hv, n, by rw [ha', ha]; rfl, by rw [hb', hb]; rfl⟩

end Evaluates

namespace Stage.Shows

/-- Another world with the sites of the first one in it. -/
theorem of_world (h : s.Shows p) {w : World Body} {p' : Interpreter} (hreached : w.Reached)
    (hgrown : s.world.Grown w)
    (hsetup : ∀ t : SiteId, t.place < s.world.sites.size → (w.site t).setup = (s.world.site t).setup)
    (hclasses : w.registry.classes.map plainClass = p'.classes)
    (hnext : w.nextObject = p'.nextObject) (hsites : p'.sites = p.sites)
    (hrooted : 0 < p'.classes.size) : ({ s with world := w } : Stage).Shows p' := by
  refine ⟨hclasses, ?_, hnext, fun e he => Nat.lt_of_lt_of_le (h.inside e he) hgrown.sites, hrooted,
    Nat.lt_of_lt_of_le h.invoker hgrown.invokers, hreached⟩
  rw [hsites, ← h.sites]
  refine List.map_congr_left fun e he => ?_
  rw [plainSite_of_setup (hsetup e.2 (h.inside e he))]

/-- Something is done outside of any send. -/
theorem act (h : s.Shows p) (a : Act Body) {p' : Interpreter}
    (hclasses : (s.world.act a).registry.classes.map plainClass = p'.classes)
    (hnext : (s.world.act a).nextObject = p'.nextObject) (hsites : p'.sites = p.sites)
    (hrooted : 0 < p'.classes.size) : ({ s with world := s.world.act a } : Stage).Shows p' := by
  refine h.of_world (h.reached.act a) (World.grown_act s.world a) (fun t ht => ?_) hclasses hnext
    hsites hrooted
  obtain hsame | ⟨hle, _⟩ := World.site_act s.world a t
  · rw [hsame]
  · exact absurd ht (Nat.not_lt_of_le hle)

theorem classId (h : s.Shows p) (name : String) : s.classId name = p.classId name := by
  cases hc : p.classId? name <;> simp [Stage.classId, Interpreter.classId, classId_plain h.classes, hc]

/-- A literal is read alike; only `new` changes anything, and just the numbering of objects. -/
theorem literal (h : s.Shows p) (raw : String) :
    Agree (Evaluates s p) (s.literal raw) (p.literal raw) := by
  rw [Stage.literal, Interpreter.literal, evalLiteral]
  cases Literal.read raw with
  | error e => exact .error _
  | ok l =>
    cases l with
    | value v => exact .ok (.refl h v)
    | new name =>
      simp only [classId_plain h.classes]
      cases p.classId? name with
      | none => exact .error _
      | some c =>
        refine .ok ⟨h.act (.newObject c) h.classes ?_ rfl h.rooted, ?_, s.world.nextObject + 1, rfl, ?_⟩
        · exact congrArg (· + 1) h.nextObject
        · exact congrArg (Value.object · c) h.nextObject
        · rw [h.nextObject]
          rfl

theorem literals (h : s.Shows p) (raws : List String) :
    Agree (Evaluates s p) (s.literals raws) (p.literals raws) := by
  induction raws generalizing s p with
  | nil => exact .ok (.refl h [])
  | cons raw rest ih =>
    refine (h.literal raw).bind ?_
    rintro ⟨s₁, v⟩ ⟨p₁, u⟩ h₁
    refine (ih h₁.shows).bind ?_
    rintro ⟨s₂, vs⟩ ⟨p₂, us⟩ h₂
    exact .ok (h₁.trans h₂ (congrArg₂ List.cons h₁.value h₂.value))

theorem body (h : s.Shows p) (m : MethodSpec) :
    Agree (Evaluates s p) (s.body m) (p.body m) := by
  rw [Stage.body, Interpreter.body]
  cases m.returns with
  | some raw =>
    cases m.fails with
    | some message => exact .error _
    | none =>
      refine (h.literal raw).bind ?_
      rintro ⟨s₁, v⟩ ⟨p₁, u⟩ h₁
      exact .ok (h₁.trans (.refl h₁.shows u) (congrArg Body.returns h₁.value))
  | none =>
    cases m.fails with
    | some message => exact .ok (.refl h _)
    | none => exact .error _

/-- A class that is found by its name is there. -/
theorem exists_entry (h : s.Shows p) {name : String} {c : ClassId} (hc : p.classId name = .ok c) :
    ∃ e, s.world.registry.entry? c = some e :=
  Registry.exists_entry_of_classId (classId?_of_ok ((h.classId name).trans hc))

theorem setCacheable (h : s.Shows p) {c : ClassId} {e : ClassEntry Body}
    (he : s.world.registry.entry? c = some e) (cacheable : Bool) :
    (s.world.setCacheable c cacheable).2 = .ok () ∧
      ({ s with world := (s.world.setCacheable c cacheable).1 } : Stage).Shows p := by
  have hworld := setCacheable_of_entry he cacheable
  refine ⟨congrArg Prod.snd hworld, h.act (.setCacheable c cacheable) ?_ ?_ rfl h.rooted⟩
  · rw [World.act, hworld]
    refine (classes_change (f := fun e => { e with cacheable }) id (fun _ => rfl) c).trans ?_
    rw [modify_id, h.classes]
  · rw [World.act, hworld]
    exact h.nextObject

/-- A class with a new name comes below one that is there. -/
theorem newClass (h : s.Shows p) {name : String} {superclass : Option ClassId}
    {e : ClassEntry Body} (he : s.world.registry.entry? (superclass.getD .object) = some e)
    (hnew : p.classId? name = none) : ∃ id, (s.world.defineClass name superclass).2 = .ok id ∧
      ({ s with world := (s.world.defineClass name superclass).1 } : Stage).Shows { p with
        classes := p.classes.push { name, superclass := some (superclass.getD .object) } } ∧
      ∃ e, (s.world.defineClass name superclass).1.registry.entry? id = some e := by
  have hok : s.world.registry.defineClass name superclass =
      .ok (s.world.registry.addClass name (some (superclass.getD .object)),
        ⟨s.world.registry.classes.size⟩) := by
    simp [Registry.defineClass, he, classId_plain h.classes, hnew]
  have hworld : s.world.defineClass name superclass =
      ({ s.world with registry := s.world.registry.addClass name (some (superclass.getD .object)) },
        .ok ⟨s.world.registry.classes.size⟩) := by
    simp [World.defineClass, hok]
  have hact : s.world.act (.defineClass name superclass) = { s.world with
      registry := s.world.registry.addClass name (some (superclass.getD .object)) } :=
    congrArg Prod.fst hworld
  refine ⟨_, congrArg Prod.snd hworld, h.act (.defineClass name superclass) ?_ ?_ rfl ?_, ?_⟩
  · rw [hact]
    simp only [Registry.addClass, Array.map_push, h.classes]
    rfl
  · rw [hact]
    exact h.nextObject
  · simp
  · rw [hworld]
    simp [Registry.entry?, Registry.addClass]

end Stage.Shows

/-- The class of a scenario below a superclass that was found. -/
def Stage.defineBelow (s : Stage) (c : ClassSpec) (superclass : Option ClassId) :
    Except Fault Stage :=
  let (world, result) := s.world.defineClass c.name superclass
  match result with
  | .error e => .error (.inClass c.name (.registry e))
  | .ok id =>
    if c.uncacheable then
      let (world, result) := world.setCacheable id false
      match result with
      | .error e => .error (.registry e)
      | .ok () => .ok { s with world }
    else .ok { s with world }

theorem Stage.defineClass_eq (s : Stage) (c : ClassSpec) :
    s.defineClass c = match c.superclass with
      | none => s.defineBelow c none
      | some name => (s.classId name).map some >>= s.defineBelow c := by
  rw [Stage.defineClass]
  cases c.superclass <;> rfl

namespace Stage.Shows

theorem defineBelow (h : s.Shows p) (c : ClassSpec) (superclass : Option ClassId)
    {e : ClassEntry Body} (he : s.world.registry.entry? (superclass.getD .object) = some e) :
    Agree Stage.Shows (s.defineBelow c superclass)
      (p.addClass c.name (superclass.getD .object)) := by
  rw [Stage.defineBelow, Interpreter.addClass]
  cases hid : p.classId? c.name with
  | some id =>
    have htaken : s.world.defineClass c.name superclass = (s.world, .error (.nameTaken c.name)) := by
      simp [World.defineClass, Registry.defineClass, he, classId_plain h.classes, hid]
    rw [htaken]
    exact .error _
  | none =>
    obtain ⟨id, hresult, hshows, e', he'⟩ := h.newClass he hid
    simp only [hresult, Option.isSome_none, Bool.false_eq_true, if_false]
    cases c.uncacheable with
    | false => exact .ok hshows
    | true =>
      obtain ⟨hok, hshows'⟩ := hshows.setCacheable he' false
      simp only [hok, if_true]
      exact .ok hshows'

theorem defineClass (h : s.Shows p) (c : ClassSpec) :
    Agree Stage.Shows (s.defineClass c) (p.defineClass c) := by
  rw [Stage.defineClass_eq, Interpreter.defineClass]
  cases c.superclass with
  | none =>
    have hlt : ClassId.object.number < s.world.registry.classes.size := by
      have hrooted := h.rooted
      rwa [← h.classes, Array.size_map] at hrooted
    exact h.defineBelow c none (Array.getElem?_eq_getElem hlt)
  | some name =>
    simp only [h.classId]
    cases hc : p.classId name with
    | error f => exact .error f
    | ok d =>
      obtain ⟨e, he⟩ := h.exists_entry hc
      exact h.defineBelow c (some d) he

/-- A class that is there gets another definition under a name. -/
theorem defineMethod (h : s.Shows p) {c : ClassId} {e : ClassEntry Body}
    (he : s.world.registry.entry? c = some e) (d : MethodDef Body) :
    ∃ m, (s.world.defineMethod c d).2 = .ok m ∧
      ({ s with world := (s.world.defineMethod c d).1 } : Stage).Shows
        (p.set c d.name (some { isPrivate := d.isPrivate, body := d.body })) := by
  have hworld := defineMethod_of_entry he d
  refine ⟨_, congrArg Prod.snd hworld, h.act (.defineMethod c d) ?_ ?_ rfl ?_⟩
  · rw [World.act, hworld, Interpreter.set, ← h.classes]
    exact classes_change (fun e => e.set d.name (some _)) (fun e => plainClass_put e _) c
  · rw [World.act, hworld]
    exact h.nextObject
  · rw [Interpreter.set, Array.size_modify]
    exact h.rooted

/-- A class that is there loses what it has under a name. -/
theorem removeMethod (h : s.Shows p) {c : ClassId} {e : ClassEntry Body}
    (he : s.world.registry.entry? c = some e) (name : String) :
    (s.world.removeMethod c name).2 = .ok (p.own? c name).isSome ∧
      ({ s with world := (s.world.removeMethod c name).1 } : Stage).Shows (p.set c name none) := by
  have hworld := removeMethod_of_entry he name
  have hthere : (p.own? c name).isSome = e.methods.contains name := by
    rw [Interpreter.own?, entry_plain h.classes, he, Option.map_some, Option.bind_some, plainClass,
      Option.isSome_map, Table.contains]
  refine ⟨by rw [hworld, hthere], h.act (.removeMethod c name) ?_ ?_ rfl ?_⟩
  · rw [World.act, hworld, ← hthere]
    cases ho : (p.own? c name).isSome with
    | true =>
      simp only [if_true]
      rw [Interpreter.set, ← h.classes]
      exact classes_change (fun e => e.set name none) (fun e => plainClass_erase e name) c
    | false =>
      -- the registry is not touched, and the interpreter takes away what is not there
      rw [set_of_absent (Option.not_isSome_iff_eq_none.mp (ho ▸ Bool.false_ne_true))]
      exact h.classes
  · rw [World.act, hworld]
    exact h.nextObject
  · rw [Interpreter.set, Array.size_modify]
    exact h.rooted

theorem define (h : s.Shows p) (m : MethodSpec) : Agree Stage.Shows (s.define m) (p.define m) := by
  rw [Stage.define, Interpreter.define, h.classId]
  cases hc : p.classId m.className with
  | error f => exact .error f
  | ok c =>
    obtain ⟨e, he⟩ := h.exists_entry hc
    refine (h.body m).bind ?_
    rintro ⟨s₁, body⟩ ⟨p₁, body'⟩ ⟨h₁, rfl, n, rfl, rfl⟩
    obtain ⟨method, hok, hshows⟩ := h₁.defineMethod he
      { name := m.name, isPrivate := m.isPrivate, alwaysClone := m.alwaysClone, body }
    simp only [hok]
    exact .ok hshows

theorem addSite (h : s.Shows p) (bound : Nat) (spec : SiteSpec) :
    Agree Stage.Shows (s.addSite bound spec) (p.addSite spec) := by
  have hfind : (s.sites.find? fun e => e.1 == spec.name).isSome =
      (p.sites.find? fun e => e.1 == spec.name).isSome := by
    rw [← h.sites, List.find?_map, Option.isSome_map]
    rfl
  rw [Stage.addSite, Interpreter.addSite, hfind]
  split
  · exact .error _
  · let x : Site Body :=
      { name := spec.message.getD spec.name, options := spec.options, bound, invoker := 0 }
    have hact : s.world.act (.addSite x.name x.options bound 0) = (s.world.addSite x).1 :=
      if_pos h.invoker
    have hold : ∀ e ∈ s.sites, (s.world.addSite x).1.site e.2 = s.world.site e.2 := by
      intro e he
      rw [World.site, World.addSite, Array.getElem?_push, if_neg (Nat.ne_of_lt (h.inside e he)),
        World.site]
    have hnew : (s.world.addSite x).1.site ⟨s.world.sites.size⟩ = x := by
      simp [World.site, World.addSite]
    have hreached : (s.world.addSite x).1.Reached := hact ▸ h.reached.act _
    refine .ok ⟨h.classes, ?_, h.nextObject, ?_, h.rooted, h.invoker, hreached⟩
    · rw [List.map_append, ← h.sites]
      refine congrArg₂ (· ++ ·) (List.map_congr_left fun e he => ?_) ?_
      · exact congrArg (fun y => (e.1, plainSite y)) (hold e he)
      · exact congrArg (fun y => [(spec.name, plainSite y)]) hnew
    · intro e he
      have hsize : (s.world.addSite x).1.sites.size = s.world.sites.size + 1 := Array.size_push _
      show e.2.place < (s.world.addSite x).1.sites.size
      rw [hsize]
      obtain he | he := List.mem_append.mp he
      · exact Nat.lt_succ_of_lt (h.inside e he)
      · rw [List.mem_singleton.mp he]
        exact Nat.lt_succ_self _

theorem site (h : s.Shows p) (name : String) :
    Agree (fun id x => id.place < s.world.sites.size ∧ plainSite (s.world.site id) = x)
      (s.site name) (p.site name) := by
  rw [Stage.site, Interpreter.site, ← h.sites, List.find?_map]
  have hname : ((fun e : String × PlainSite => e.1 == name) ∘
      fun e : String × SiteId => (e.1, plainSite (s.world.site e.2))) = fun e => e.1 == name := rfl
  rw [hname]
  cases hf : s.sites.find? fun e => e.1 == name with
  | none => exact .error _
  | some e => exact .ok ⟨h.inside e (List.mem_of_find?_eq_some hf), rfl⟩

/-- A method body does not care whether it belongs to a copy. -/
theorem result_of_copy (a : Activation Body) (m : Method Body) (h : m.IsCopy a.method) :
    Body.result { a with method := m } = Body.result a := by
  rw [Body.result, Body.result, congrArg MethodDef.body h.1]

/-- A call leaves what the stage shows, and replies what the interpreter answers. -/
theorem send (h : s.Shows p) {i : SiteId} (hi : i.place < s.world.sites.size) (call : Call) :
    ({ s with world := (s.world.send i call Body.result).1 } : Stage).Shows p ∧
      (s.world.send i call Body.result).2 =
        p.answer (s.world.site i).options call.name call.receiver := by
  obtain ⟨hreached, hkeeps, hreply⟩ := h.reached.send hi call result_of_copy
  refine ⟨h.of_world hreached hkeeps.grown hkeeps.setup ?_ ?_ rfl h.rooted, ?_⟩
  · rw [hkeeps.registry, h.classes]
  · rw [hkeeps.nextObject, h.nextObject]
  · rw [hreply, answer_plain h.classes]

/-- A step leaves a stage and the interpreter that it shows, and is reported alike. -/
theorem perform (h : s.Shows p) (index : Nat) (step : StepSpec) :
    Agree (fun a b => a.1.Shows b.1 ∧ a.2 = b.2) (s.perform index step) (p.perform index step) := by
  cases step with
  | call c =>
    refine (h.site c.site).bind ?_
    rintro id _ ⟨hid, rfl⟩
    -- reading the literals leaves all sites as they are, so the site is still the one found
    refine (h.literal c.receiver).bind ?_
    rintro ⟨_, receiver⟩ ⟨_, _⟩ ⟨h₁, rfl, m, rfl, rfl⟩
    refine (h₁.literals c.args).bind ?_
    rintro ⟨_, args⟩ ⟨_, _⟩ ⟨h₂, rfl, n, rfl, rfl⟩
    let name := c.send.getD (s.world.site id).name
    obtain ⟨hshows, hreply⟩ := h₂.send (i := id) hid { name, receiver, args }
    let report (reply : Except Failure Outcome) : StepReport :=
      { index, description := Stage.callText c.site name c.receiver c.args
        result := Stage.resultText reply, expected := c.expect
        matched := c.expect.map fun e => e == Stage.resultText reply }
    exact .ok ⟨hshows, congrArg report hreply⟩
  | define m =>
    refine (h.define m).bind ?_
    intro s₁ p₁ h₁
    exact .ok ⟨h₁, rfl⟩
  | remove className name =>
    simp only [Stage.perform, Interpreter.perform, Interpreter.remove, h.classId]
    cases hc : p.classId className with
    | error f => exact .error f
    | ok c =>
      obtain ⟨e, he⟩ := h.exists_entry hc
      obtain ⟨hok, hshows⟩ := h.removeMethod he name
      simp only [bind, Except.bind, hok]
      exact .ok ⟨hshows, rfl⟩

end Stage.Shows

end Parts

/-- A place that is added to a fault is added on both sides. -/
theorem agree_within {α γ : Type} {R : α → γ → Prop} {x : Except Fault α} {y : Except Fault γ}
    (h : Agree R x y) (place : Fault → Fault) : Agree R (within place x) (within place y) := by
  cases h with
  | ok related => exact .ok related
  | error f => exact .error (place f)

/-- The steps of a script are reported alike, one after the other. -/
theorem Stage.Shows.performAll {s : Stage} {p : Interpreter} (h : s.Shows p) (index : Nat)
    (steps : List StepSpec) :
    Agree (fun a b => a.1.Shows b.1 ∧ a.2 = b.2) (s.performAll index steps)
      (p.performAll index steps) := by
  induction steps generalizing s p index with
  | nil => exact .ok ⟨h, rfl⟩
  | cons step rest ih =>
    refine (agree_within (h.perform index step) (.inStep index)).bind ?_
    rintro ⟨s₁, report⟩ ⟨p₁, _⟩ ⟨h₁, rfl⟩
    refine (ih h₁ (index + 1)).bind ?_
    rintro ⟨s₂, reports⟩ ⟨p₂, _⟩ ⟨h₂, rfl⟩
    exact .ok ⟨h₂, rfl⟩

/-- Before anything is defined there are the builtin classes, whatever the settings are. -/
theorem shows_start (cloning : Bool) :
    ({ world := (({} : World Body).addInvoker cloning).1 } : Stage).Shows {} where
  classes := by
    show Registry.builtin.classes.map plainClass = builtinClasses
    simp [Registry.builtin, Registry.builtinNames, builtinClasses, Registry.addClass, plainClass,
      Table.get?]
  sites := rfl
  nextObject := rfl
  inside := nofun
  rooted := by decide
  invoker := Nat.zero_lt_one
  reached := ⟨[.act (.addInvoker cloning)], rfl⟩

/-- A scenario is built alike under all settings. -/
theorem build_shows (s : Scenario) (c : Config) :
    Agree Stage.Shows (build s c) (Interpreter.build s) := by
  refine (Agree.foldlM (fun _ _ spec h => h.defineClass spec) (shows_start c.allowCloning)
    s.classes).bind fun s₁ p₁ h₁ => ?_
  refine (Agree.foldlM (fun _ _ m h => agree_within (h.define m)
    (.inMethod m.className m.name)) h₁ s.methods).bind fun s₂ p₂ h₂ => ?_
  exact .foldlM (fun _ _ spec h => h.addSite c.maxChainLength spec) h₂ s.sites

/-- The steps of a run are reported as the interpreter reports them. -/
theorem steps_run (s : Scenario) (c : Config) : (run s c).map RunReport.steps = interpret s := by
  have h : Agree (fun report reports => report.steps = reports) (run s c) (interpret s) := by
    refine (build_shows s c).bind fun stage p hshows => ?_
    refine (hshows.performAll 1 s.steps).bind ?_
    rintro ⟨_, reports⟩ ⟨_, _⟩ ⟨_, rfl⟩
    exact .ok rfl
  exact h.map_eq

/-- The reports of the steps of a scenario do not depend on the settings of its caches, and a run that
fails does so with the same fault under all settings: both are those of the interpreter, which has
no cache. -/
theorem steps_independent_of_cache (s : Scenario) (c c' : Config) :
    (run s c).map RunReport.steps = (run s c').map RunReport.steps ∧
      (run s c).map RunReport.steps = interpret s :=
  ⟨(steps_run s c).trans (steps_run s c').symm, steps_run s c⟩

end InlineCache.Scenario
