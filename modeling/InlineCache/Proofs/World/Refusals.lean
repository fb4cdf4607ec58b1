import InlineCache.Proofs.Marks.Cloning
import InlineCache.Proofs.Registry.Definitions

/-! Changes of the registry that come to nothing. A change may be refused, and a removal may find no
method of the class itself; either answer comes of few reasons, which can be seen before. Such a change
leaves all answers as they were and all branches as valid as they were. All it can do is use up an
identity of a method, and nothing that happens later makes more of that. -/
namespace InlineCache

variable {β : Type}

namespace World

/-- The answer to a change of the registry, as far as it tells whether anything was done. -/
def answer (w : World β) : Act β → Except RegistryError Bool
  | .defineClass name superclass => (w.defineClass name superclass).2.map fun _ => true
  | .setCacheable c cacheable => (w.setCacheable c cacheable).2.map fun _ => true
  | .defineMethod c d => (w.defineMethod c d).2.map fun _ => true
  | .removeMethod c name => (w.removeMethod c name).2
  | _ => .ok true

/-- The changes that come to nothing in a world, each with its answer. -/
inductive Void (w : World β) : Act β → Except RegistryError Bool → Prop
  | superclass {name : String} {superclass : Option ClassId}
      (undefined : ¬ w.registry.Defined (superclass.getD .object)) :
      Void w (.defineClass name superclass)
        (.error (.unknownSuperclass (superclass.getD .object) name))
  | name {name : String} {superclass : Option ClassId} {c : ClassId}
      (defined : w.registry.Defined (superclass.getD .object))
      (taken : w.registry.classId? name = some c) :
      Void w (.defineClass name superclass) (.error (.nameTaken name))
  | cacheable {c : ClassId} {cacheable : Bool} (undefined : ¬ w.registry.Defined c) :
      Void w (.setCacheable c cacheable) (.error (.unknownClass c))
  | method {c : ClassId} {d : MethodDef β} (undefined : ¬ w.registry.Defined c) :
      Void w (.defineMethod c d) (.error (.unknownClass c))
  | removal {c : ClassId} {name : String} (undefined : ¬ w.registry.Defined c) :
      Void w (.removeMethod c name) (.error (.unknownClass c))
  | absent {c : ClassId} {name : String} (defined : w.registry.Defined c)
      (missing : w.registry.own? name c = none) : Void w (.removeMethod c name) (.ok false)

/-- Two worlds that cannot be told apart by any question: lookups with their tokens, the classes and the
number of the next one, the tokens, and the branches of the sites. -/
structure SameAnswers (w w' : World β) : Prop where
  resolve : ∀ c name iv, w'.registry.resolve c name iv = w.registry.resolve c name iv
  token : ∀ c, w'.registry.currentToken? c = w.registry.currentToken? c
  valid : ∀ t, w'.isValid t = w.isValid t
  classId : ∀ name, w'.registry.classId? name = w.registry.classId? name
  className : ∀ c, w'.registry.className c = w.registry.className c
  superclass : ∀ c, w'.registry.superclass? c = w.registry.superclass? c
  nextClass : ∀ name s, (w'.defineClass name s).2 = (w.defineClass name s).2
  site : ∀ s, w'.site s = w.site s
  branch : ∀ b : Branch β, b.isValid w'.isValid = b.isValid w.isValid

section Answers

variable (w : World β)

theorem answer_defineClass (name : String) (superclass : Option ClassId) :
    w.answer (.defineClass name superclass) =
      if w.registry.Defined (superclass.getD .object) then
        if (w.registry.classId? name).isSome then .error (.nameTaken name) else .ok true
      else .error (.unknownSuperclass (superclass.getD .object) name) := by
  by_cases hs : w.registry.Defined (superclass.getD .object)
  · cases hn : w.registry.classId? name <;>
      simp [answer, defineClass, Registry.defineClass_eq, hs, hn, Except.map]
  · simp [answer, defineClass, Registry.defineClass_eq, hs, Except.map]

theorem answer_setCacheable (c : ClassId) (cacheable : Bool) :
    w.answer (.setCacheable c cacheable) =
      if w.registry.Defined c then .ok true else .error (.unknownClass c) := by
  by_cases hc : w.registry.Defined c <;>
    simp [answer, setCacheable, Registry.setCacheable_eq, hc, Except.map]

theorem answer_defineMethod (c : ClassId) (d : MethodDef β) :
    w.answer (.defineMethod c d) =
      if w.registry.Defined c then .ok true else .error (.unknownClass c) := by
  by_cases hc : w.registry.Defined c <;>
    simp [answer, defineMethod, Registry.defineMethod_eq, hc, Except.map]

theorem answer_removeMethod (c : ClassId) (name : String) :
    w.answer (.removeMethod c name) =
      if w.registry.Defined c then .ok (w.registry.own? name c).isSome
      else .error (.unknownClass c) := by
  by_cases hc : w.registry.Defined c
  · cases hm : w.registry.own? name c <;>
      simp [answer, removeMethod, Registry.removeMethod_eq, hc, hm]
  · simp [answer, removeMethod, Registry.removeMethod_eq, hc]

/-- A change comes to nothing by its answer just if there is a reason for that answer. -/
theorem answer_iff_void (a : Act β) (x : Except RegistryError Bool) :
    (w.answer a = x ∧ x ≠ .ok true) ↔ w.Void a x := by
  constructor
  · rintro ⟨rfl, hx⟩
    cases a with
    | defineClass name superclass =>
      rw [answer_defineClass] at hx ⊢
      by_cases hs : w.registry.Defined (superclass.getD .object)
      · cases hn : w.registry.classId? name with
        | none => simp [hs, hn] at hx
        | some c => simpa [hs, hn] using Void.name hs hn
      · simpa [hs] using Void.superclass hs
    | setCacheable c cacheable =>
      rw [answer_setCacheable] at hx ⊢
      by_cases hc : w.registry.Defined c
      · simp [hc] at hx
      · simpa [hc] using Void.cacheable hc
    | defineMethod c d =>
      rw [answer_defineMethod] at hx ⊢
      by_cases hc : w.registry.Defined c
      · simp [hc] at hx
      · simpa [hc] using Void.method hc
    | removeMethod c name =>
      rw [answer_removeMethod] at hx ⊢
      by_cases hc : w.registry.Defined c
      · cases hm : w.registry.own? name c with
        | none => simpa [hc, hm] using Void.absent hc hm
        | some m => simp [hc, hm] at hx
      · simpa [hc] using Void.removal hc
    | _ => exact absurd rfl hx
  · intro h
    cases h with
    | superclass hs => simp [answer_defineClass, hs]
    | name hs hn => simp [answer_defineClass, hs, hn]
    | cacheable hc => simp [answer_setCacheable, hc]
    | method hc => simp [answer_defineMethod, hc]
    | removal hc => simp [answer_removeMethod, hc]
    | absent hc hm => simp [answer_removeMethod, hc, hm]

end Answers

/-- A change that comes to nothing leaves all but the counter of identities as it was. -/
theorem Void.act_renumbered {w : World β} {a : Act β} {x : Except RegistryError Bool}
    (h : w.Void a x) : (w.act a).renumbered = w.renumbered := by
  cases h with
  | superclass hs => simp [act, defineClass, Registry.defineClass_eq, hs]
  | name hs hn => simp [act, defineClass, Registry.defineClass_eq, hs, hn]
  | cacheable hc => simp [act, setCacheable, Registry.setCacheable_eq, hc]
  | method hc =>
    -- the method that is not defined has got its identity before
    simp [act, defineMethod, Registry.defineMethod_eq, hc, renumbered]
  | removal hc => simp [act, removeMethod, Registry.removeMethod_eq, hc]
  | absent hc hm => simp [act, removeMethod, Registry.removeMethod_eq, hc, hm]

/-- The counter of identities is behind no answer. -/
theorem sameAnswers_of_renumbered {w w' : World β} (h : w'.renumbered = w.renumbered) :
    SameAnswers w w' := by
  have hregistry : w'.registry = w.registry := (World.mk.inj h).1
  have hsites : w'.sites = w.sites := (World.mk.inj h).2.2.1
  have hvalid : w'.isValid = w.isValid := by
    funext t
    rw [isValid, hregistry, isValid]
  refine ⟨?_, ?_, ?_, ?_, ?_, ?_, ?_, ?_, ?_⟩
  · exact fun c name iv => by rw [hregistry]
  · exact fun c => by rw [hregistry]
  · exact fun t => congrFun hvalid t
  · exact fun name => by rw [hregistry]
  · exact fun c => by rw [hregistry]
  · exact fun c => by rw [hregistry]
  · intro name s
    rw [defineClass, defineClass, hregistry]
    cases w.registry.defineClass name s <;> rfl
  · exact fun s => by rw [site, hsites, site]
  · exact fun b => by rw [hvalid]

end World

namespace System

/-- What is the same without marks stays the same without marks, whatever happens later. -/
theorem unmarked_run_append {es fs : List (Event β)} (h : (run es).unmarked = (run fs).unmarked)
    (later : List (Event β)) : (run (es ++ later)).unmarked = (run (fs ++ later)).unmarked := by
  induction later using List.reverseRecOn with
  | nil => simpa using h
  | append_singleton later e ih =>
    have hstep : ((run (es ++ later)).step e).unmarked = ((run (fs ++ later)).step e).unmarked :=
      unmarked_step ih rfl
    rwa [← List.append_assoc, ← List.append_assoc, run_append (es ++ later) [e],
      run_append (fs ++ later) [e], runFrom_cons, runFrom_cons, runFrom_nil, runFrom_nil]

/-- In every reachable state, the changes of the registry that come to nothing by their answers are
those that there is a reason for: a superclass that is not defined, a name that is taken, a class that
is not defined, or no method to remove on the class itself. After such a change all answers are the
same and so are all branches and all sends; it has used up the identity of a method at most. No
event that comes later tells whether it took place. -/
theorem void_change_unobservable (events : List (Event β)) (a : Act β) :
    let w := (run events).world
    (∀ x, (w.answer a = x ∧ x ≠ .ok true) ↔ w.Void a x) ∧
    (w.answer a ≠ .ok true →
      w.SameAnswers (run (events ++ [.act a])).world ∧
      (run (events ++ [.act a])).renumbered = (run events).renumbered ∧
      ∀ later, (run (events ++ .act a :: later)).unmarked = (run (events ++ later)).unmarked) := by
  intro w
  refine ⟨w.answer_iff_void a, fun ha => ?_⟩
  have hvoid : w.Void a (w.answer a) := (w.answer_iff_void a _).mp ⟨rfl, ha⟩
  have hworld : (w.act a).renumbered = w.renumbered := hvoid.act_renumbered
  have hstep : run (events ++ [.act a]) = { run events with world := w.act a } := run_append _ _
  refine ⟨?_, ?_, fun later => ?_⟩
  · rw [hstep]
    exact World.sameAnswers_of_renumbered hworld
  · rw [hstep]
    exact congrArg (fun world => System.mk world (run events).sends) hworld
  · have hsame : (run (events ++ [.act a])).unmarked = (run events).unmarked := by
      rw [hstep]
      exact congrArg (fun world => System.mk world.unmarked (run events).unmarked.sends) hworld
    have hlater := unmarked_run_append hsame later
    rwa [List.append_assoc] at hlater

/-- The method that serves the site is inherited, so there is nothing to remove from the class of the
receivers, and the branch stays valid. -/
theorem void_change_unobservable_warmSite :
    let a : Act Unit := .removeMethod .trueClass "m"
    let w := (run warmSite).world
    let w' := (run (warmSite ++ [.act a])).world
    w.answer a = .ok false ∧ w.SameAnswers w' ∧
      ∃ n ∈ (w'.site ⟨0⟩).chain.nodes, ∃ b, n.slot? (.bool true) = some (some b) ∧
        b.isValid w'.isValid = true := by
  intro a w w'
  let b : Branch Unit :=
    ⟨[⟨10⟩], .direct ⟨⟨{ name := "m", alwaysClone := true, body := () }, 2, .object⟩, true⟩, 0⟩
  have hv : b.isValid w.isValid = true := by decide +kernel
  have hn : Node.boolean ⟨"m", .boolean⟩ none (some b) ∈ (w.site ⟨0⟩).chain.nodes := by
    decide +kernel
  have ha : w.answer a = .ok false := by decide +kernel
  have hne : w.answer a ≠ .ok true := by decide +kernel
  have hsame : w.SameAnswers w' := ((void_change_unobservable warmSite a).2 hne).1
  refine ⟨ha, hsame, _, hsame.site ⟨0⟩ ▸ hn, b, rfl, ?_⟩
  rw [hsame.branch b, hv]

end System
end InlineCache
