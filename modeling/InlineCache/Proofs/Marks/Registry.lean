import InlineCache.Dispatch.Resolution
import InlineCache.Proofs.Registry.Tables

/-! Registries without the marks of copying. The only mark in a registry is the identity of a method.
It is carried along and never looked at: all that is done to a registry and all that is looked up
and decided there commutes with taking the identities away. -/
namespace InlineCache

variable {β : Type}

/-- A method without its identity. -/
def Method.unmarked (m : Method β) : Method β := { m with id := 0 }

namespace Table

variable {α γ : Type}

def map (f : α → γ) (t : Table α) : Table γ := ⟨t.entries.map fun e => (e.1, f e.2)⟩

theorem get?_map (f : α → γ) (t : Table α) (name : String) :
    (t.map f).get? name = (t.get? name).map f := by
  rw [get?, get?, map, List.find?_map, Option.map_map, Option.map_map]
  rfl

theorem map_erase (f : α → γ) (t : Table α) (name : String) :
    (t.erase name).map f = (t.map f).erase name := by
  rw [erase, erase, map, map, List.filter_map]
  rfl

theorem map_put (f : α → γ) (t : Table α) (name : String) (value : α) :
    (t.put name value).map f = (t.map f).put name (f value) := by
  rw [put, put, ← map_erase]
  rfl

end Table

def ClassEntry.unmarked (e : ClassEntry β) : ClassEntry β :=
  { e with methods := e.methods.map Method.unmarked }

def Lookup.unmarked (l : Lookup β) : Lookup β := { l with method := l.method.map Method.unmarked }

namespace Registry

def unmarked (r : Registry β) : Registry β :=
  { r with classes := r.classes.map ClassEntry.unmarked }

section

variable (r : Registry β)

theorem entry_unmarked (c : ClassId) :
    r.unmarked.entry? c = (r.entry? c).map ClassEntry.unmarked := by
  unfold Registry.entry? unmarked
  rw [Array.getElem?_map]

theorem isNone_entry_unmarked (c : ClassId) :
    (r.unmarked.entry? c).isNone = (r.entry? c).isNone := by
  rw [entry_unmarked, Option.isNone_map]

theorem classId_unmarked (name : String) : r.unmarked.classId? name = r.classId? name := by
  rw [classId?, classId?, unmarked, Array.findIdx?_map]
  rfl

theorem className_unmarked (c : ClassId) : r.unmarked.className c = r.className c := by
  rw [className, className, entry_unmarked]
  cases r.entry? c <;> rfl

theorem ancestry_unmarked (c : ClassId) : r.unmarked.ancestry c = r.ancestry c := by
  refine ancestry_congr c fun x _ => ?_
  rw [entry_unmarked, Option.map_map]
  rfl

theorem addClass_unmarked (name : String) (superclass : Option ClassId) :
    r.unmarked.addClass name superclass = (r.addClass name superclass).unmarked := by
  simp only [addClass, unmarked, Array.map_push]
  rfl

theorem rollClass_unmarked (c : ClassId) : r.unmarked.rollClass c = (r.rollClass c).unmarked := by
  cases he : r.entry? c with
  | none => rw [rollClass_of_none he, rollClass_of_none (by rw [entry_unmarked, he]; rfl)]
  | some e =>
    have he' : r.unmarked.entry? c = some e.unmarked := by rw [entry_unmarked, he]; rfl
    have hrolled := map_modify (g := ClassEntry.unmarked)
      (f := fun e' => { e' with unmodified := r.rolledToken e })
      (k := fun e' => { e' with unmodified := r.rolledToken e }) (fun _ => rfl) r.classes c.number
    rw [rollClass_of_some he, rollClass_of_some he']
    exact congrArg (Registry.mk _) hrolled.symm

theorem rollBelow_unmarked (c : ClassId) : r.unmarked.rollBelow c = (r.rollBelow c).unmarked := by
  have hsize : r.unmarked.classes.size = r.classes.size := Array.size_map
  have hbelow : ∀ x, r.unmarked.inherits x c = r.inherits x c :=
    fun x => inherits_congr (ancestry_unmarked r x)
  simp only [rollBelow, hsize, hbelow]
  exact List.foldl_hom unmarked fun r' i => rollClass_unmarked r' ⟨i⟩

theorem change_unmarked (c : ClassId) {f g : ClassEntry β → ClassEntry β}
    (hf : ∀ e, (f e).unmarked = g e.unmarked) :
    r.unmarked.change c g = (r.change c f).unmarked := by
  rw [change, change, ← rollBelow_unmarked]
  exact congrArg (fun classes => rollBelow { r with classes } c)
    (map_modify hf r.classes c.number).symm

theorem defineClass_unmarked (name : String) (superclass : Option ClassId) :
    r.unmarked.defineClass name superclass =
      (r.defineClass name superclass).map (Prod.map unmarked id) := by
  have hsize : r.unmarked.classes.size = r.classes.size := Array.size_map
  simp only [defineClass, isNone_entry_unmarked, classId_unmarked, addClass_unmarked, hsize]
  split
  · rfl
  · split <;> rfl

theorem setCacheable_unmarked (c : ClassId) (cacheable : Bool) :
    r.unmarked.setCacheable c cacheable = (r.setCacheable c cacheable).map unmarked := by
  simp only [setCacheable, isNone_entry_unmarked]
  split
  · rfl
  · exact congrArg Except.ok (change_unmarked r c fun _ => rfl)

theorem defineMethod_unmarked (m : Method β) :
    r.unmarked.defineMethod m.unmarked = (r.defineMethod m).map unmarked := by
  have hput := change_unmarked r m.owner
    (f := fun e => { e with methods := e.methods.put m.name m })
    (g := fun e => { e with methods := e.methods.put m.name m.unmarked }) fun e =>
      congrArg (fun methods => { e with methods }) (Table.map_put Method.unmarked e.methods m.name m)
  have howner : m.unmarked.owner = m.owner := rfl
  simp only [defineMethod, howner, isNone_entry_unmarked]
  split
  · rfl
  · exact congrArg Except.ok hput

theorem removeMethod_unmarked (c : ClassId) (name : String) :
    r.unmarked.removeMethod c name = (r.removeMethod c name).map (Prod.map unmarked id) := by
  have herase := change_unmarked r c
    (f := fun e => { e with methods := e.methods.erase name })
    (g := fun e => { e with methods := e.methods.erase name }) fun e =>
      congrArg (fun methods => { e with methods }) (Table.map_erase Method.unmarked e.methods name)
  rw [removeMethod, removeMethod, entry_unmarked]
  cases r.entry? c with
  | none => rfl
  | some e =>
    have hcontains : e.unmarked.methods.contains name = e.methods.contains name := by
      rw [Table.contains, ClassEntry.unmarked, Table.get?_map, Option.isSome_map, Table.contains]
    simp only [Option.map_some, hcontains, herase]
    split <;> rfl

theorem find_unmarked (c : ClassId) (name : String) :
    r.unmarked.find? c name = (r.find? c name).map Method.unmarked := by
  rw [find?, find?, ancestry_unmarked, List.map_findSome?]
  refine congrArg (fun f => (r.ancestry c).findSome? f) (funext fun a => ?_)
  rw [Function.comp_apply, entry_unmarked]
  cases r.entry? a with
  | none => rfl
  | some e => exact Table.get?_map Method.unmarked e.methods name

theorem resolve_unmarked (c : ClassId) (name : String) (iv : Bool) :
    r.unmarked.resolve c name iv = (r.resolve c name iv).unmarked := by
  rw [resolve, resolve, entry_unmarked, find_unmarked]
  cases r.entry? c with
  | none => rfl
  | some e =>
    simp only [Option.map_some, Lookup.unmarked, Option.filter_map]
    rfl

theorem lookup_unmarked (o : SiteOptions) (call : Call) :
    r.unmarked.lookup o call = (r.lookup o call).unmarked := resolve_unmarked r _ _ _

theorem lookupHandler_unmarked (call : Call) :
    r.unmarked.lookupHandler call = (r.lookupHandler call).unmarked := resolve_unmarked r _ _ _

end

end Registry

section Resolutions

def Resolution.unmarked (res : Resolution β) : Resolution β :=
  { lookup := res.lookup.unmarked, handler := res.handler.map Lookup.unmarked }

def Activation.unmarked (a : Activation β) : Activation β := { a with method := a.method.unmarked }

def Decision.unmarked : Decision β → Decision β
  | invoke activation => invoke activation.unmarked
  | responds answer => responds answer
  | missing => missing
  | noMethod name className => noMethod name className

def Recipe.unmarked : Recipe β → Recipe β
  | direct m => direct m.unmarked
  | handler m => handler m.unmarked
  | probe => probe

theorem SiteOptions.wantsHandler_unmarked (o : SiteOptions) (lookup : Lookup β) :
    o.wantsHandler lookup.unmarked = o.wantsHandler lookup := by
  rw [wantsHandler, wantsHandler, Lookup.unmarked, Option.isNone_map]

theorem Resolution.decide_unmarked (res : Resolution β) (o : SiteOptions) (call : Call)
    (className : String) :
    res.unmarked.decide o call className = (res.decide o call className).unmarked := by
  obtain ⟨⟨c, method, token, cacheable⟩, handler⟩ := res
  obtain ⟨action, missing, iv⟩ := o
  cases action with
  | probe => cases method <;> rfl
  | invoke =>
    cases method with
    | some m => rfl
    | none =>
      cases missing with
      | returnMissing => rfl
      | callHandler =>
        rcases handler with _ | ⟨_, _ | h, _, _⟩ <;> rfl

theorem Resolution.recipe_unmarked (res : Resolution β) (o : SiteOptions) :
    res.unmarked.recipe? o = (res.recipe? o).map (Prod.map id Recipe.unmarked) := by
  obtain ⟨⟨c, method, token, cacheable⟩, handler⟩ := res
  obtain ⟨action, missing, iv⟩ := o
  cases cacheable with
  | false => rfl
  | true =>
    cases method with
    | some m => cases action <;> rfl
    | none =>
      cases action with
      | probe => rfl
      | invoke =>
        cases missing with
        | returnMissing => rfl
        | callHandler =>
          rcases handler with _ | ⟨_, _ | h, _, _ | _⟩ <;> rfl

end Resolutions
end InlineCache
