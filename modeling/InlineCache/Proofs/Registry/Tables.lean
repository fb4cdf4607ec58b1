import InlineCache.Proofs.Registry.History

/-! What a registry keeps of its classes besides their tokens. A rollover touches nothing but tokens,
so to anyone who does not look at them a change of a class is an edit of its entry; and the methods of
a class stand under their own names, so a lookup finds a method of the name that it looks for. -/
namespace InlineCache

variable {β : Type}

/-- An edit of one entry, seen through a view that turns it into an edit of its own. -/
theorem map_modify {α γ : Type} {f : α → α} {g : α → γ} {k : γ → γ} (hf : ∀ a, g (f a) = k (g a))
    (a : Array α) (j : Nat) : (a.modify j f).map g = (a.map g).modify j k := by
  refine Array.ext_getElem? fun i => ?_
  simp only [Array.getElem?_map, Array.getElem?_modify]
  split
  · rw [Option.map_map, Option.map_map]
    exact congrArg (fun k => a[i]?.map k) (funext hf)
  · rfl

theorem modify_id {α : Type} (a : Array α) (j : Nat) : a.modify j id = a := by
  refine Array.ext_getElem? fun i => ?_
  rw [Array.getElem?_modify]
  split <;> simp

theorem modify_of_not_lt {α : Type} {a : Array α} {j : Nat} (h : ¬ j < a.size) (f : α → α) :
    a.modify j f = a := by
  refine Array.ext_getElem? fun i => ?_
  rw [Array.getElem?_modify]
  split
  · rename_i hij
    rw [← hij, Array.getElem?_eq_none (Nat.le_of_not_lt h), Option.map_none]
  · rfl

/-- A view of a class that does not show its token. -/
def ClassEntry.Tokenless {γ : Type} (g : ClassEntry β → γ) : Prop :=
  ∀ e u, g { e with unmodified := u } = g e

/-- Every method stands under its own name. -/
def Table.Named (t : Table (Method β)) : Prop := ∀ name m, t.get? name = some m → m.name = name

theorem Table.Named.put {t : Table (Method β)} (h : t.Named) (m : Method β) :
    (t.put m.name m).Named := by
  intro name n hn
  rw [get?_put] at hn
  split at hn
  · rename_i heq
    rw [← Option.some.inj hn, heq]
  · exact h name n hn

theorem Table.Named.erase {t : Table (Method β)} (h : t.Named) (key : String) :
    (t.erase key).Named := by
  intro name n hn
  rw [get?_erase] at hn
  split at hn
  · cases hn
  · exact h name n hn

namespace Registry

section Views

variable {γ : Type} {g : ClassEntry β → γ}

theorem map_rollClass (hg : ClassEntry.Tokenless g) (r : Registry β) (c : ClassId) :
    (r.rollClass c).classes.map g = r.classes.map g := by
  cases he : r.entry? c with
  | none => rw [rollClass_of_none he]
  | some e =>
    rw [rollClass_of_some he]
    exact (map_modify (k := id) (fun e => hg e _) _ _).trans (modify_id _ _)

theorem map_rollBelow (hg : ClassEntry.Tokenless g) (r : Registry β) (c : ClassId) :
    (r.rollBelow c).classes.map g = r.classes.map g := by
  have hfold : ∀ (places : List Nat) (r' : Registry β),
      (places.foldl (fun r i => r.rollClass ⟨i⟩) r').classes.map g = r'.classes.map g := by
    intro places
    induction places with
    | nil => exact fun _ => rfl
    | cons i rest ih => exact fun r' => (ih (r'.rollClass ⟨i⟩)).trans (map_rollClass hg r' ⟨i⟩)
  exact hfold _ r

/-- But for tokens, a change of a class is an edit of its entry. -/
theorem map_change (hg : ClassEntry.Tokenless g) (r : Registry β) (c : ClassId)
    (f : ClassEntry β → ClassEntry β) :
    (r.change c f).classes.map g = (r.edited c f).classes.map g := map_rollBelow hg _ c

end Views

/-- In all classes every method stands under its own name. -/
def Named (r : Registry β) : Prop := ∀ c e, r.entry? c = some e → e.methods.Named

theorem Edit.named {f : ClassEntry β → ClassEntry β} (hf : Edit f) {e : ClassEntry β}
    (h : e.methods.Named) : (f e).methods.Named := by
  cases hf with
  | cacheable b => exact h
  | put m => exact h.put m
  | erase name => exact h.erase name

theorem Named.edited {r : Registry β} (h : r.Named) {f : ClassEntry β → ClassEntry β}
    (hf : ∀ e, e.methods.Named → (f e).methods.Named) (c : ClassId) : (r.edited c f).Named := by
  intro x e he
  rw [entry_edited] at he
  split at he
  · obtain ⟨e₀, he₀, rfl⟩ := Option.map_eq_some_iff.mp he
    exact hf e₀ (h x e₀ he₀)
  · exact h x e he

theorem Named.change {r : Registry β} (h : r.Named) {f : ClassEntry β → ClassEntry β}
    (hf : ∀ e, e.methods.Named → (f e).methods.Named) (c : ClassId) : (r.change c f).Named := by
  intro x e he
  have hview := congrArg (fun ts : Array (Table (Method β)) => ts[x.number]?)
    (map_change (g := ClassEntry.methods) (fun _ _ => rfl) r c f)
  simp only [Array.getElem?_map] at hview
  rw [Registry.entry?] at he
  rw [he, Option.map_some, eq_comm, Option.map_eq_some_iff] at hview
  obtain ⟨e₀, he₀, hsame⟩ := hview
  exact hsame ▸ h.edited hf c x e₀ he₀

theorem Named.addClass {r : Registry β} (h : r.Named) (name : String) (superclass : Option ClassId) :
    (r.addClass name superclass).Named := by
  intro x e he
  rw [Registry.entry?] at he
  simp only [Registry.addClass, Array.getElem?_push] at he
  split at he
  · obtain rfl := Option.some.inj he
    intro n m hm
    cases hm
  · exact h x e he

theorem Named.perform {r : Registry β} (h : r.Named) (op : Operation β) : (r.perform op).Named := by
  obtain ⟨_, he⟩ | ⟨name, s, _, _, he⟩ | ⟨c, f, _, hf, he⟩ | ⟨name, _, he⟩ | ⟨t, _, he⟩ :=
    perform_cases r op <;> rw [he]
  · exact h
  · exact h.addClass name (some s)
  · exact h.change (fun _ => hf.named) c
  · exact h
  · exact h

theorem named_builtin : (builtin : Registry β).Named :=
  builtin_induct (fun _ _ he => absurd (lt_of_entry he) (Nat.not_lt_zero _))
    fun _ name superclass _ h => h.addClass name superclass

theorem Named.find {r : Registry β} (h : r.Named) {c : ClassId} {name : String} {m : Method β}
    (hm : r.find? c name = some m) : m.name = name := by
  obtain ⟨a, _, ha⟩ := List.exists_of_findSome?_eq_some hm
  obtain ⟨e, he, hget⟩ := Option.bind_eq_some_iff.mp ha
  exact h a e he name m hget

/-- A lookup finds a method of the name that was looked up. -/
theorem Named.resolve {r : Registry β} (h : r.Named) {c : ClassId} {name : String} {iv : Bool}
    {m : Method β} (hm : (r.resolve c name iv).method = some m) : m.name = name := by
  rw [Registry.resolve] at hm
  split at hm
  · cases hm
  · exact h.find (Option.filter_eq_some_iff.mp hm).1

end Registry
end InlineCache
