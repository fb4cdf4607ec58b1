import InlineCache.Proofs.Registry.Rollover

/-! Histories of a registry. Whatever is done to a registry, a class whose token is still valid
afterwards gives the same answers as before: an operation that could change an answer ends the
tokens of all classes it could change it for. -/
namespace InlineCache.Registry

variable {β : Type}

/-- An operation on a registry. The method of a definition comes with its number and its owner. -/
inductive Operation (β : Type) where
  | defineClass (name : String) (superclass : Option ClassId)
  | setCacheable (c : ClassId) (cacheable : Bool)
  | defineMethod (m : Method β)
  | removeMethod (c : ClassId) (name : String)
  | freshToken (name : String)
  | invalidateToken (t : TokenId)

/-- The registry after an operation; a refusal leaves it as it was. -/
def perform (r : Registry β) : Operation β → Registry β
  | .defineClass name superclass => match r.defineClass name superclass with
    | .ok (r, _) => r
    | .error _ => r
  | .setCacheable c cacheable => match r.setCacheable c cacheable with
    | .ok r => r
    | .error _ => r
  | .defineMethod m => match r.defineMethod m with
    | .ok r => r
    | .error _ => r
  | .removeMethod c name => match r.removeMethod c name with
    | .ok (r, _) => r
    | .error _ => r
  | .freshToken name => (r.freshToken name).1
  | .invalidateToken t => r.invalidateToken t

/-- The class that an operation changes the entry of, if it is not refused and not idle. -/
def changed? (r : Registry β) : Operation β → Option ClassId
  | .setCacheable c _ => if (r.entry? c).isSome then some c else none
  | .defineMethod m => if (r.entry? m.owner).isSome then some m.owner else none
  | .removeMethod c name =>
    if (r.entry? c).any fun e => e.methods.contains name then some c else none
  | _ => none

/-- An edit of an entry that leaves the name, the superclass and the token alone. -/
def KeepsTree (f : ClassEntry β → ClassEntry β) : Prop :=
  ∀ e, (f e).name = e.name ∧ (f e).superclass = e.superclass ∧ (f e).unmodified = e.unmodified

/-- A registry with the entry of a class edited and no token touched. -/
def edited (r : Registry β) (c : ClassId) (f : ClassEntry β → ClassEntry β) : Registry β :=
  { r with classes := r.classes.modify c.number f }

theorem entry_edited (r : Registry β) (c x : ClassId) (f : ClassEntry β → ClassEntry β) :
    entry? (r.edited c f) x = if x = c then (r.entry? x).map f else r.entry? x :=
  entry_modify r r.tokens c x f

theorem superclass_edited (r : Registry β) (c x : ClassId) {f : ClassEntry β → ClassEntry β}
    (hf : KeepsTree f) : (Registry.entry? (r.edited c f) x).map ClassEntry.superclass =
      (r.entry? x).map ClassEntry.superclass := by
  rw [entry_edited]
  by_cases hx : x = c
  · rw [if_pos hx, Option.map_map]
    exact congrArg (fun g => (r.entry? x).map g) (funext fun e => (hf e).2.1)
  · rw [if_neg hx]

theorem currentToken_edited (r : Registry β) (c x : ClassId) {f : ClassEntry β → ClassEntry β}
    (hf : KeepsTree f) : (r.edited c f).currentToken? x = r.currentToken? x := by
  rw [currentToken?, currentToken?, entry_edited]
  by_cases hx : x = c
  · rw [if_pos hx, Option.map_map]
    exact congrArg (fun g => (r.entry? x).map g)
      (funext fun e => congrArg RollingToken.current (hf e).2.2)
  · rw [if_neg hx]

theorem ancestry_edited (r : Registry β) (c x : ClassId) {f : ClassEntry β → ClassEntry β}
    (hf : KeepsTree f) : (r.edited c f).ancestry x = r.ancestry x :=
  ancestry_congr x fun y _ => superclass_edited r c y hf

theorem inherits_edited (r : Registry β) (c x a : ClassId) {f : ClassEntry β → ClassEntry β}
    (hf : KeepsTree f) : (r.edited c f).inherits x a = r.inherits x a :=
  inherits_congr (ancestry_edited r c x hf)

theorem WellFormed.edited {r : Registry β} (h : r.WellFormed) (c : ClassId)
    {f : ClassEntry β → ClassEntry β} (hf : KeepsTree f) : (r.edited c f).WellFormed := by
  refine ⟨?_, ?_, ?_⟩
  · intro x e s he hs
    have hx := superclass_edited r c x hf
    rw [he, Option.map_some, eq_comm, Option.map_eq_some_iff] at hx
    obtain ⟨e', he', hs'⟩ := hx
    exact h.superclass_lt x e' s he' (hs'.trans hs)
  · intro x t ht
    exact h.made x t (currentToken_edited r c x hf ▸ ht)
  · intro x y t hx hy
    exact h.unique x y t (currentToken_edited r c x hf ▸ hx) (currentToken_edited r c y hf ▸ hy)

/-- A change of a class is an edit of its entry and a rollover of all that is below it. -/
theorem rolledOver_change {r : Registry β} (h : r.WellFormed) (c : ClassId)
    {f : ClassEntry β → ClassEntry β} (hf : KeepsTree f) :
    RolledOver (r.edited c f) (r.change c f) (fun x => r.inherits x c = true) ∧
      (r.change c f).WellFormed := by
  have hover := rolledOver_rollBelow (h.edited c hf) c
  simp only [inherits_edited r c _ c hf] at hover
  exact hover

theorem RolledOver.superclass {r r' : Registry β} {rolled : ClassId → Prop}
    (h : RolledOver r r' rolled) (x : ClassId) :
    (r'.entry? x).map ClassEntry.superclass = (r.entry? x).map ClassEntry.superclass := by
  by_cases hx : rolled x
  · cases he : r.entry? x with
    | none =>
      have hn : r'.entry? x = none := by
        unfold entry? at he ⊢
        rw [Array.getElem?_eq_none_iff] at he ⊢
        rw [h.size]
        exact he
      rw [hn]
    | some e =>
      obtain ⟨u, hu, _⟩ := h.fresh x e hx he
      rw [hu]
      rfl
  · rw [h.kept x hx]

theorem defined_addClass {r : Registry β} {x : ClassId} {e : ClassEntry β} (name : String)
    (superclass : Option ClassId) (h : r.entry? x = some e) :
    entry? (r.addClass name superclass) x = some e := by
  have hne := Nat.ne_of_lt (lt_of_entry h)
  unfold entry? at h ⊢
  simpa [addClass, Array.getElem?_push, hne] using h

theorem currentToken_addClass {r : Registry β} {x : ClassId} {t : TokenId} {name : String}
    {superclass : Option ClassId} (h : (r.addClass name superclass).currentToken? x = some t) :
    r.currentToken? x = some t ∨ (x = ⟨r.classes.size⟩ ∧ t = ⟨r.tokens.entries.size⟩) := by
  obtain ⟨e, he, rfl⟩ := currentToken?_eq_some.mp h
  unfold entry? at he
  simp only [addClass, Array.getElem?_push] at he
  split at he
  · rename_i hx
    rw [Option.some.injEq] at he
    subst he
    exact .inr ⟨by cases x; simp_all, rfl⟩
  · exact .inl (currentToken?_eq_some.mpr ⟨e, he, rfl⟩)

theorem WellFormed.addClass {r : Registry β} (h : r.WellFormed) (name : String)
    {superclass : Option ClassId} (hs : ∀ s, superclass = some s → s.number < r.classes.size) :
    (r.addClass name superclass).WellFormed := by
  have hsize : (r.addClass name superclass).tokens.entries.size = r.tokens.entries.size + 1 :=
    TokenStore.size_fresh r.tokens (name ++ " unmodified")
  refine ⟨?_, ?_, ?_⟩
  · intro x e s he hes
    unfold entry? at he
    simp only [Registry.addClass, Array.getElem?_push] at he
    split at he
    · rename_i hx
      rw [Option.some.injEq] at he
      subst he
      exact hx ▸ hs s hes
    · exact h.superclass_lt x e s he hes
  · intro x t ht
    rw [TokenStore.Made, hsize]
    obtain ht | ⟨_, rfl⟩ := currentToken_addClass ht
    · exact Nat.lt_succ_of_lt (h.made x t ht)
    · exact Nat.lt_succ_self _
  · intro x y t hx hy
    obtain hx | ⟨rfl, rfl⟩ := currentToken_addClass hx <;>
      obtain hy | ⟨rfl, hty⟩ := currentToken_addClass hy
    · exact h.unique x y t hx hy
    · exact absurd (hty ▸ h.made x t hx) (Nat.lt_irrefl _)
    · exact absurd (h.made y _ hy) (Nat.lt_irrefl _)
    · rfl

/-- Lookups do not read the tokens of others, nor whether a token is valid. -/
theorem resolve_of_tokens (r : Registry β) (tokens : TokenStore) (c : ClassId) (name : String)
    (iv : Bool) : resolve { r with tokens } c name iv = r.resolve c name iv := by
  have he : ∀ x, Registry.entry? { r with tokens } x = r.entry? x := fun _ => rfl
  refine resolve_congr (he c) (ancestry_congr c fun x _ => ?_) (fun a _ => ?_) name iv
  · rw [he x]
  · rw [he a]

theorem resolve_addClass {r : Registry β} {c : ClassId} {e : ClassEntry β} (he : r.entry? c = some e)
    (name : String) (superclass : Option ClassId) (message : String) (iv : Bool) :
    (r.addClass name superclass).resolve c message iv = r.resolve c message iv := by
  have hold : ∀ x : ClassId, x.number < r.classes.size →
      Registry.entry? (r.addClass name superclass) x = r.entry? x := by
    intro x hx
    obtain ⟨e, he⟩ := Option.isSome_iff_exists.mp (entry_isSome_iff.mpr hx)
    rw [he, defined_addClass name superclass he]
  have hlt := lt_of_entry he
  refine resolve_congr (hold c hlt) (ancestry_congr c fun x hx => ?_) (fun a ha => ?_) message iv
  · rw [hold x (by omega)]
  · obtain ⟨ea, hea⟩ := defined_of_mem_ancestry ha
    rw [hold a (lt_of_entry hea)]

/-- A change of a class is invisible to the lookups on a class that is not below it. -/
theorem resolve_change {r : Registry β} (hw : r.WellFormed) {c x : ClassId}
    {f : ClassEntry β → ClassEntry β} (hf : KeepsTree f) {e : ClassEntry β}
    (he : r.entry? x = some e) (hx : ¬ r.inherits x c = true) (name : String) (iv : Bool) :
    (r.change c f).resolve x name iv = r.resolve x name iv := by
  obtain ⟨hover, _⟩ := rolledOver_change hw c hf
  have hkept : ∀ a ∈ r.ancestry x, Registry.entry? (r.change c f) a = r.entry? a := by
    intro a ha
    have hac : ¬ r.inherits a c = true := fun hin =>
      hx (inherits_iff.mpr (mem_ancestry_trans ha (inherits_iff.mp hin)))
    have hne : a ≠ c := by
      rintro rfl
      exact hx (inherits_iff.mpr ha)
    rw [hover.kept a hac, entry_edited, if_neg hne]
  refine resolve_congr (hkept x (self_mem_ancestry he)) ?_ (fun a ha => ?_) name iv
  · exact ancestry_congr x fun y _ => (hover.superclass y).trans (superclass_edited r c y hf)
  · rw [hkept a ha]

/-- What a registry owes to those who looked something up in an earlier one: tokens do not become
valid again, and a class keeps its answers for as long as its token is valid. -/
structure Evolves (r r' : Registry β) : Prop where
  grown : r.tokens.entries.size ≤ r'.tokens.entries.size
  ended : ∀ t, r.tokens.Made t → r'.tokens.isValid t = true → r.tokens.isValid t = true
  answers : ∀ c t, r.currentToken? c = some t → r'.tokens.isValid t = true →
    ∀ name iv, r'.resolve c name iv = r.resolve c name iv

namespace Evolves

theorem refl (r : Registry β) : Evolves r r :=
  ⟨Nat.le_refl _, fun _ _ h => h, fun _ _ _ _ _ _ => rfl⟩

theorem made {r r' : Registry β} (h : Evolves r r') {t : TokenId} (ht : r.tokens.Made t) :
    r'.tokens.Made t := Nat.lt_of_lt_of_le ht h.grown

/-- A valid token that was current is still current. -/
theorem currentToken {r r' : Registry β} (h : Evolves r r') {c : ClassId} {t : TokenId}
    (hc : r.currentToken? c = some t) (hv : r'.tokens.isValid t = true) :
    r'.currentToken? c = some t := by
  rw [← token_resolve r' c "" true, h.answers c t hc hv "" true, token_resolve, hc]

theorem trans {r r' r'' : Registry β} (hw : r.WellFormed) (h : Evolves r r')
    (h' : Evolves r' r'') : Evolves r r'' := by
  refine ⟨Nat.le_trans h.grown h'.grown, ?_, ?_⟩
  · intro t ht hv
    exact h.ended t ht (h'.ended t (h.made ht) hv)
  · intro c t hc hv name iv
    have hv' := h'.ended t (h.made (hw.made c t hc)) hv
    rw [h'.answers c t (h.currentToken hc hv') hv, h.answers c t hc hv']

/-- Nothing but the tokens differs, and of these only new ones are valid that were not before. -/
theorem of_tokens {r : Registry β} {tokens : TokenStore}
    (hs : r.tokens.entries.size ≤ tokens.entries.size)
    (hv : ∀ t, r.tokens.Made t → tokens.isValid t = true → r.tokens.isValid t = true) :
    Evolves r { r with tokens } :=
  ⟨hs, hv, fun c _ _ _ name iv => resolve_of_tokens r tokens c name iv⟩

theorem addClass (r : Registry β) (name : String) (superclass : Option ClassId) :
    Evolves r (r.addClass name superclass) := by
  have hsize : (r.addClass name superclass).tokens.entries.size = r.tokens.entries.size + 1 :=
    TokenStore.size_fresh r.tokens (name ++ " unmodified")
  refine ⟨by omega, ?_, ?_⟩
  · intro t ht hv
    exact TokenStore.isValid_fresh (name ++ " unmodified") ht ▸ hv
  · intro c t hc _ n iv
    obtain ⟨e, he, _⟩ := currentToken?_eq_some.mp hc
    exact resolve_addClass he name superclass n iv

/-- The key step: a class whose token outlives a change is not below the changed class, so nothing
along its ancestry has changed. -/
theorem change {r : Registry β} (hw : r.WellFormed) (c : ClassId)
    {f : ClassEntry β → ClassEntry β} (hf : KeepsTree f) : Evolves r (r.change c f) := by
  obtain ⟨hover, _⟩ := rolledOver_change hw c hf
  refine ⟨hover.grown, fun t ht hv => ((hover.isValid t ht).mp hv).1, ?_⟩
  intro x t hx hv name iv
  have hnot : ¬ r.inherits x c = true := fun hin =>
    ((hover.isValid t (hw.made x t hx)).mp hv).2 x hin (by rw [currentToken_edited r c x hf, hx])
  obtain ⟨e, he, _⟩ := currentToken?_eq_some.mp hx
  exact resolve_change hw hf he hnot name iv

end Evolves

theorem WellFormed.of_tokens {r : Registry β} (h : r.WellFormed) {tokens : TokenStore}
    (hs : r.tokens.entries.size ≤ tokens.entries.size) : WellFormed { r with tokens } :=
  ⟨h.superclass_lt, fun c t ht => Nat.lt_of_lt_of_le (h.made c t ht) hs, h.unique⟩

/-- The edits of an entry that operations make. -/
inductive Edit : (ClassEntry β → ClassEntry β) → Prop where
  | cacheable (b : Bool) : Edit fun e => { e with cacheable := b }
  | put (m : Method β) : Edit fun e => { e with methods := e.methods.put m.name m }
  | erase (name : String) : Edit fun e => { e with methods := e.methods.erase name }

theorem Edit.keepsTree {f : ClassEntry β → ClassEntry β} (h : Edit f) : KeepsTree f := by
  cases h <;> exact fun _ => ⟨rfl, rfl, rfl⟩

/-- What an operation does to a registry: nothing, a new class, a change of a class that is then
rolled over with all below it, or something to the tokens that belong to no class. -/
theorem perform_cases (r : Registry β) (op : Operation β) :
    (r.changed? op = none ∧ r.perform op = r) ∨
    (∃ name s, r.changed? op = none ∧ s.number < r.classes.size ∧
      r.perform op = r.addClass name (some s)) ∨
    (∃ c f, r.changed? op = some c ∧ Edit f ∧ r.perform op = r.change c f) ∨
    (∃ name, op = .freshToken name ∧ r.perform op = (r.freshToken name).1) ∨
    (∃ t, op = .invalidateToken t ∧ r.perform op = r.invalidateToken t) := by
  cases op with
  | defineClass name superclass =>
    cases hs : r.entry? (superclass.getD .object) with
    | none => exact .inl ⟨rfl, by simp [perform, defineClass, hs]⟩
    | some e =>
      cases hn : r.classId? name with
      | some d => exact .inl ⟨rfl, by simp [perform, defineClass, hs, hn]⟩
      | none =>
        refine .inr (.inl ⟨name, superclass.getD .object, rfl, lt_of_entry hs, ?_⟩)
        simp [perform, defineClass, hs, hn]
  | setCacheable c cacheable =>
    cases hc : r.entry? c with
    | none => exact .inl ⟨by simp [changed?, hc], by simp [perform, setCacheable, hc]⟩
    | some e =>
      refine .inr (.inr (.inl ⟨c, _, by simp [changed?, hc], .cacheable cacheable, ?_⟩))
      simp [perform, setCacheable, hc]
  | defineMethod m =>
    cases hc : r.entry? m.owner with
    | none => exact .inl ⟨by simp [changed?, hc], by simp [perform, defineMethod, hc]⟩
    | some e =>
      refine .inr (.inr (.inl ⟨m.owner, _, by simp [changed?, hc], .put m, ?_⟩))
      simp [perform, defineMethod, hc]
  | removeMethod c name =>
    cases hc : r.entry? c with
    | none => exact .inl ⟨by simp [changed?, hc], by simp [perform, removeMethod, hc]⟩
    | some e =>
      by_cases hm : e.methods.contains name = true
      · refine .inr (.inr (.inl ⟨c, _, by simp [changed?, hc, hm], .erase name, ?_⟩))
        simp [perform, removeMethod, hc, hm]
      · exact .inl ⟨by simp [changed?, hc, hm], by simp [perform, removeMethod, hc, hm]⟩
  | freshToken name => exact .inr (.inr (.inr (.inl ⟨name, rfl, rfl⟩)))
  | invalidateToken t => exact .inr (.inr (.inr (.inr ⟨t, rfl, rfl⟩)))

theorem WellFormed.perform {r : Registry β} (h : r.WellFormed) (op : Operation β) :
    (r.perform op).WellFormed := by
  obtain ⟨_, he⟩ | ⟨name, s, _, hs, he⟩ | ⟨c, f, _, hf, he⟩ | ⟨name, _, he⟩ | ⟨t, _, he⟩ :=
    perform_cases r op <;> rw [he]
  · exact h
  · exact h.addClass name fun s' hs' => Option.some.inj hs' ▸ hs
  · exact (rolledOver_change h c hf.keepsTree).2
  · exact h.of_tokens (Nat.le_of_lt (by simp))
  · exact h.of_tokens (Nat.le_of_eq (TokenStore.size_invalidate r.tokens t).symm)

theorem evolves_perform {r : Registry β} (h : r.WellFormed) (op : Operation β) :
    Evolves r (r.perform op) := by
  obtain ⟨_, he⟩ | ⟨name, s, _, _, he⟩ | ⟨c, f, _, hf, he⟩ | ⟨name, _, he⟩ | ⟨t, _, he⟩ :=
    perform_cases r op <;> rw [he]
  · exact .refl r
  · exact .addClass r name (some s)
  · exact .change h c hf.keepsTree
  · refine .of_tokens (Nat.le_of_lt (by simp)) fun t ht hv => ?_
    exact TokenStore.isValid_fresh name ht ▸ hv
  · refine .of_tokens (Nat.le_of_eq (TokenStore.size_invalidate r.tokens t).symm) fun u _ hv => ?_
    rw [TokenStore.isValid_invalidate, Bool.and_eq_true] at hv
    exact hv.2

/-- An operation that changes neither a class nor anything above it is invisible to the lookups on the
class, whatever it does to tokens. -/
theorem resolve_perform {r : Registry β} (h : r.WellFormed) {op : Operation β} {x : ClassId}
    {e : ClassEntry β} (he : r.entry? x = some e)
    (hx : ∀ c, r.changed? op = some c → ¬ r.inherits x c = true) (name : String) (iv : Bool) :
    (r.perform op).resolve x name iv = r.resolve x name iv := by
  obtain ⟨_, hp⟩ | ⟨_, _, _, _, hp⟩ | ⟨c, f, hc, hf, hp⟩ | ⟨_, _, hp⟩ | ⟨_, _, hp⟩ :=
    perform_cases r op <;> rw [hp]
  · exact resolve_addClass he _ _ name iv
  · exact resolve_change h hf.keepsTree he (hx c hc) name iv
  · exact resolve_of_tokens r _ x name iv
  · exact resolve_of_tokens r _ x name iv

/-- A change of a class ends the token of every class that inherits from it. -/
theorem not_isValid_perform {r : Registry β} (h : r.WellFormed) {op : Operation β} {c x : ClassId}
    {t : TokenId} (hc : r.changed? op = some c) (hx : r.inherits x c = true)
    (ht : r.currentToken? x = some t) : (r.perform op).tokens.isValid t = false := by
  obtain ⟨hn, _⟩ | ⟨_, _, hn, _⟩ | ⟨d, f, hd, hf, he⟩ | ⟨name, rfl, _⟩ | ⟨u, rfl, _⟩ :=
    perform_cases r op
  · cases hn.symm.trans hc
  · cases hn.symm.trans hc
  · obtain rfl : d = c := Option.some.inj (hd.symm.trans hc)
    rw [he, Bool.eq_false_iff]
    intro hv
    refine (((rolledOver_change h d hf.keepsTree).1.isValid t (h.made x t ht)).mp hv).2 x hx ?_
    rw [currentToken_edited r d x hf.keepsTree, ht]
  · cases hc
  · cases hc

/-- The registry after a history of operations. -/
def performAll (r : Registry β) (ops : List (Operation β)) : Registry β := ops.foldl perform r

theorem evolves_performAll {r : Registry β} (h : r.WellFormed) (ops : List (Operation β)) :
    Evolves r (r.performAll ops) ∧ (r.performAll ops).WellFormed := by
  induction ops generalizing r with
  | nil => exact ⟨.refl r, h⟩
  | cons op rest ih =>
    obtain ⟨he, hw⟩ := ih (h.perform op)
    exact ⟨(evolves_perform h op).trans h he, hw⟩

/-- Once a class or something above it has been changed, the token that was handed out for the class
before is over for good. -/
theorem not_isValid_performAll {r : Registry β} (h : r.WellFormed) {before after : List (Operation β)}
    {op : Operation β} {c x : ClassId} {t : TokenId} (ht : r.currentToken? x = some t)
    (hc : (r.performAll before).changed? op = some c)
    (hx : (r.performAll before).inherits x c = true) :
    (r.performAll (before ++ op :: after)).tokens.isValid t = false := by
  obtain ⟨hev, hwf⟩ := evolves_performAll h before
  have hstep := evolves_perform hwf op
  have hrest := (evolves_performAll (hwf.perform op) after).1
  have hmade := hev.made (h.made x t ht)
  rw [performAll, List.foldl_append, List.foldl_cons, Bool.eq_false_iff]
  intro hv
  have hv₂ := hrest.ended t (hstep.made hmade) hv
  have hcur := hev.currentToken ht (hstep.ended t hmade hv₂)
  rw [not_isValid_perform hwf hc hx hcur] at hv₂
  cases hv₂

/-- The builtin registry is made by adding classes one after the other. -/
theorem builtin_induct {motive : Registry β → Prop} (empty : motive {})
    (addClass : ∀ (r : Registry β) (name : String) (superclass : Option ClassId),
      (∀ s, superclass = some s → s.number < r.classes.size) → motive r →
      motive (r.addClass name superclass)) : motive builtin := by
  have hfold : ∀ (names : List String) (r : Registry β), motive r →
      motive (names.foldl (fun r name =>
        r.addClass name (if r.classes.isEmpty then none else some .object)) r) := by
    intro names
    induction names with
    | nil => exact fun _ h => h
    | cons name rest ih =>
      refine fun r h => ih _ (addClass r name _ (fun s hs => ?_) h)
      by_cases he : r.classes.isEmpty = true
      · simp [he] at hs
      · simp only [he, Bool.false_eq_true, if_false, Option.some.injEq] at hs
        rw [← hs, ClassId.object]
        exact Nat.pos_of_ne_zero fun hz => he (Array.isEmpty_iff_size_eq_zero.mpr hz)
  exact hfold builtinNames {} empty

theorem not_defined_empty (c : ClassId) (t : TokenId) :
    ({} : Registry β).currentToken? c ≠ some t := by
  simp [currentToken?, Registry.entry?]

theorem wellFormed_empty : ({} : Registry β).WellFormed :=
  ⟨fun _ _ _ he => absurd (lt_of_entry he) (Nat.not_lt_zero _),
    fun c t ht => absurd ht (not_defined_empty c t),
    fun c _ t hc => absurd hc (not_defined_empty c t)⟩

theorem wellFormed_builtin : (builtin : Registry β).WellFormed :=
  builtin_induct wellFormed_empty fun _ name _ hs h => h.addClass name hs

end InlineCache.Registry
