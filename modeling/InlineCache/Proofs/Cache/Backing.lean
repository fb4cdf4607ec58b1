import InlineCache.Proofs.Registry.Standing
import InlineCache.World

/-! What a branch says and what it rests on. A branch is built of a resolution, and as long as the
tokens of that resolution are valid its lookups are the answers that a lookup gives now, so a
valid branch says what a lookup says. -/
namespace InlineCache

variable {β : Type}

/-- A target calls a method: the method itself, or a copy that was made of it. -/
structure CallTarget.Calls (t : CallTarget β) (m : Method β) : Prop where
  copy : t.method.IsCopy m
  itself : t.cloned = false → t.method = m

/-- A target made after a recipe. -/
inductive Target.Realizes : Target β → Recipe β → Prop where
  | direct {t : CallTarget β} {m : Method β} (calls : t.Calls m) :
      Realizes (.direct t) (.direct m)
  | handler {t : CallTarget β} {m : Method β} (calls : t.Calls m) :
      Realizes (.handler t) (.handler m)
  | probe : Realizes .probe .probe

/-- What a target says about the receivers of a class is what lookups say now, and it is a target for
the action of the site. -/
inductive Target.Agrees (r : Registry β) (o : SiteOptions) (c : ClassId) (name : String) :
    Target β → Prop where
  | direct {t : CallTarget β} {m : Method β} (action : o.action = .invoke)
      (found : (r.resolve c name o.ignoreVisibility).method = some m) (calls : t.Calls m) :
      Agrees r o c name (.direct t)
  | handler {t : CallTarget β} {m : Method β} (action : o.action = .invoke)
      (missing : o.missing = .callHandler)
      (unfound : (r.resolve c name o.ignoreVisibility).method = none)
      (found : (r.resolve c handlerName true).method = some m) (calls : t.Calls m) :
      Agrees r o c name (.handler t)
  | probe {m : Method β} (action : o.action = .probe)
      (found : (r.resolve c name o.ignoreVisibility).method = some m) : Agrees r o c name .probe

/-- A branch made of a resolution that still stands, or has lost a token of the branch. -/
structure Branch.Backed (r : Registry β) (o : SiteOptions) (name : String) (shape : Shape)
    (b : Branch β) : Prop where
  exists_resolution : ∃ res : Resolution β, res.Stands r shape.classId name o.ignoreVisibility ∧
    ∃ recipe, res.recipe? o = some (b.tokens, recipe) ∧ b.target.Realizes recipe

/-- A resolution that a site can build a branch of: the class of the receiver may be cached, and there
is a method, or a handler that the site calls and that may be cached. -/
def Resolution.Buildable (res : Resolution β) (o : SiteOptions) : Prop :=
  res.lookup.cacheable = true ∧ (res.lookup.method.isSome = true ∨
    (o.action = .invoke ∧ o.missing = .callHandler ∧
      ∃ lk ∈ res.handler, lk.method.isSome = true ∧ lk.cacheable = true))

instance (res : Resolution β) (o : SiteOptions) : Decidable (res.Buildable o) :=
  inferInstanceAs (Decidable (_ ∧ _))

/-- The three kinds of resolution that something can be built of. -/
theorem Resolution.recipe_cases {res : Resolution β} {o : SiteOptions} {tokens : List TokenId}
    {recipe : Recipe β} (h : res.recipe? o = some (tokens, recipe)) :
    res.lookup.cacheable = true ∧
      ((∃ m, o.action = .invoke ∧ res.lookup.method = some m ∧ recipe = .direct m ∧
          tokens = res.lookup.token.toList) ∨
        (∃ m, o.action = .probe ∧ res.lookup.method = some m ∧ recipe = .probe ∧
          tokens = res.lookup.token.toList) ∨
        ∃ lk m, o.action = .invoke ∧ o.missing = .callHandler ∧ res.lookup.method = none ∧
          res.handler = some lk ∧ lk.method = some m ∧ lk.cacheable = true ∧ recipe = .handler m ∧
          tokens = res.lookup.token.toList ++ lk.token.toList) := by
  rw [recipe?] at h
  cases hc : res.lookup.cacheable with
  | false => simp [hc] at h
  | true =>
    refine ⟨rfl, ?_⟩
    simp only [hc, Bool.not_true, Bool.false_eq_true, if_false] at h
    cases hm : res.lookup.method with
    | some m =>
      cases ha : o.action with
      | invoke =>
        simp only [ha, hm, Option.some.injEq, Prod.mk.injEq] at h
        exact .inl ⟨m, rfl, rfl, h.2.symm, h.1.symm⟩
      | probe =>
        simp only [ha, hm, Option.some.injEq, Prod.mk.injEq] at h
        exact .inr (.inl ⟨m, rfl, rfl, h.2.symm, h.1.symm⟩)
    | none =>
      cases ha : o.action with
      | probe => simp [ha, hm] at h
      | invoke =>
        cases ho : o.missing with
        | returnMissing => simp [ha, hm, ho] at h
        | callHandler =>
          simp only [ha, hm, ho, Option.bind_eq_some_iff, Option.ite_none_right_eq_some,
            Option.some.injEq, Prod.mk.injEq] at h
          obtain ⟨lk, hlk, m, hlm, hlc, ht, hr⟩ := h
          exact .inr (.inr ⟨lk, m, rfl, rfl, rfl, hlk, hlm, hlc, hr.symm, ht.symm⟩)

theorem Resolution.isSome_recipe_iff {res : Resolution β} {o : SiteOptions} :
    (res.recipe? o).isSome = true ↔ res.Buildable o := by
  constructor
  · intro h
    obtain ⟨⟨tokens, recipe⟩, hr⟩ := Option.isSome_iff_exists.mp h
    obtain ⟨hc, ⟨m, _, hm, _⟩ | ⟨m, _, hm, _⟩ | ⟨lk, m, ha, ho, _, hlk, hlm, hlc, _⟩⟩ :=
      recipe_cases hr
    · exact ⟨hc, .inl (hm ▸ rfl)⟩
    · exact ⟨hc, .inl (hm ▸ rfl)⟩
    · exact ⟨hc, .inr ⟨ha, ho, lk, hlk, hlm ▸ rfl, hlc⟩⟩
  · rintro ⟨hc, hcases⟩
    rw [recipe?]
    simp only [hc, Bool.not_true, Bool.false_eq_true, if_false]
    cases hm : res.lookup.method with
    | some m => cases o.action <;> rfl
    | none =>
      obtain h | ⟨ha, ho, lk, hlk, hlm, hlc⟩ := hcases
      · cases (hm ▸ h : (none : Option (Method β)).isSome = true)
      · obtain ⟨m, hlm⟩ := Option.isSome_iff_exists.mp hlm
        simp [ha, ho, Option.mem_def.mp hlk, hlm, hlc]

/-- A lookup that may be cached and whose token is valid is the answer of now. -/
theorem Lookup.Stands.resolve_eq {lk : Lookup β} {r : Registry β} {name : String} {iv : Bool}
    (h : lk.Stands r name iv) (hc : lk.cacheable = true)
    (hv : ∀ t ∈ lk.token.toList, r.tokens.isValid t = true) :
    r.resolve lk.classId name iv = lk := by
  cases ht : lk.token with
  | none => cases hc.symm.trans (h.undefined ht)
  | some t => exact h.answer t ht (hv t (by rw [ht]; exact List.mem_singleton_self t))

namespace Branch

theorem valid_iff {b : Branch β} {r : Registry β} :
    b.isValid r.tokens.isValid = true ↔ ∀ t ∈ b.tokens, r.tokens.isValid t = true := List.all_eq_true

/-- A branch that is valid now agrees with the lookups of now, on a class that may be cached. -/
theorem Backed.agrees {r : Registry β} {o : SiteOptions} {name : String} {shape : Shape}
    {b : Branch β} (h : b.Backed r o name shape) (hv : b.isValid r.tokens.isValid = true) :
    b.target.Agrees r o shape.classId name ∧
      (r.resolve shape.classId name o.ignoreVisibility).cacheable = true := by
  obtain ⟨res, hstands, recipe, hr, hreal⟩ := h
  rw [valid_iff] at hv
  obtain ⟨hc, hcases⟩ := Resolution.recipe_cases hr
  have hresolve : (∀ t ∈ res.lookup.token.toList, r.tokens.isValid t = true) →
      r.resolve shape.classId name o.ignoreVisibility = res.lookup := by
    intro ht
    rw [← hstands.classId]
    exact hstands.lookup.resolve_eq hc ht
  obtain ⟨m, ha, hm, rfl, htok⟩ | ⟨m, ha, hm, rfl, htok⟩ |
    ⟨lk, m, ha, ho, hm, hlk, hlm, hlc, rfl, htok⟩ := hcases
  · have heq := hresolve fun t ht => hv t (htok ▸ ht)
    generalize b.target = target at hreal
    cases hreal with
    | direct calls => exact ⟨.direct ha (heq ▸ hm) calls, heq ▸ hc⟩
  · have heq := hresolve fun t ht => hv t (htok ▸ ht)
    generalize b.target = target at hreal
    cases hreal with
    | probe => exact ⟨.probe ha (heq ▸ hm), heq ▸ hc⟩
  · have heq := hresolve fun t ht => hv t (htok ▸ List.mem_append_left _ ht)
    have hlkeq : r.resolve shape.classId handlerName true = lk := by
      rw [← hstands.handlerClass lk hlk]
      exact (hstands.handler lk hlk).resolve_eq hlc
        fun t ht => hv t (htok ▸ List.mem_append_right _ ht)
    generalize b.target = target at hreal
    cases hreal with
    | handler calls => exact ⟨.handler ha ho (heq ▸ hm) (hlkeq ▸ hlm) calls, heq ▸ hc⟩

/-- The tokens of a branch were handed out. -/
theorem Backed.made {r : Registry β} {o : SiteOptions} {name : String} {shape : Shape} {b : Branch β}
    (h : b.Backed r o name shape) {t : TokenId} (ht : t ∈ b.tokens) : r.tokens.Made t := by
  obtain ⟨res, hstands, recipe, hr, _⟩ := h
  have hlookup : t ∈ res.lookup.token.toList → r.tokens.Made t :=
    fun hmem => hstands.lookup.made t (Option.mem_toList.mp hmem)
  obtain ⟨_, ⟨_, _, _, _, htok⟩ | ⟨_, _, _, _, htok⟩ | ⟨lk, _, _, _, _, hlk, _, _, _, htok⟩⟩ :=
    Resolution.recipe_cases hr
  · exact hlookup (htok ▸ ht)
  · exact hlookup (htok ▸ ht)
  · rw [htok, List.mem_append] at ht
    obtain ht | ht := ht
    · exact hlookup ht
    · exact (hstands.handler lk hlk).made t (Option.mem_toList.mp ht)

/-- A branch that has lost a token does not get it back. -/
theorem Backed.not_isValid_evolve {r r' : Registry β} {o : SiteOptions} {name : String}
    {shape : Shape} {b : Branch β} (h : b.Backed r o name shape) (he : Registry.Evolves r r')
    (hv : b.isValid r.tokens.isValid = false) : b.isValid r'.tokens.isValid = false := by
  rw [Bool.eq_false_iff] at hv ⊢
  exact fun hv' => hv (valid_iff.mpr fun t ht => he.ended t (h.made ht) (valid_iff.mp hv' t ht))

theorem Backed.evolve {r r' : Registry β} {o : SiteOptions} {name : String} {shape : Shape}
    {b : Branch β} (h : b.Backed r o name shape) (he : Registry.Evolves r r') :
    b.Backed r' o name shape := by
  obtain ⟨res, hstands, hrecipe⟩ := h
  exact ⟨res, hstands.evolve he, hrecipe⟩

end Branch

namespace World

theorem calls_prepare (w : World β) (i : Nat) (m : Method β) : (w.prepare i m).2.Calls m := by
  rw [prepare]
  split
  · exact ⟨m.isCopy_copy _, nofun⟩
  · exact ⟨⟨rfl, rfl⟩, fun _ => rfl⟩

theorem tokens_buildBranch (w : World β) (i : Nat) (tokens : List TokenId) (recipe : Recipe β) :
    (w.buildBranch i (tokens, recipe)).2.tokens = tokens := by
  cases recipe <;> rfl

theorem realizes_buildBranch (w : World β) (i : Nat) (tokens : List TokenId) (recipe : Recipe β) :
    (w.buildBranch i (tokens, recipe)).2.target.Realizes recipe := by
  cases recipe with
  | direct m => exact .direct (calls_prepare w i m)
  | handler m => exact .handler (calls_prepare w i m)
  | probe => exact .probe

end World
end InlineCache
