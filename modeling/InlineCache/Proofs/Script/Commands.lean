import InlineCache.Proofs.Agreement
import InlineCache.Proofs.World.Nesting
import InlineCache.Script.Session

/-! The steps of a script during which nothing else happens. Each of them does to the world of a
session what events outside of any send do, and keeps the names of the session in order. -/
namespace InlineCache.Script

namespace Session

/-- A session within a system: they share the world, the shared invoker is there, and every name of a
site stands for one that is there. -/
structure Within (s : Session) (σ : System Body) : Prop where
  world : σ.world = s.world
  invoker : sharedInvoker < s.world.invokers.size
  sites : ∀ name id, s.sites.get? name = some id → id.place < s.world.sites.size

/-- Whatever system the first session is within, events that leave alone all sends begun so far lead
to one that the second session is within. -/
def Reaches (s s' : Session) : Prop :=
  ∀ σ : System Body, s.Within σ → ∃ τ, σ.Leads σ.sends.size τ ∧ s'.Within τ

variable {s s' s'' : Session}

theorem named_eq_ok {α : Type} {t : Table α} {kind name : String} {x : α} :
    named t kind name = .ok x ↔ t.get? name = some x := by
  rw [named]
  cases t.get? name with
  | none =>
    constructor
    · intro h
      cases h
    · intro h
      cases h
  | some y => simp only [Except.ok.injEq, Option.some.injEq]

theorem within_start (bound : Nat) (cloning : Bool) :
    (start bound cloning).Within (System.run [.act (.addInvoker cloning)]) :=
  ⟨rfl, Nat.zero_lt_one, fun _ _ h => by cases h⟩

/-- A session goes on with its system if its names of sites stay the same. -/
theorem Within.step {σ : System Body} (h : s.Within σ) (e : Event Body)
    (hworld : s'.world = (σ.step e).world) (hnames : s'.sites = s.sites) :
    s'.Within (σ.step e) := by
  have hgrown := System.grown_step σ e
  rw [← hworld, h.world] at hgrown
  exact ⟨hworld.symm, Nat.lt_of_lt_of_le h.invoker hgrown.invokers,
    fun name id hid => Nat.lt_of_lt_of_le (h.sites name id (hnames ▸ hid)) hgrown.sites⟩

namespace Reaches

/-- Nothing but names was given, and not to sites. -/
theorem of_same (hworld : s'.world = s.world) (hnames : s'.sites = s.sites) : s.Reaches s' := by
  intro σ h
  refine ⟨σ, .refl _ σ, h.world.trans hworld.symm, ?_, ?_⟩
  · rw [hworld]
    exact h.invoker
  · rw [hworld, hnames]
    exact h.sites

theorem refl (s : Session) : s.Reaches s := of_same rfl rfl

theorem trans (h : s.Reaches s') (h' : s'.Reaches s'') : s.Reaches s'' := by
  intro σ hs
  obtain ⟨τ, hτ, hs'⟩ := h σ hs
  obtain ⟨υ, hυ, hs''⟩ := h' τ hs'
  exact ⟨υ, hτ.trans (hυ.mono hτ.size_sends), hs''⟩

theorem of_act (a : Act Body) (hworld : s'.world = s.world.act a) (hnames : s'.sites = s.sites) :
    s.Reaches s' := by
  intro σ h
  refine ⟨σ.step (.act a), .of_step (e := .act a) trivial σ, h.step (.act a) ?_ hnames⟩
  rw [hworld, ← h.world]
  rfl

end Reaches

theorem reaches_eval {e : Expr} {v : Value} (h : s.eval e = .ok (s', v)) : s.Reaches s' := by
  cases e with
  | value u =>
    cases h
    exact .refl s
  | new c =>
    obtain ⟨c, _, h⟩ := ok_of_bind h
    cases h
    exact .of_act (.newObject c) rfl rfl
  | ofVar name =>
    obtain ⟨u, _, h⟩ := ok_of_bind h
    cases h
    exact .refl s

theorem reaches_evalAll {es : List Expr} {vs : List Value} (h : s.evalAll es = .ok (s', vs)) :
    s.Reaches s' := by
  induction es generalizing s vs with
  | nil =>
    cases h
    exact .refl _
  | cons e rest ih =>
    obtain ⟨⟨s₁, v⟩, he, h⟩ := ok_of_bind h
    obtain ⟨⟨s₂, us⟩, hrest, h⟩ := ok_of_bind h
    cases h
    exact (reaches_eval he).trans (ih hrest)

theorem reaches_evalCall {name : String} {receiver : Expr} {args : List Expr}
    {block : Option Expr} {call : Call} (h : s.evalCall name receiver args block = .ok (s', call)) :
    s.Reaches s' := by
  obtain ⟨⟨s₁, v⟩, hreceiver, h⟩ := ok_of_bind h
  obtain ⟨⟨s₂, vs⟩, hargs, h⟩ := ok_of_bind h
  have hboth := (reaches_eval hreceiver).trans (reaches_evalAll hargs)
  cases block with
  | none =>
    cases h
    exact hboth
  | some b =>
    obtain ⟨⟨s₃, u⟩, hblock, h⟩ := ok_of_bind h
    cases h
    exact hboth.trans (reaches_eval hblock)

theorem reaches_evalBody {spec : BodySpec} {body : Body} (h : s.evalBody spec = .ok (s', body)) :
    s.Reaches s' := by
  cases spec with
  | const e =>
    obtain ⟨⟨s₁, v⟩, he, h⟩ := ok_of_bind h
    cases h
    exact reaches_eval he
  | run steps e =>
    obtain ⟨⟨s₁, v⟩, he, h⟩ := ok_of_bind h
    cases h
    exact reaches_eval he
  | _ =>
    cases h
    exact .refl s

/-- A site with an invoker that is there comes under a name. -/
theorem reaches_addSite (s : Session) (as name : String) (options : SiteOptions) (bound invoker : Nat)
    (hinvoker : invoker < s.world.invokers.size) :
    s.Reaches { s with
      world := (s.world.addSite { name, options, bound, invoker }).1
      sites := s.sites.put as (s.world.addSite { name, options, bound, invoker }).2 } := by
  intro σ h
  refine ⟨σ.step (.act (.addSite name options bound invoker)), .of_step (e := .act _) trivial σ, ?_,
    h.invoker, fun other id hid => ?_⟩
  · simp only [System.step, World.act, h.world, if_pos hinvoker]
  · simp only [World.addSite, Table.get?_put, Array.size_push] at hid ⊢
    split at hid
    · cases hid
      exact Nat.lt_succ_self _
    · exact Nat.lt_succ_of_lt (h.sites other id hid)

/-- What a step does during which nothing else happens, events outside of any send do. -/
theorem reaches_perform {c : Command} {a : Answer} (h : s.perform c = .ok (s', a)) :
    s.Reaches s' := by
  cases c with
  | defineClass name superclass =>
    cases superclass with
    | none =>
      cases h
      exact .of_act (.defineClass name none) rfl rfl
    | some c =>
      obtain ⟨superclass, _, h⟩ := ok_of_bind h
      cases h
      exact .of_act (.defineClass name superclass) rfl rfl
  | setCacheable c cacheable =>
    obtain ⟨c, _, h⟩ := ok_of_bind h
    cases h
    exact .of_act (.setCacheable c cacheable) rfl rfl
  | define c name body isPrivate alwaysClone as =>
    obtain ⟨c, _, h⟩ := ok_of_bind h
    obtain ⟨⟨s₁, body⟩, hbody, h⟩ := ok_of_bind h
    cases h
    exact (reaches_evalBody hbody).trans
      (.of_act (.defineMethod c { name, isPrivate, alwaysClone, body }) rfl rfl)
  | remove c name =>
    obtain ⟨c, _, h⟩ := ok_of_bind h
    cases h
    exact .of_act (.removeMethod c name) rfl rfl
  | classInfo c =>
    simp only [perform] at h
    split at h
    · cases h
      exact .refl s
    · cases h
      exact .refl s
  | classOf e =>
    obtain ⟨⟨s₁, v⟩, he, h⟩ := ok_of_bind h
    cases h
    exact reaches_eval he
  | bind e as =>
    obtain ⟨⟨s₁, v⟩, he, h⟩ := ok_of_bind h
    cases h
    exact (reaches_eval he).trans (.of_same rfl rfl)
  | equal a b =>
    obtain ⟨⟨s₁, u⟩, ha, h⟩ := ok_of_bind h
    obtain ⟨⟨s₂, v⟩, hb, h⟩ := ok_of_bind h
    cases h
    exact (reaches_eval ha).trans (reaches_eval hb)
  | resolve c name ignoreVisibility as =>
    obtain ⟨c, _, h⟩ := ok_of_bind h
    cases ht : (s.world.registry.resolve c name ignoreVisibility).token with
    | none =>
      simp only [ht] at h
      cases h
      exact .of_act (.freshToken (c.display ++ " unknown")) rfl rfl
    | some t =>
      simp only [ht] at h
      cases h
      exact .of_same rfl rfl
  | unmodified c as =>
    obtain ⟨c, _, h⟩ := ok_of_bind h
    split at h
    · cases h
      exact .refl s
    · cases h
      exact .of_same rfl rfl
  | newToken name as =>
    cases h
    exact .of_act (.freshToken name) rfl rfl
  | invalidateToken name =>
    obtain ⟨t, _, h⟩ := ok_of_bind h
    cases h
    exact .of_act (.invalidateToken t) rfl rfl
  | newRolling name as =>
    cases h
    exact .of_act (.freshToken name) rfl rfl
  | rolling name as =>
    obtain ⟨r, _, h⟩ := ok_of_bind h
    cases h
    exact .of_same rfl rfl
  | roll name =>
    obtain ⟨r, _, h⟩ := ok_of_bind h
    cases h
    let s₁ : Session := { s with world := s.world.act (.freshToken r.name) }
    have hfresh : s.Reaches s₁ := .of_act (.freshToken r.name) rfl rfl
    exact hfresh.trans (.of_act (.invalidateToken r.current) rfl rfl)
  | prepare name how as =>
    obtain ⟨m, _, h⟩ := ok_of_bind h
    cases how with
    | byInvoker =>
      cases h
      exact .of_act (.prepare sharedInvoker m) rfl rfl
    | direct =>
      cases h
      exact .of_same rfl rfl
    | cloned =>
      cases h
      exact .of_act (.cloneTarget m) rfl rfl
  | site as name options bound cloning =>
    cases cloning with
    | none =>
      cases h
      exact fun σ h => reaches_addSite s as name options (bound.getD s.bound) sharedInvoker
        h.invoker σ h
    | some cloning =>
      cases h
      let s₁ : Session := { s with world := s.world.act (.addInvoker cloning) }
      have hadded : s.Reaches s₁ := .of_act (.addInvoker cloning) rfl rfl
      exact hadded.trans (reaches_addSite s₁ as name options (bound.getD s.bound)
        s.world.invokers.size (Array.size_push _ ▸ Nat.lt_succ_self _))
  | tokens =>
    cases h
    exact .refl s
  | counters =>
    cases h
    exact .refl s
  | sameToken a b =>
    obtain ⟨t, _, h⟩ := ok_of_bind h
    obtain ⟨u, _, h⟩ := ok_of_bind h
    cases h
    exact .refl s
  | token name =>
    obtain ⟨x, _, h⟩ := ok_of_bind h
    cases h
    exact .refl s
  | debugToken name =>
    obtain ⟨x, _, h⟩ := ok_of_bind h
    cases h
    exact .refl s
  | describe name =>
    obtain ⟨x, _, h⟩ := ok_of_bind h
    cases h
    exact .refl s

end Session
end InlineCache.Script
