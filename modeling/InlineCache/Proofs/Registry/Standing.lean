import InlineCache.Dispatch.Resolution
import InlineCache.Proofs.Registry.History

/-! What is left of a lookup when time has passed. The token that a lookup hands out stands for its
answer: in every later registry in which the token is still valid, the same lookup answers the
same. A resolution, made of two lookups at different moments, stands where both of them do. -/
namespace InlineCache

variable {β : Type}

/-- A lookup made in the past is still the answer unless its token has ended; one that came without
a token is of no use to a cache. -/
structure Lookup.Stands (lk : Lookup β) (r : Registry β) (name : String) (iv : Bool) : Prop where
  made : ∀ t, lk.token = some t → r.tokens.Made t
  answer : ∀ t, lk.token = some t → r.tokens.isValid t = true → r.resolve lk.classId name iv = lk
  undefined : lk.token = none → lk.cacheable = false

/-- Both lookups of a resolution for a message to the receivers of a class stand. -/
structure Resolution.Stands (res : Resolution β) (r : Registry β) (c : ClassId) (name : String)
    (iv : Bool) : Prop where
  classId : res.lookup.classId = c
  lookup : res.lookup.Stands r name iv
  handlerClass : ∀ h, res.handler = some h → h.classId = c
  handler : ∀ h, res.handler = some h → h.Stands r handlerName true

open Registry

theorem stands_resolve {r : Registry β} (hw : r.WellFormed) (c : ClassId) (name : String)
    (iv : Bool) : (r.resolve c name iv).Stands r name iv := by
  refine ⟨?_, ?_, ?_⟩
  · intro t ht
    rw [token_resolve] at ht
    exact hw.made c t ht
  · intro t _ _
    rw [classId_resolve]
  · intro hn
    rw [resolve] at hn ⊢
    cases he : r.entry? c with
    | none => rfl
    | some e => simp [he] at hn

theorem Lookup.Stands.evolve {lk : Lookup β} {r r' : Registry β} {name : String} {iv : Bool}
    (h : lk.Stands r name iv) (he : Evolves r r') : lk.Stands r' name iv := by
  refine ⟨fun t ht => he.made (h.made t ht), ?_, h.undefined⟩
  intro t ht hv
  have hold := h.answer t ht (he.ended t (h.made t ht) hv)
  have hcur : r.currentToken? lk.classId = some t := by
    rw [← token_resolve r lk.classId name iv, hold, ht]
  rw [he.answers lk.classId t hcur hv, hold]

theorem Resolution.Stands.evolve {res : Resolution β} {r r' : Registry β} {c : ClassId}
    {name : String} {iv : Bool} (h : res.Stands r c name iv) (he : Evolves r r') :
    res.Stands r' c name iv :=
  ⟨h.classId, h.lookup.evolve he, h.handlerClass, fun l hl => (h.handler l hl).evolve he⟩

end InlineCache
