import InlineCache.Proofs.Cache.Occupancy
import InlineCache.Proofs.Registry.Numbering

/-! The classes that a chain tests for. Any number can be given for the class of an object, but only a
lookup on a class that is defined can be cached, and classes are never taken away: every test for the
objects of a class is for one that is defined. -/
namespace InlineCache

variable {β : Type}

namespace Registry

/-- No class is ever taken away. -/
theorem Defined.perform {r : Registry β} {c : ClassId} (h : r.Defined c) (op : Operation β) :
    (r.perform op).Defined c := by
  rw [defined_iff] at h ⊢
  obtain ⟨_, htree⟩ | ⟨_, _, _, _, _, htree⟩ := tree_perform r op
  · rwa [htree]
  · rw [htree, List.length_append]
    exact Nat.lt_of_lt_of_le h (Nat.le_add_right _ _)

theorem defined_of_cacheable {r : Registry β} {c : ClassId} {name : String} {iv : Bool}
    (h : (r.resolve c name iv).cacheable = true) : r.Defined c := by
  rw [resolve] at h
  cases he : r.entry? c with
  | none => simp [he] at h
  | some e => simp [Defined, he]

end Registry

/-- What can be built from a resolution comes from a lookup that may be cached. -/
theorem World.cacheable_of_built {w : World β} {s : SiteId} {res : Resolution β}
    (h : (w.built? s res).isSome = true) : res.lookup.cacheable = true := by
  obtain ⟨b, hb⟩ := Option.isSome_iff_exists.mp h
  obtain ⟨⟨tokens, recipe⟩, hr, _⟩ := Option.map_eq_some_iff.mp hb
  exact (Resolution.recipe_cases hr).1

theorem Guard.ofClass_eq {name message : String} {c : ClassId} {shape : Shape}
    (h : Guard.of name (.ofClass c) = .of message shape) : shape = .ofClass c := by
  cases shape <;> simp_all [Guard.of, Shape.isBool]

namespace System

/-- The classes of objects that chains test for are defined, and so are those of the receivers whose
lookups wait to be cached. -/
structure ClassesDefined (σ : System β) : Prop where
  guards : ∀ (t : SiteId) (name : String) (c : ClassId),
    Guard.of name (.ofClass c) ∈ (σ.world.site t).chain.guards → σ.world.registry.Defined c
  pauses : ∀ (i : Nat) (s : SiteId) (call : Call) (pause : Pause β),
    σ.sends[i]? = some ⟨s, call, .flying (.paused pause)⟩ →
      pause.resolution.lookup.cacheable = true → σ.world.registry.Defined call.receiver.classId

theorem defined_step (σ : System β) (e : Event β) {c : ClassId} (h : σ.world.registry.Defined c) :
    (σ.step e).world.registry.Defined c := by
  rw [registry_step]
  split
  · exact h.perform _
  · exact h

/-- The tests of a chain after an event, by the classes before it. -/
theorem ClassesDefined.guards_step {σ : System β} (hσ : σ.Coherent) (h : σ.ClassesDefined) (e : Event β)
    {t : SiteId} {name : String} {c : ClassId}
    (hg : Guard.of name (.ofClass c) ∈ ((σ.step e).world.site t).chain.guards) :
    σ.world.registry.Defined c := by
  have hw := (hσ.chains t).wellFormed
  obtain hkeep | ⟨_, hnew⟩ | ⟨call, _, _, hwalk⟩ | ⟨i, call, pause, _, _, hsend, hpub⟩ :=
    System.chain_step σ e t
  · exact h.guards t name c (hkeep ▸ hg)
  · rw [hnew] at hg
    cases hg
  · rw [hwalk, Chain.guards_walked hw] at hg
    exact h.guards t name c hg
  · obtain ⟨effect, he⟩ := hσ.exists_effect t call pause.resolution
    rw [hpub] at hg
    cases hm : Chain.isMegamorphic (Chain.published (σ.world.site t).chain σ.world.isValid
      (σ.world.site t).bound call.name call.receiver.shape
        (σ.world.built? t pause.resolution)) with
    | true =>
      rw [Chain.guards, Chain.nodes_of_isMegamorphic hm] at hg
      cases hg
    | false =>
      obtain hold | ⟨hbuilt, hsame⟩ := (he.mem_guards hw hm).mp hg
      · exact h.guards t name c hold
      · -- the new test is for the receiver of the send
        have hclass := congrArg Shape.classId (Guard.ofClass_eq hsame)
        rw [Value.classId_shape] at hclass
        have hdefined := h.pauses i t call pause hsend (World.cacheable_of_built hbuilt)
        rwa [hclass] at hdefined

theorem ClassesDefined.pause_step {σ : System β} (h : σ.ClassesDefined) (e : Event β) {i : Nat}
    {s : SiteId} {call : Call} {pause : Pause β}
    (hi : (σ.step e).sends[i]? = some ⟨s, call, .flying (.paused pause)⟩)
    (hc : pause.resolution.lookup.cacheable = true) :
    σ.world.registry.Defined call.receiver.classId := by
  obtain hsame | ⟨_, _, _, hstage⟩ | ⟨before, _, hbefore, hstage⟩ | ⟨_, _, _, _, hstage⟩ :=
    sends_step hi
  · exact h.pauses i s call pause hsame hc
  · rw [Stage.flying.injEq] at hstage
    obtain ⟨_, route, rfl⟩ := World.begin_paused hstage.symm
    exact Registry.defined_of_cacheable hc
  · rw [Stage.flying.injEq] at hstage
    obtain ⟨route, lookup, rfl, _, rfl⟩ := World.resume_paused hstage.symm
    exact h.pauses i s call _ hbefore hc
  · cases hstage

theorem ClassesDefined.step {σ : System β} (hσ : σ.Coherent) (h : σ.ClassesDefined) (e : Event β) :
    (σ.step e).ClassesDefined :=
  ⟨fun _ _ _ hg => defined_step σ e (h.guards_step hσ e hg),
    fun _ _ _ _ hi hc => defined_step σ e (h.pause_step e hi hc)⟩

theorem classesDefined_run (events : List (Event β)) : (run events).ClassesDefined := by
  refine (run_induct (motive := fun σ => σ.Coherent ∧ σ.ClassesDefined) ?_ ?_ events).2
  · refine ⟨coherent_run [], ⟨fun t name c hg => ?_, fun i s call pause hi => ?_⟩⟩
    · have ht : ¬ t.place < (run ([] : List (Event β))).world.sites.size := Nat.not_lt_zero _
      have hempty : Guard.of name (.ofClass c) ∈ ({} : Chain β).guards := chain_of_not_lt ht ▸ hg
      cases hempty
    · simp at hi
  · exact fun σ e ⟨hσ, h⟩ => ⟨hσ.step e, h.step hσ e⟩

end System
end InlineCache
