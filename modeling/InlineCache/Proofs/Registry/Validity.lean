import Mathlib.Data.List.Induction
import Mathlib.Logic.Relation
import InlineCache.Proofs.Registry.History
import InlineCache.Proofs.Throughout

/-! What the validity of a token tells about the past. The token that a class handed out at some time
is valid later exactly if it was never invalidated directly and neither the class nor anything above
it has been changed since; and the class hands out the same token exactly as long as nothing of the
kind has happened. -/
namespace InlineCache.Registry

variable {β : Type}

/-- An operation succeeds in changing a class: it is not refused, and a removal finds what it is to
remove. -/
def Changes (r : Registry β) (c : ClassId) : Operation β → Prop
  | .setCacheable d cacheable => d = c ∧ ∃ r', r.setCacheable d cacheable = .ok r'
  | .defineMethod m => m.owner = c ∧ ∃ r', r.defineMethod m = .ok r'
  | .removeMethod d name => d = c ∧ ∃ r', r.removeMethod d name = .ok (r', true)
  | _ => False

theorem changes_iff {r : Registry β} {c : ClassId} {op : Operation β} :
    r.Changes c op ↔ r.changed? op = some c := by
  cases op with
  | setCacheable d cacheable =>
    cases hd : r.entry? d <;> simp [Changes, changed?, setCacheable, hd]
  | defineMethod m =>
    cases hd : r.entry? m.owner <;> simp [Changes, changed?, defineMethod, hd]
  | removeMethod d name =>
    cases hd : r.entry? d with
    | none => simp [Changes, changed?, removeMethod, hd]
    | some e =>
      by_cases hm : e.methods.contains name = true <;>
        simp [Changes, changed?, removeMethod, hd, hm]
  | _ => simp [Changes, changed?]

/-- A class is another one or stands below it: going up from superclass to superclass one comes to the
other. -/
def Descends (r : Registry β) (d a : ClassId) : Prop :=
  Relation.ReflTransGen (fun x s => r.superclass? x = some s) d a

theorem superclass?_eq_some {r : Registry β} {x s : ClassId} :
    r.superclass? x = some s ↔ ∃ e, r.entry? x = some e ∧ e.superclass = some s := by
  rw [superclass?, Option.bind_eq_some_iff]

theorem descends_iff_inherits {r : Registry β} (hw : r.WellFormed) {d a : ClassId}
    {e : ClassEntry β} (hd : r.entry? d = some e) : r.Descends d a ↔ r.inherits d a = true := by
  rw [inherits_iff]
  constructor
  · intro h
    induction h with
    | refl => exact self_mem_ancestry hd
    | @tail x s _ hs ih =>
      obtain ⟨ex, hx, hxs⟩ := superclass?_eq_some.mp hs
      have hlt := hw.superclass_lt x ex s hx hxs
      obtain ⟨es, hes⟩ := Option.isSome_iff_exists.mp
        (entry_isSome_iff.mpr (Nat.lt_trans hlt (lt_of_entry hx)))
      refine mem_ancestry_trans ih ?_
      rw [ancestry_of_some hx, hxs]
      simp only [hlt, if_true]
      exact List.mem_cons_of_mem x (self_mem_ancestry hes)
  · clear hd
    intro h
    induction d using ancestry_induct (r := r) with
    | undefined d hd => simp [ancestry_of_none hd] at h
    | root d e hd ha =>
      rw [ha, List.mem_singleton] at h
      exact h ▸ .refl
    | below d e s hd hs _ ha ih =>
      rw [ha, List.mem_cons] at h
      obtain rfl | h := h
      · exact .refl
      · exact .head (superclass?_eq_some.mpr ⟨e, hd, hs⟩) (ih h)

/-- A step leaves a class and all that is above it unchanged. -/
def Spares (r : Registry β) (d : ClassId) (op : Operation β) : Prop :=
  ∀ c, r.Changes c op → ¬ r.Descends d c

theorem spares_iff {r : Registry β} (hw : r.WellFormed) {d : ClassId} {t : TokenId}
    (ht : r.currentToken? d = some t) {op : Operation β} :
    r.Spares d op ↔ ∀ c, r.changed? op = some c → ¬ r.inherits d c = true := by
  obtain ⟨e, he, _⟩ := currentToken?_eq_some.mp ht
  refine forall_congr' fun c => ?_
  rw [changes_iff, descends_iff_inherits hw he]

/-- A token is handed out for a class, with a lookup or on its own. -/
def HandsOut (r : Registry β) (d : ClassId) (t : TokenId) : Prop :=
  r.currentToken? d = some t ∨ ∃ name iv, (r.resolve d name iv).token = some t

theorem handsOut_iff {r : Registry β} {d : ClassId} {t : TokenId} :
    r.HandsOut d t ↔ r.currentToken? d = some t := by
  simp [HandsOut, token_resolve]

section Step

variable {r : Registry β} {op : Operation β} {d : ClassId} {t : TokenId}

/-- What a step does to the validity of the tokens that were made before it. -/
theorem isValid_perform (hw : r.WellFormed) (op : Operation β) (ht : r.tokens.Made t) :
    (r.perform op).tokens.isValid t = true ↔ r.tokens.isValid t = true ∧ op ≠ .invalidateToken t ∧
      ∀ c, r.changed? op = some c → ∀ x, r.inherits x c = true → r.currentToken? x ≠ some t := by
  by_cases hop : op = .invalidateToken t
  · subst hop
    simp [perform, invalidateToken]
  · simp only [hop, ne_eq, not_false_eq_true, true_and]
    obtain ⟨hn, he⟩ | ⟨name, s, hn, _, he⟩ | ⟨c, f, hc, hf, he⟩ | ⟨name, rfl, he⟩ | ⟨u, rfl, he⟩ :=
      perform_cases r op <;> rw [he]
    · simp [hn]
    · have hsame : (r.addClass name (some s)).tokens.isValid t = r.tokens.isValid t :=
        TokenStore.isValid_fresh (name ++ " unmodified") ht
      simp [hn, hsame]
    · obtain ⟨hover, _⟩ := rolledOver_change hw c hf.keepsTree
      rw [hover.isValid t ht]
      simp only [hc, Option.some.injEq, forall_eq', currentToken_edited r c _ hf.keepsTree]
      exact Iff.rfl
    · have hsame : (r.freshToken name).1.tokens.isValid t = r.tokens.isValid t :=
        TokenStore.isValid_fresh name ht
      simp [hsame, changed?]
    · have hne : u ≠ t := fun h => hop (h ▸ rfl)
      simp [invalidateToken, hne, changed?]

/-- What a step does to the token that a class hands out. -/
theorem isValid_perform_of_current (hw : r.WellFormed) (op : Operation β)
    (ht : r.currentToken? d = some t) : (r.perform op).tokens.isValid t = true ↔
      r.tokens.isValid t = true ∧ op ≠ .invalidateToken t ∧ r.Spares d op := by
  rw [isValid_perform hw op (hw.made d t ht), spares_iff hw ht]
  refine and_congr_right fun _ => and_congr_right fun _ => ⟨fun h c hc hin => ?_, ?_⟩
  · exact h c hc d hin ht
  · intro h c hc x hin hx
    exact h c hc (hw.unique x d t hx ht ▸ hin)

theorem currentToken_perform_of_spares (hw : r.WellFormed) (ht : r.currentToken? d = some t)
    (h : r.Spares d op) : (r.perform op).currentToken? d = some t := by
  obtain ⟨e, he, _⟩ := currentToken?_eq_some.mp ht
  rw [← token_resolve _ d "" true, resolve_perform hw he ((spares_iff hw ht).mp h), token_resolve,
    ht]

/-- A class that a step does not spare gets a token of its own that is new and valid. -/
theorem currentToken_perform_of_not_spares (hw : r.WellFormed) (ht : r.currentToken? d = some t)
    (h : ¬ r.Spares d op) : ∃ u, (r.perform op).currentToken? d = some u ∧ ¬ r.tokens.Made u ∧
      (r.perform op).tokens.isValid u = true := by
  rw [spares_iff hw ht] at h
  simp only [not_forall, not_not, exists_prop] at h
  obtain ⟨c, hc, hin⟩ := h
  obtain ⟨hn, _⟩ | ⟨_, _, hn, _⟩ | ⟨b, f, hb, hf, he⟩ | ⟨_, rfl, _⟩ | ⟨_, rfl, _⟩ :=
    perform_cases r op
  · cases hn.symm.trans hc
  · cases hn.symm.trans hc
  · obtain rfl : b = c := Option.some.inj (hb.symm.trans hc)
    obtain ⟨e, hd, _⟩ := currentToken?_eq_some.mp (currentToken_edited r b d hf.keepsTree ▸ ht)
    obtain ⟨u, hu, hplace, hvalid⟩ := (rolledOver_change hw b hf.keepsTree).1.fresh d e hin hd
    rw [he]
    exact ⟨u.current, currentToken?_eq_some.mpr ⟨_, hu, rfl⟩, Nat.not_lt_of_le hplace, hvalid⟩
  · cases hc
  · cases hc

/-- An operation changes one class only: it spares exactly those that are not below that one. -/
theorem spares_iff_of_changes {c : ClassId} (hc : r.Changes c op) :
    r.Spares d op ↔ ¬ r.Descends d c := by
  refine ⟨fun h => h c hc, fun hd b hb => ?_⟩
  obtain rfl : b = c := Option.some.inj ((changes_iff.mp hb).symm.trans (changes_iff.mp hc))
  exact hd

/-- What changes a class takes the token of every class from there down and gives it a new one. -/
theorem rolls_of_descends (hw : r.WellFormed) (ht : r.currentToken? d = some t) {c : ClassId}
    (hc : r.Changes c op) (hd : r.Descends d c) : (r.perform op).tokens.isValid t = false ∧
      ∃ u, (r.perform op).currentToken? d = some u ∧ u ≠ t ∧
        (r.perform op).tokens.isValid u = true := by
  have hdist : ¬ r.Spares d op := fun h => (spares_iff_of_changes hc).mp h hd
  obtain ⟨u, hu, hnew, hvalid⟩ := currentToken_perform_of_not_spares hw ht hdist
  refine ⟨?_, u, hu, fun heq => hnew (heq ▸ hw.made d t ht), hvalid⟩
  rw [Bool.eq_false_iff]
  exact fun hval => hdist ((isValid_perform_of_current hw op ht).mp hval).2.2

/-- What changes a class leaves the token of every class alone that is not below it. -/
theorem stays_of_not_descends (hw : r.WellFormed) (ht : r.currentToken? d = some t) {c : ClassId}
    (hc : r.Changes c op) (hd : ¬ r.Descends d c) : (r.perform op).currentToken? d = some t ∧
      (r.perform op).tokens.isValid t = r.tokens.isValid t := by
  have hs : r.Spares d op := (spares_iff_of_changes hc).mpr hd
  have hop : op ≠ .invalidateToken t := by
    rintro rfl
    exact hc
  refine ⟨currentToken_perform_of_spares hw ht hs, ?_⟩
  rw [Bool.eq_iff_iff, isValid_perform_of_current hw op ht]
  exact and_iff_left ⟨hop, hs⟩

/-- Where the token of a class comes from: it was there before the step, which then spared the class,
or it is new and valid. -/
theorem currentToken_perform (hw : r.WellFormed)
    (ht : (r.perform op).currentToken? d = some t) :
    (r.currentToken? d = some t ∧ r.Spares d op) ∨
      (¬ r.tokens.Made t ∧ (r.perform op).tokens.isValid t = true ∧
        ∀ u, r.currentToken? d = some u → ¬ r.Spares d op) := by
  cases hd : r.currentToken? d with
  | some u =>
    by_cases hs : r.Spares d op
    · obtain rfl : u = t :=
        Option.some.inj ((currentToken_perform_of_spares hw hd hs).symm.trans ht)
      exact .inl ⟨rfl, hs⟩
    · obtain ⟨v, hv, hnew, hvalid⟩ := currentToken_perform_of_not_spares hw hd hs
      obtain rfl : v = t := Option.some.inj (hv.symm.trans ht)
      exact .inr ⟨hnew, hvalid, fun _ _ => hs⟩
  | none =>
    have hundefined : r.entry? d = none := Option.map_eq_none_iff.mp hd
    refine .inr ?_
    obtain ⟨_, he⟩ | ⟨name, s, _, _, he⟩ | ⟨c, f, _, hf, he⟩ | ⟨_, _, he⟩ | ⟨_, _, he⟩ :=
      perform_cases r op <;> rw [he] at ht ⊢
    · cases hd.symm.trans ht
    · obtain hold | ⟨_, rfl⟩ := currentToken_addClass ht
      · cases hd.symm.trans hold
      · exact ⟨Nat.lt_irrefl _, TokenStore.isValid_fresh_self _ _, nofun⟩
    · have hsize := (rolledOver_change hw c hf.keepsTree).1.size
      obtain ⟨e, hde, _⟩ := currentToken?_eq_some.mp ht
      have hlt := lt_of_entry hde
      rw [hsize, edited, Array.size_modify] at hlt
      rw [← entry_isSome_iff, hundefined] at hlt
      cases hlt
    · cases hd.symm.trans ht
    · cases hd.symm.trans ht

end Step

/-- Nothing in a history changes a class or anything above it. -/
def Undisturbed (r : Registry β) (d : ClassId) (ops : List (Operation β)) : Prop :=
  Throughout perform (fun r op => r.Spares d op) r ops

/-- Nothing in a history invalidates a token directly. What names a token before it is made does not
touch it. -/
def Unrevoked (r : Registry β) (t : TokenId) (ops : List (Operation β)) : Prop :=
  Throughout perform (fun r op => r.tokens.Made t → op ≠ .invalidateToken t) r ops

section History

variable {r : Registry β} {d : ClassId} {t : TokenId}

theorem performAll_append (r : Registry β) (ops later : List (Operation β)) :
    r.performAll (ops ++ later) = (r.performAll ops).performAll later := List.foldl_append

/-- A class hands out one and the same token for as long as it is undisturbed; what it hands out after
that was not there before. -/
theorem currentToken_performAll (hw : r.WellFormed) (ht : r.currentToken? d = some t)
    {ops : List (Operation β)} {u : TokenId} (hu : (r.performAll ops).currentToken? d = some u) :
    (u = t ∧ r.Undisturbed d ops) ∨ (¬ r.tokens.Made u ∧ ¬ r.Undisturbed d ops) := by
  induction ops generalizing r t with
  | nil => exact .inl ⟨Option.some.inj (hu.symm.trans ht), trivial⟩
  | cons op rest ih =>
    by_cases hs : r.Spares d op
    · have hnext := currentToken_perform_of_spares hw ht hs
      obtain ⟨rfl, hrest⟩ | ⟨hnew, hrest⟩ := ih (hw.perform op) hnext hu
      · exact .inl ⟨rfl, hs, hrest⟩
      · exact .inr ⟨fun hm => hnew ((evolves_perform hw op).made hm), fun h => hrest h.2⟩
    · obtain ⟨v, hv, hnew, _⟩ := currentToken_perform_of_not_spares hw ht hs
      refine .inr ⟨?_, fun h => hs h.1⟩
      obtain ⟨rfl, _⟩ | ⟨hlater, _⟩ := ih (hw.perform op) hv hu
      · exact hnew
      · exact fun hm => hlater ((evolves_perform hw op).made hm)

/-- The validity of a token, from the moment at which a class hands it out. -/
theorem isValid_performAll (hw : r.WellFormed) (ht : r.currentToken? d = some t)
    (ops : List (Operation β)) : (r.performAll ops).tokens.isValid t = true ↔
      r.tokens.isValid t = true ∧ r.Unrevoked t ops ∧ r.Undisturbed d ops := by
  induction ops generalizing r with
  | nil => simp [performAll, Unrevoked, Undisturbed, Throughout]
  | cons op rest ih =>
    have hmade := hw.made d t ht
    have hstep := isValid_perform_of_current hw op ht
    by_cases hs : r.Spares d op
    · have hrest := ih (hw.perform op) (currentToken_perform_of_spares hw ht hs)
      rw [performAll, List.foldl_cons, ← performAll, hrest, hstep]
      simp only [Unrevoked, Undisturbed, Throughout, hs, hmade, true_and, and_true, true_implies,
        and_assoc]
    · have hover : ¬ ((r.perform op).performAll rest).tokens.isValid t = true := by
        intro hv
        have hev := (evolves_performAll (hw.perform op) rest).1
        exact hs (hstep.mp (hev.ended t ((evolves_perform hw op).made hmade) hv)).2.2
      refine iff_of_false hover fun h => hs h.2.2.1

/-- All classes of a registry hand out valid tokens. -/
def Fresh (r : Registry β) : Prop := ∀ d t, r.currentToken? d = some t → r.tokens.isValid t = true

theorem unrevoked_of_not_made (hw : r.WellFormed) {ops : List (Operation β)}
    (h : ¬ (r.performAll ops).tokens.Made t) : r.Unrevoked t ops := by
  induction ops generalizing r with
  | nil => trivial
  | cons op rest ih =>
    exact ⟨fun hm => absurd ((evolves_performAll hw (op :: rest)).1.made hm) h, ih (hw.perform op) h⟩

/-- The token that a class hands out is valid unless it was invalidated directly. -/
theorem isValid_currentToken (hw : r.WellFormed) (hf : r.Fresh) {ops : List (Operation β)}
    (ht : (r.performAll ops).currentToken? d = some t) :
    (r.performAll ops).tokens.isValid t = true ↔ r.Unrevoked t ops := by
  induction ops using List.reverseRecOn generalizing d with
  | nil => exact iff_of_true (hf d t ht) trivial
  | append_singleton ops op ih =>
    rw [performAll_append] at ht ⊢
    have hw' := (evolves_performAll hw ops).2
    rw [Unrevoked, Throughout.concat]
    obtain ⟨hold, hs⟩ | ⟨hnew, hvalid, _⟩ := currentToken_perform hw' ht
    · have hmade := hw'.made d t hold
      have hstep := isValid_performAll hw' hold [op]
      rw [hstep, ih hold]
      simp only [Unrevoked, Undisturbed, Throughout, hs, and_true]
      exact Iff.rfl
    · exact iff_of_true hvalid ⟨unrevoked_of_not_made hw hnew, fun hm => absurd hm hnew⟩

end History

theorem fresh_builtin : (builtin : Registry β).Fresh := by
  refine (builtin_induct (motive := fun r => r.WellFormed ∧ r.Fresh) ?_ ?_).2
  · exact ⟨wellFormed_empty, fun d t ht => absurd ht (not_defined_empty d t)⟩
  · rintro r name superclass hs ⟨hw, hf⟩
    refine ⟨hw.addClass name hs, fun d t ht => ?_⟩
    obtain hold | ⟨_, rfl⟩ := currentToken_addClass ht
    · exact (TokenStore.isValid_fresh (name ++ " unmodified") (hw.made d t hold)).trans (hf d t hold)
    · exact TokenStore.isValid_fresh_self _ _

/-- For every history and every token that is handed out for a class after it: whatever comes later,
the token is valid exactly if it was never invalidated directly and the class and all above it have
been left unchanged since; a token handed out for the class then is the same one exactly if they
have. So a change of a class gives new tokens to the class and to all below it and to no other one,
and a token that is over is over for good. -/
theorem isValid_iff_undisturbed (ops later : List (Operation β)) (d : ClassId) (t : TokenId)
    (ht : HandsOut (builtin.performAll ops) d t) :
    let r := builtin.performAll ops
    let r' := builtin.performAll (ops ++ later)
    (r'.tokens.isValid t = true ↔ builtin.Unrevoked t (ops ++ later) ∧ r.Undisturbed d later) ∧
    (∀ t', r'.HandsOut d t' → (t' = t ↔ r.Undisturbed d later)) ∧
    (∀ c op, r'.Changes c op → ∀ x u, r'.HandsOut x u →
      (r'.Descends x c → (r'.perform op).tokens.isValid u = false ∧
        ∃ v, (r'.perform op).HandsOut x v ∧ v ≠ u ∧ (r'.perform op).tokens.isValid v = true) ∧
      (¬ r'.Descends x c → (r'.perform op).HandsOut x u ∧
        (r'.perform op).tokens.isValid u = r'.tokens.isValid u)) ∧
    (r'.tokens.isValid t = false → ∀ more, (r'.performAll more).tokens.isValid t = false) := by
  intro r r'
  rw [handsOut_iff] at ht
  have hw : r.WellFormed := (evolves_performAll wellFormed_builtin ops).2
  have hr' : r' = r.performAll later := performAll_append builtin ops later
  obtain ⟨hev, hw'⟩ : Evolves r r' ∧ r'.WellFormed := hr' ▸ evolves_performAll hw later
  refine ⟨?_, ?_, ?_, ?_⟩
  · rw [hr', isValid_performAll hw ht, isValid_currentToken wellFormed_builtin fresh_builtin ht,
      ← and_assoc, Unrevoked, Unrevoked, Unrevoked, Throughout.append]
    exact Iff.rfl
  · intro t' ht'
    rw [handsOut_iff, hr'] at ht'
    obtain ⟨heq, hund⟩ | ⟨hnew, hdist⟩ := currentToken_performAll hw ht ht'
    · exact iff_of_true heq hund
    · exact iff_of_false (fun heq => hnew (heq ▸ hw.made d t ht)) hdist
  · intro c op hc x u hu
    rw [handsOut_iff] at hu
    simp only [handsOut_iff]
    exact ⟨rolls_of_descends hw' hu hc, stays_of_not_descends hw' hu hc⟩
  · intro hover more
    rw [Bool.eq_false_iff] at hover ⊢
    exact fun hval =>
      hover ((evolves_performAll hw' more).1.ended t (hev.made (hw.made d t ht)) hval)

/-- Two classes of one's own, the second one below the first. -/
def family : List (Operation Unit) := [.defineClass "Animal" none, .defineClass "Dog" (some ⟨8⟩)]

/-- A method defined for the class above ends the token of the class below. -/
theorem isValid_iff_undisturbed_family :
    let speak : Method Unit := { name := "speak", id := 1, owner := ⟨8⟩, body := () }
    HandsOut (builtin.performAll family) ⟨9⟩ ⟨9⟩ ∧
      (builtin.performAll (family ++ [.defineMethod speak])).tokens.isValid ⟨9⟩ = false := by
  intro speak
  have ht : HandsOut (builtin.performAll family) ⟨9⟩ ⟨9⟩ := handsOut_iff.mpr (by decide +kernel)
  refine ⟨ht, Bool.eq_false_iff.mpr fun hv => ?_⟩
  obtain ⟨_, hspares, _⟩ := (isValid_iff_undisturbed family _ ⟨9⟩ ⟨9⟩ ht).1.mp hv
  refine hspares ⟨8⟩ (changes_iff.mpr ?_) (.single ?_)
  · decide +kernel
  · decide +kernel

end InlineCache.Registry
