import Mathlib.Data.List.Nodup
import InlineCache.Proofs.Registry.Tables

/-! The names and numbers of classes. No operation touches the names and superclasses of the classes
that there are; a definition that is not refused adds one class behind all others. So the classes of a
registry are the builtin ones and those that its history made, each under its own name and number. -/
namespace InlineCache.Registry

variable {β : Type}

/-- The names of the classes with their superclasses, in the order of their numbers. -/
def tree (r : Registry β) : List (String × Option ClassId) :=
  (r.classes.map fun e => (e.name, e.superclass)).toList

/-- There is such a class. -/
def Defined (r : Registry β) (c : ClassId) : Prop := (r.entry? c).isSome = true

instance (r : Registry β) (c : ClassId) : Decidable (r.Defined c) :=
  inferInstanceAs (Decidable (_ = true))

/-- The method that a class itself has under a name. -/
def own? (r : Registry β) (name : String) (c : ClassId) : Option (Method β) :=
  (r.entry? c).bind fun e => e.methods.get? name

/-- The class that an operation makes, under its name. -/
def newClass? (r : Registry β) : Operation β → Option (String × ClassId)
  | .defineClass name superclass => match r.defineClass name superclass with
    | .ok (_, c) => some (name, c)
    | .error _ => none
  | _ => none

/-- The classes that a history makes, in the order of their making. -/
def newClasses (r : Registry β) : List (Operation β) → List (String × ClassId)
  | [] => []
  | op :: rest => (r.newClass? op).toList ++ (r.perform op).newClasses rest

/-- The classes that every registry starts with. -/
def builtinClasses : List (String × ClassId) :=
  [("Object", .object), ("NilClass", .nilClass), ("TrueClass", .trueClass),
    ("FalseClass", .falseClass), ("Integer", .integer), ("Float", .float), ("Symbol", .symbol),
    ("String", .string)]

/-- The classes of a registry with their names. -/
def classList (r : Registry β) : List (String × ClassId) :=
  r.tree.zipIdx.map fun p => (p.1.1, ⟨p.2⟩)

section Operations

variable (r : Registry β)

theorem defineClass_eq (name : String) (superclass : Option ClassId) :
    r.defineClass name superclass =
      if r.Defined (superclass.getD .object) then
        if (r.classId? name).isSome then .error (.nameTaken name)
        else .ok (r.addClass name (some (superclass.getD .object)), ⟨r.classes.size⟩)
      else .error (.unknownSuperclass (superclass.getD .object) name) := by
  cases hs : r.entry? (superclass.getD .object) <;> simp [defineClass, Defined, hs]

theorem setCacheable_eq (c : ClassId) (cacheable : Bool) :
    r.setCacheable c cacheable =
      if r.Defined c then .ok (r.change c fun e => { e with cacheable })
      else .error (.unknownClass c) := by
  cases hc : r.entry? c <;> simp [setCacheable, Defined, hc]

theorem defineMethod_eq (m : Method β) :
    r.defineMethod m =
      if r.Defined m.owner then
        .ok (r.change m.owner fun e => { e with methods := e.methods.put m.name m })
      else .error (.unknownClass m.owner) := by
  cases hc : r.entry? m.owner <;> simp [defineMethod, Defined, hc]

theorem removeMethod_eq (c : ClassId) (name : String) :
    r.removeMethod c name =
      if r.Defined c then
        if (r.own? name c).isSome then
          .ok (r.change c fun e => { e with methods := e.methods.erase name }, true)
        else .ok (r, false)
      else .error (.unknownClass c) := by
  cases hc : r.entry? c with
  | none => simp [removeMethod, Defined, hc]
  | some e =>
    cases hm : e.methods.get? name <;>
      simp [removeMethod, Defined, own?, Table.contains, hc, hm]

end Operations

section Tree

@[simp] theorem length_tree (r : Registry β) : r.tree.length = r.classes.size := by simp [tree]

theorem getElem?_tree (r : Registry β) (c : ClassId) :
    r.tree[c.number]? = (r.entry? c).map fun e => (e.name, e.superclass) := by
  simp [tree, entry?]

theorem superclass?_eq (r : Registry β) (c : ClassId) :
    r.superclass? c = (r.tree[c.number]?).bind Prod.snd := by
  rw [getElem?_tree, superclass?]
  cases r.entry? c <;> rfl

theorem defined_iff {r : Registry β} {c : ClassId} : r.Defined c ↔ c.number < r.tree.length := by
  rw [Defined, entry_isSome_iff, length_tree]

theorem defined_of_superclass {r : Registry β} {c s : ClassId} (h : r.superclass? c = some s) :
    r.Defined c := by
  cases he : r.entry? c with
  | none => simp [superclass?, he] at h
  | some e => simp [Defined, he]

theorem tree_change (r : Registry β) (c : ClassId) {f : ClassEntry β → ClassEntry β}
    (hf : KeepsTree f) : (r.change c f).tree = r.tree := by
  have hview := map_change (g := fun e : ClassEntry β => (e.name, e.superclass)) (fun _ _ => rfl) r c f
  rw [tree, hview, edited]
  refine congrArg Array.toList ((map_modify (k := id) (fun e => ?_) _ _).trans (modify_id _ _))
  obtain ⟨hname, hsuper, _⟩ := hf e
  rw [hname, hsuper]
  rfl

theorem tree_addClass (r : Registry β) (name : String) (superclass : Option ClassId) :
    (r.addClass name superclass).tree = r.tree ++ [(name, superclass)] := by
  simp [tree, addClass]

theorem tree_builtin : (builtin : Registry β).tree = ("Object", none) ::
    ["NilClass", "TrueClass", "FalseClass", "Integer", "Float", "Symbol", "String"].map
      fun name => (name, some .object) := by
  have hfold : ∀ (names : List String) (r : Registry β), (names.foldl (fun r name =>
      r.addClass name (if r.classes.isEmpty then none else some .object)) r).tree =
        names.foldl (fun t name => t ++ [(name, if t.isEmpty then none else some .object)]) r.tree := by
    intro names
    induction names with
    | nil => exact fun _ => rfl
    | cons name rest ih =>
      intro r
      have hempty : r.tree.isEmpty = r.classes.isEmpty := by simp [tree, Array.isEmpty]
      rw [List.foldl_cons, List.foldl_cons, ih, tree_addClass, hempty]
  have hempty : ({} : Registry β).tree = [] := by simp [tree]
  rw [builtin, hfold, hempty]
  rfl

/-- What an operation does to the class tree: nothing, or it adds a class of a new name below one that
there is. -/
theorem tree_perform (r : Registry β) (op : Operation β) :
    (r.newClass? op = none ∧ (r.perform op).tree = r.tree) ∨
    ∃ name s, r.newClass? op = some (name, ⟨r.tree.length⟩) ∧ r.classId? name = none ∧ r.Defined s ∧
      (r.perform op).tree = r.tree ++ [(name, some s)] := by
  cases op with
  | defineClass name superclass =>
    by_cases hs : r.Defined (superclass.getD .object)
    · cases hn : r.classId? name with
      | some d =>
        exact .inl ⟨by simp [newClass?, defineClass_eq, hs, hn],
          by simp [perform, defineClass_eq, hs, hn]⟩
      | none =>
        refine .inr ⟨name, superclass.getD .object, ?_, hn, hs, ?_⟩
        · simp [newClass?, defineClass_eq, hs, hn]
        · simp [perform, defineClass_eq, hs, hn, tree_addClass]
    · exact .inl ⟨by simp [newClass?, defineClass_eq, hs], by simp [perform, defineClass_eq, hs]⟩
  | setCacheable c cacheable =>
    refine .inl ⟨rfl, ?_⟩
    by_cases hc : r.Defined c
    · simpa [perform, setCacheable_eq, hc] using tree_change r c (Edit.cacheable cacheable).keepsTree
    · simp [perform, setCacheable_eq, hc]
  | defineMethod m =>
    refine .inl ⟨rfl, ?_⟩
    by_cases hc : r.Defined m.owner
    · simpa [perform, defineMethod_eq, hc] using tree_change r m.owner (Edit.put m).keepsTree
    · simp [perform, defineMethod_eq, hc]
  | removeMethod c name =>
    refine .inl ⟨rfl, ?_⟩
    by_cases hc : r.Defined c
    · by_cases hm : (r.own? name c).isSome = true
      · simpa [perform, removeMethod_eq, hc, hm] using tree_change r c (Edit.erase name).keepsTree
      · simp [perform, removeMethod_eq, hc, hm]
    · simp [perform, removeMethod_eq, hc]
  | freshToken name => exact .inl ⟨rfl, rfl⟩
  | invalidateToken t => exact .inl ⟨rfl, rfl⟩

end Tree

section ClassList

theorem mem_classList {r : Registry β} {name : String} {c : ClassId} :
    (name, c) ∈ r.classList ↔ ∃ e, r.entry? c = some e ∧ e.name = name := by
  have htree := getElem?_tree r c
  simp only [classList, List.mem_map, List.mem_zipIdx_iff_getElem?, Prod.mk.injEq]
  constructor
  · rintro ⟨⟨p, i⟩, hp, rfl, rfl⟩
    rw [hp, eq_comm, Option.map_eq_some_iff] at htree
    obtain ⟨e, he, rfl⟩ := htree
    exact ⟨e, he, rfl⟩
  · rintro ⟨e, he, rfl⟩
    exact ⟨((e.name, e.superclass), c.number), by simpa [he] using htree, rfl, rfl⟩

theorem map_fst_classList (r : Registry β) : r.classList.map Prod.fst = r.tree.map Prod.fst := by
  rw [classList, List.map_map]
  refine Eq.trans ?_ (congrArg (List.map Prod.fst) (List.zipIdx_map_fst 0 r.tree))
  rw [List.map_map]
  rfl

theorem map_snd_classList (r : Registry β) :
    r.classList.map Prod.snd = (List.range r.tree.length).map ClassId.mk := by
  rw [classList, List.map_map, List.range_eq_range', ← List.zipIdx_map_snd 0 r.tree, List.map_map]
  rfl

/-- The classes after an operation are those before it and the one that it makes. -/
theorem classList_perform (r : Registry β) (op : Operation β) :
    (r.perform op).classList = r.classList ++ (r.newClass? op).toList := by
  obtain ⟨hnew, htree⟩ | ⟨name, s, hnew, _, _, htree⟩ := tree_perform r op
  · simp [classList, hnew, htree]
  · simp [classList, hnew, htree, List.zipIdx_append]

theorem classList_performAll (r : Registry β) (ops : List (Operation β)) :
    (r.performAll ops).classList = r.classList ++ r.newClasses ops := by
  induction ops generalizing r with
  | nil => simp [performAll, newClasses]
  | cons op rest ih =>
    rw [performAll, List.foldl_cons, ← performAll, ih, classList_perform, newClasses,
      List.append_assoc]

theorem classList_builtin : (builtin : Registry β).classList = builtinClasses := by
  rw [classList, tree_builtin]
  rfl

end ClassList

/-- What the class tree keeps true of itself: every name is used once, and every class but the first is
below one that came before it. -/
structure IsTree (tree : List (String × Option ClassId)) : Prop where
  names : (tree.map Prod.fst).Nodup
  root : ∀ i (h : i < tree.length), tree[i].2 = none ↔ i = 0
  below : ∀ i (h : i < tree.length), ∀ s ∈ tree[i].2, s.number < i

theorem IsTree.concat {tree : List (String × Option ClassId)} (h : IsTree tree) {name : String}
    {s : ClassId} (hname : name ∉ tree.map Prod.fst) (hs : s.number < tree.length) :
    IsTree (tree ++ [(name, some s)]) := by
  have hlast : ∀ i, i < (tree ++ [(name, some s)]).length → ¬ i < tree.length → i = tree.length := by
    intro i hi hlt
    rw [List.length_append, List.length_singleton] at hi
    omega
  refine ⟨?_, ?_, ?_⟩
  · rw [List.map_append, List.nodup_append]
    refine ⟨h.names, by simp, ?_⟩
    rintro a ha b hb rfl
    rw [List.map_singleton, List.mem_singleton] at hb
    subst hb
    exact hname ha
  · intro i hi
    by_cases hlt : i < tree.length
    · rw [List.getElem_append_left hlt]
      exact h.root i hlt
    · obtain rfl := hlast i hi hlt
      have hpos : tree.length ≠ 0 := by omega
      simp [hpos]
  · intro i hi t ht
    by_cases hlt : i < tree.length
    · rw [List.getElem_append_left hlt] at ht
      exact h.below i hlt t ht
    · obtain rfl := hlast i hi hlt
      obtain rfl : s = t := by simpa using ht
      exact hs

theorem not_mem_names {r : Registry β} {name : String} (h : r.classId? name = none) :
    name ∉ r.tree.map Prod.fst := by
  rw [← map_fst_classList, List.mem_map]
  rintro ⟨⟨n, c⟩, hmem, rfl⟩
  obtain ⟨e, he, hname⟩ := mem_classList.mp hmem
  rw [classId?, Option.map_eq_none_iff, Array.findIdx?_eq_none_iff] at h
  have hin : e ∈ r.classes := Array.mem_of_getElem? he
  simpa [hname] using h e hin

theorem IsTree.perform {r : Registry β} (h : IsTree r.tree) (op : Operation β) :
    IsTree (r.perform op).tree := by
  obtain ⟨_, htree⟩ | ⟨name, s, _, hname, hs, htree⟩ := tree_perform r op
  · rwa [htree]
  · rw [htree]
    exact h.concat (not_mem_names hname) (defined_iff.mp hs)

theorem isTree_builtin : IsTree (builtin : Registry β).tree := by
  rw [tree_builtin]
  exact ⟨by decide, by decide, by decide⟩

theorem isTree_performAll (ops : List (Operation β)) : IsTree (builtin.performAll ops).tree := by
  have hfold : ∀ r : Registry β, IsTree r.tree → IsTree (r.performAll ops).tree := by
    induction ops with
    | nil => exact fun _ h => h
    | cons op rest ih => exact fun r h => ih (r.perform op) (h.perform op)
  exact hfold builtin isTree_builtin

section Names

variable {r : Registry β}

/-- In a tree a class is found by its name. -/
theorem classId?_iff_mem (h : IsTree r.tree) {name : String} {c : ClassId} :
    r.classId? name = some c ↔ (name, c) ∈ r.classList := by
  have hfound : ∀ d, r.classId? name = some d → (name, d) ∈ r.classList := by
    intro d hd
    obtain ⟨i, hi, rfl⟩ := Option.map_eq_some_iff.mp hd
    obtain ⟨hlt, hname, _⟩ := Array.findIdx?_eq_some_iff_getElem.mp hi
    exact mem_classList.mpr ⟨_, Array.getElem?_eq_getElem hlt, by simpa using hname⟩
  refine ⟨hfound c, fun hmem => ?_⟩
  cases hd : r.classId? name with
  | none =>
    have hname := List.mem_map_of_mem (f := Prod.fst) hmem
    rw [map_fst_classList] at hname
    exact absurd hname (not_mem_names hd)
  | some d =>
    -- a name that is used once goes with one number
    have hnodup : (r.classList.map Prod.fst).Nodup := map_fst_classList r ▸ h.names
    have hsame := List.inj_on_of_nodup_map hnodup hmem (hfound d hd) rfl
    rw [(Prod.mk.inj hsame).2]

theorem className_iff_mem {name : String} {c : ClassId} :
    (r.Defined c ∧ r.className c = name) ↔ (name, c) ∈ r.classList := by
  rw [mem_classList, Defined, className]
  cases r.entry? c <;> simp

theorem defined_iff_mem {c : ClassId} : r.Defined c ↔ ∃ name, (name, c) ∈ r.classList := by
  simp only [mem_classList, Defined, Option.isSome_iff_exists]
  exact ⟨fun ⟨e, he⟩ => ⟨e.name, e, he, rfl⟩, fun ⟨_, e, he, _⟩ => ⟨e, he⟩⟩

end Names

end InlineCache.Registry
