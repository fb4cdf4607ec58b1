import Mathlib.Data.List.Induction
import InlineCache.Proofs.Agreement
import InlineCache.Scenario.Reading
import InlineCache.Scenario.Run

/-! The layers of the settings of a run: the table of the scenario, a file of settings, and a bound that
is given by itself. What a layer sets is read off its document; a layer may leave out any key. Reading a
layer fills in the default value of every key that is left out, so where a file of settings is given it
decides on all keys, also on those that it leaves out. -/
namespace InlineCache

namespace Toml

/-- The members that a value is read as where a record with some fields is asked for. -/
def Value.members? (fields : List String) : Value → Option (List (String × Value))
  | table ms => some ms
  | datetime text => some [(datetimeKey, .string text)]
  | array items => some (fields.zip items)
  | _ => none

/-- What the last member under a key says. -/
def last? (key : String) (ms : List (String × Value)) : Option Value := ms.reverse.lookup key

theorem last?_concat (key : String) (ms : List (String × Value)) (name : String) (v : Value) :
    last? key (ms ++ [(name, v)]) = if key = name then some v else last? key ms := by
  rw [last?, List.reverse_append, List.reverse_singleton, List.singleton_append, List.lookup_cons]
  split
  · rename_i h
    rw [if_pos (beq_iff_eq.mp h)]
  · rename_i h
    rw [if_neg (beq_eq_false_iff_ne.mp h), last?]

namespace Record

variable {π α γ : Type}

/-- What is known of a record, member by member. -/
def draft (r : Record π α) (ms : List (String × Value)) : Except Error π :=
  ms.foldlM (fun p m => r.visit p m.1 m.2) r.start

theorem draft_concat (r : Record π α) (ms : List (String × Value)) (name : String) (v : Value) :
    r.draft (ms ++ [(name, v)]) = r.draft ms >>= fun p => r.visit p name v := by
  simp [draft, List.foldlM_append]

/-- A part of what is known of a record: what a member under the field says, and nothing before. -/
structure Views (r : Record π α) (field : String) (fit : Value → Except Error γ)
    (view : π → Option γ) : Prop where
  start : view r.start = none
  own : ∀ p v, (r.visit p field v).map view = (fit v).map some
  other : ∀ p name v, name ≠ field → ∀ q, r.visit p name v = .ok q → view q = view p

/-- The part that belongs to a field is in the end what the last member under the field says. -/
theorem Views.mapM_last {r : Record π α} {field : String} {fit : Value → Except Error γ}
    {view : π → Option γ} (h : r.Views field fit view) {ms : List (String × Value)} {q : π}
    (hq : r.draft ms = .ok q) : (last? field ms).mapM fit = .ok (view q) := by
  -- from the last member back: the first one that is met under the field decides
  induction ms using List.reverseRecOn generalizing q with
  | nil =>
    obtain rfl := Except.ok.inj hq
    rw [h.start]
    rfl
  | append_singleton ms m ih =>
    obtain ⟨name, v⟩ := m
    rw [draft_concat] at hq
    obtain ⟨p, hp, hvisit⟩ := ok_of_bind hq
    rw [last?_concat]
    by_cases hname : field = name
    · subst hname
      have hown := h.own p v
      rw [hvisit] at hown
      rw [if_pos rfl, Option.mapM_some]
      exact hown.symm
    · rw [if_neg hname, h.other p name v (Ne.symm hname) q hvisit]
      exact ih hp

/-- What is made of a value that is read as a record. -/
theorem exists_draft_of_read (r : Record π α) (finish : π → α) (hfinish : ∀ spelling p,
    r.finish spelling p = .ok (finish p)) {v : Value} {a : α} (h : r.read v = .ok a) :
    ∃ ms q, v.members? r.fields = some ms ∧ r.draft ms = .ok q ∧ a = finish q := by
  have hof : ∀ spelling ms, (r.draft ms >>= r.finish spelling) = .ok a →
      ∃ q, r.draft ms = .ok q ∧ a = finish q := by
    intro spelling ms hms
    obtain ⟨q, hq, hfinished⟩ := ok_of_bind hms
    exact ⟨q, hq, Except.ok.inj (hfinished.symm.trans (hfinish spelling q))⟩
  cases v with
  | table ms =>
    obtain ⟨q, hq, ha⟩ := hof .keyed ms h
    exact ⟨ms, q, rfl, hq, ha⟩
  | datetime text =>
    obtain ⟨q, hq, ha⟩ := hof .keyed _ h
    exact ⟨_, q, rfl, hq, ha⟩
  | array items =>
    obtain ⟨q, hq, ha⟩ := hof .positional _ h
    exact ⟨_, q, rfl, hq, ha⟩
  | _ => cases h

end Record
end Toml

namespace Config

deriving instance DecidableEq for Draft

/-- The settings of a layer, with the default value of each key that is left out. -/
def Draft.filled (d : Draft) : Config where
  maxChainLength := d.maxChainLength.getD 8
  allowCloning := d.allowCloning.getD true

/-- What a value sets: the keys of its members with what they say, and no other ones. -/
def layer (v : Toml.Value) : Except Toml.Error Draft :=
  match v.members? record.fields with
  | some ms => do
    .ok { maxChainLength := ← (Toml.last? "maxChainLength" ms).mapM Toml.asNat
          allowCloning := ← (Toml.last? "allowCloning" ms).mapM Toml.asBool }
  | none => .error .misfit

/-- What a file of settings sets. -/
def fileLayer (text : String) : Except Toml.Error Draft := do
  layer (.table (← Toml.parse text))

theorem views_maxChainLength : record.Views "maxChainLength" Toml.asNat Draft.maxChainLength where
  start := rfl
  own d v := by cases hv : Toml.asNat v <;> simp [record, hv] <;> rfl
  other d name v hname q hq := by
    simp only [record] at hq
    split at hq
    · exact absurd rfl hname
    · obtain ⟨_, _, hset⟩ := ok_of_bind hq
      exact (congrArg Draft.maxChainLength (Except.ok.inj hset)).symm
    · cases hq

theorem views_allowCloning : record.Views "allowCloning" Toml.asBool Draft.allowCloning where
  start := rfl
  own d v := by cases hv : Toml.asBool v <;> simp [record, hv] <;> rfl
  other d name v hname q hq := by
    simp only [record] at hq
    split at hq
    · obtain ⟨_, _, hset⟩ := ok_of_bind hq
      exact (congrArg Draft.allowCloning (Except.ok.inj hset)).symm
    · exact absurd rfl hname
    · cases hq

/-- Settings that are read are those that the value sets, and the default values of the other ones. -/
theorem layer_of_read {v : Toml.Value} {c : Config} (h : record.read v = .ok c) :
    ∃ d, layer v = .ok d ∧ c = d.filled := by
  obtain ⟨ms, d, hms, hd, rfl⟩ :=
    Toml.Record.exists_draft_of_read record Draft.filled (fun _ _ => rfl) h
  refine ⟨d, ?_, rfl⟩
  simp only [layer, hms, views_maxChainLength.mapM_last hd, views_allowCloning.mapM_last hd]
  rfl

theorem fileLayer_of_parse {text : String} {c : Config} (h : parse text = .ok c) :
    ∃ d, fileLayer text = .ok d ∧ c = d.filled := by
  obtain ⟨ms, hms, hread⟩ := ok_of_bind h
  obtain ⟨d, hd, hc⟩ := layer_of_read (v := .table ms) hread
  exact ⟨d, by rw [fileLayer, hms]; exact hd, hc⟩

/-- The settings of layers: each key has the value of the first layer that sets it. The first one is a
bound that is given by itself, the last one are the default values. -/
def layered (bound : Option Nat) (layers : List Draft) : Config where
  maxChainLength := (bound.or (layers.findSome? Draft.maxChainLength)).getD 8
  allowCloning := (layers.findSome? Draft.allowCloning).getD true

/-- Settings that were filled in are those of a single layer. -/
theorem layered_singleton (bound : Option Nat) (d : Draft) :
    { d.filled with maxChainLength := bound.getD d.filled.maxChainLength } =
      layered bound [d] := by
  obtain ⟨max, cloning⟩ := d
  cases bound <;> cases max <;> cases cloning <;> rfl

/-- A layer makes no difference where the keys that the layers before it leave out have their default
values in it. -/
theorem layered_singleton_eq_iff {bound : Option Nat} {given own : Draft} :
    layered bound [given] = layered bound [given, own] ↔
      (bound = none → given.maxChainLength = none → own.maxChainLength.getD 8 = 8) ∧
        (given.allowCloning = none → own.allowCloning.getD true = true) := by
  rw [layered, layered, Config.mk.injEq]
  refine and_congr (eq_comm.trans ?_) (eq_comm.trans ?_)
  · cases bound with
    | some n => simp
    | none =>
      cases h : given.maxChainLength <;> cases h' : own.maxChainLength <;> simp [h, h']
  · cases h : given.allowCloning <;> cases h' : own.allowCloning <;> simp [h, h']

end Config

namespace Scenario

/-- What the table of settings in a scenario sets; nothing if there is none. -/
def layer (text : String) : Except Toml.Error Config.Draft := do
  match Toml.last? "config" (← Toml.parse text) with
  | some v => Config.layer v
  | none => .ok {}

theorem views_config : record.Views "config" Config.record.read Draft.config where
  start := rfl
  own d v := by cases hv : Config.record.read v <;> simp [record, hv] <;> rfl
  other d name v hname q hq := by
    simp only [record] at hq
    split at hq
    case h_1 => exact absurd rfl hname
    case h_6 => cases hq
    all_goals
      obtain ⟨_, _, hset⟩ := ok_of_bind hq
      exact (congrArg Draft.config (Except.ok.inj hset)).symm

theorem layer_of_parse {text : String} {s : Scenario} (h : parse text = .ok s) :
    ∃ d, layer text = .ok d ∧ s.config.getD {} = d.filled := by
  obtain ⟨ms, hms, hread⟩ := ok_of_bind h
  obtain ⟨q, hq, hfinish⟩ := ok_of_bind hread
  have hconfig : s.config = q.config := (congrArg Scenario.config (Except.ok.inj hfinish)).symm
  have hlast := views_config.mapM_last hq
  have hlayer : layer text = match Toml.last? "config" ms with
      | some v => Config.layer v
      | none => .ok {} := by
    rw [layer, hms]
    rfl
  rw [hlayer, hconfig]
  cases hv : Toml.last? "config" ms with
  | none =>
    rw [hv] at hlast
    rw [← Except.ok.inj hlast]
    exact ⟨{}, rfl, rfl⟩
  | some v =>
    rw [hv, Option.mapM_some] at hlast
    obtain ⟨c, hc, hsome⟩ := ok_of_bind hlast
    obtain ⟨d, hd, rfl⟩ := Config.layer_of_read hc
    rw [← Except.ok.inj hsome]
    exact ⟨d, hd, rfl⟩

/-- Without a file of settings a run has, key by key, the settings of the first layer that sets the key:
the given bound, the table of the scenario and the default values. A file of settings takes the place of
the table as a whole: its own keys come after the bound, and all others have their default values. So
the table is only passed over without a difference if it has the default values of the keys that the
file leaves out, apart from the length of chains where a bound is given. -/
theorem resolveConfig_layers (text : String) (s : Scenario) (hs : parse text = .ok s)
    (file : Option String) (loaded : Option Config) (hfile : file.mapM Config.parse = .ok loaded)
    (bound : Option Nat) :
    ∃ own, layer text = .ok own ∧
      (file = none → resolveConfig s loaded bound = Config.layered bound [own]) ∧
      ∀ settings, file = some settings → ∃ given, Config.fileLayer settings = .ok given ∧
        resolveConfig s loaded bound = Config.layered bound [given] ∧
        (resolveConfig s loaded bound = Config.layered bound [given, own] ↔
          (bound = none → given.maxChainLength = none → own.maxChainLength.getD 8 = 8) ∧
            (given.allowCloning = none → own.allowCloning.getD true = true)) := by
  obtain ⟨own, hown, hfilled⟩ := layer_of_parse hs
  refine ⟨own, hown, ?_, ?_⟩
  · rintro rfl
    obtain rfl := Except.ok.inj hfile
    rw [resolveConfig, Option.getD_none, hfilled]
    exact Config.layered_singleton bound own
  · rintro settings rfl
    rw [Option.mapM_some] at hfile
    obtain ⟨c, hc, hloaded⟩ := ok_of_bind hfile
    obtain rfl := Except.ok.inj hloaded
    obtain ⟨given, hgiven, rfl⟩ := Config.fileLayer_of_parse hc
    have hresolved : resolveConfig s (some given.filled) bound = Config.layered bound [given] :=
      Config.layered_singleton bound given
    refine ⟨given, hgiven, hresolved, ?_⟩
    rw [hresolved]
    exact Config.layered_singleton_eq_iff

/-- A table of settings with a file that leaves out one key of it. -/
theorem resolveConfig_layers_twoFiles :
    let text := "[config]\nmaxChainLength = 3\nallowCloning = false\n"
    let settings := "maxChainLength = 5\n"
    let s : Scenario := { config := some { maxChainLength := 3, allowCloning := false } }
    let c : Config := { maxChainLength := 5, allowCloning := true }
    parse text = .ok s ∧ (some settings).mapM Config.parse = .ok (some c) ∧
      ∃ own given, layer text = .ok own ∧ Config.fileLayer settings = .ok given ∧
        resolveConfig s (some c) none = Config.layered none [given] := by
  intro text settings s c
  have hs : parse text = .ok s := by decide +kernel
  have hc : (some settings).mapM Config.parse = .ok (some c) := by decide +kernel
  obtain ⟨own, hown, _, hfile⟩ := resolveConfig_layers text s hs (some settings) (some c) hc none
  obtain ⟨given, hgiven, hresolved, _⟩ := hfile settings rfl
  exact ⟨hs, hc, own, given, hown, hgiven, hresolved⟩

/-- The table does not allow cloning, the file says nothing of it, and it is allowed. -/
theorem silent_file_allows_cloning :
    let text := "[config]\nmaxChainLength = 3\nallowCloning = false\n"
    let settings := "maxChainLength = 5\n"
    let s : Scenario := { config := some { maxChainLength := 3, allowCloning := false } }
    let c : Config := { maxChainLength := 5, allowCloning := true }
    let own : Config.Draft := ⟨some 3, some false⟩
    let given : Config.Draft := ⟨some 5, none⟩
    parse text = .ok s ∧ (some settings).mapM Config.parse = .ok (some c) ∧
      layer text = .ok own ∧ Config.fileLayer settings = .ok given ∧
      (resolveConfig s (some c) none).allowCloning = true ∧
      (Config.layered none [given, own]).allowCloning = false := by
  decide +kernel

end Scenario
end InlineCache
