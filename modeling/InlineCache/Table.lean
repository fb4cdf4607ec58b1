/-! Small tables keyed by names. A name occurs at most once; the one put last comes first. -/
namespace InlineCache

structure Table (α : Type) where
  entries : List (String × α) := []
  deriving DecidableEq, Repr, Inhabited

namespace Table

variable {α : Type}

def get? (t : Table α) (name : String) : Option α :=
  (t.entries.find? fun e => e.1 == name).map Prod.snd

def erase (t : Table α) (name : String) : Table α :=
  ⟨t.entries.filter fun e => !(e.1 == name)⟩

/-- Puts a value under a name, instead of the old one if there is one. -/
def put (t : Table α) (name : String) (value : α) : Table α :=
  ⟨(name, value) :: (t.erase name).entries⟩

def contains (t : Table α) (name : String) : Bool := (t.get? name).isSome

@[simp] theorem get?_empty (name : String) : (⟨[]⟩ : Table α).get? name = none := rfl

@[simp] theorem get?_erase (t : Table α) (name key : String) :
    (t.erase name).get? key = if name = key then none else t.get? key := by
  simp only [erase, get?, List.find?_filter]
  by_cases hn : name = key
  · subst hn
    simp
  · simp only [hn, if_false]
    congr 2
    funext e
    by_cases he : e.1 = key
    · simp [he, Ne.symm hn]
    · simp [he]

@[simp] theorem get?_put (t : Table α) (name key : String) (value : α) :
    (t.put name value).get? key = if name = key then some value else t.get? key := by
  by_cases hn : name = key
  · simp [put, get?, hn]
  · have h := get?_erase t name key
    simp only [get?, hn, if_false] at h
    simp [put, get?, hn, h]

end Table

example : (((({} : Table Nat).put "a" 1).put "b" 2).put "a" 3).entries = [("a", 3), ("b", 2)] := by
  decide

end InlineCache
