/-! Validity tokens. A token is valid until it is invalidated and never becomes valid again; its
identity is its place in a store that only grows. A rolling token hands out one current token and
replaces it by a fresh one whenever what it stands for changes. -/
namespace InlineCache

/-- The identity of a token: its place in the store. -/
structure TokenId where
  place : Nat
  deriving DecidableEq, Repr, Inhabited

structure Token where
  name : String
  valid : Bool
  deriving DecidableEq, Repr, Inhabited

structure TokenStore where
  entries : Array Token := #[]
  deriving DecidableEq, Repr, Inhabited

namespace TokenStore

def get? (s : TokenStore) (t : TokenId) : Option Token := s.entries[t.place]?

/-- Whether a token is valid; a place outside the store is not. -/
def isValid (s : TokenStore) (t : TokenId) : Bool := (s.get? t).any Token.valid

def fresh (s : TokenStore) (name : String) : TokenStore × TokenId :=
  (⟨s.entries.push ⟨name, true⟩⟩, ⟨s.entries.size⟩)

def invalidate (s : TokenStore) (t : TokenId) : TokenStore :=
  ⟨s.entries.modify t.place fun token => { token with valid := false }⟩

@[simp] theorem isValid_fresh_self (s : TokenStore) (name : String) :
    (s.fresh name).1.isValid (s.fresh name).2 = true := by
  simp [isValid, get?, fresh]

theorem isValid_fresh_of_valid (s : TokenStore) (name : String) (t : TokenId)
    (h : s.isValid t = true) : (s.fresh name).1.isValid t = true := by
  have hlt : t.place < s.entries.size := by
    cases hg : s.entries[t.place]? with
    | none => simp [isValid, get?, hg] at h
    | some _ => exact (Array.getElem?_eq_some_iff.mp hg).1
  simpa [isValid, get?, fresh, Array.getElem?_push, Nat.ne_of_lt hlt] using h

@[simp] theorem isValid_invalidate (s : TokenStore) (t u : TokenId) :
    (s.invalidate t).isValid u = (decide (t ≠ u) && s.isValid u) := by
  by_cases h : t = u
  · subst h
    cases hg : s.entries[t.place]? <;> simp [isValid, get?, invalidate, Array.getElem?_modify, hg]
  · have hp : t.place ≠ u.place := fun e => h (by cases t; cases u; simp_all)
    simp [isValid, get?, invalidate, Array.getElem?_modify, h, hp]

end TokenStore

/-- A name with its current token and the number of times the token was replaced. -/
structure RollingToken where
  name : String
  current : TokenId
  version : Nat
  deriving DecidableEq, Repr, Inhabited

namespace RollingToken

/-- A rolling token with a first, valid token. -/
def start (s : TokenStore) (name : String) : TokenStore × RollingToken :=
  let (s, t) := s.fresh name
  (s, ⟨name, t, 0⟩)

/-- Hands out a fresh token from now on and invalidates the one handed out so far. -/
def roll (s : TokenStore) (r : RollingToken) : TokenStore × RollingToken :=
  let (s, t) := s.fresh r.name
  (s.invalidate r.current, { r with current := t, version := r.version + 1 })

end RollingToken

example : let (s, r) := RollingToken.start {} "a"
    let (s', r') := r.roll s
    s'.isValid r.current = false ∧ s'.isValid r'.current = true ∧ r'.version = 1 := by decide

end InlineCache
