import InlineCache.Chain
import InlineCache.Dispatch.Resolution

/-! The whole state: the class registry, the invokers that run method bodies, and the call sites
with their chains and statistics. Each operation here is atomic; what can happen between two of them
is the business of the sends and scripts built on top. -/
namespace InlineCache

/-- What runs method bodies: whether it grants copies, and what it has done so far. -/
structure Invoker where
  cloning : Bool := true
  invocations : Nat := 0
  clones : Nat := 0
  deriving DecidableEq, Repr, Inhabited

structure Stats where
  hits : Nat := 0
  misses : Nat := 0
  repairs : Nat := 0
  installs : Nat := 0
  merges : Nat := 0
  megamorphicLookups : Nat := 0
  deriving DecidableEq, Repr, Inhabited

/-- The way a send takes through a site. -/
inductive Route where
  | hit
  | miss
  | repair
  | megamorphic
  deriving DecidableEq, Repr, Inhabited

/-- A call site. Its name is the message it sends unless a call gives another one; `bound` limits
the nodes it may install. -/
structure Site (β : Type) where
  name : String
  options : SiteOptions
  bound : Nat
  invoker : Nat
  chain : Chain β := {}
  stats : Stats := {}
  deriving DecidableEq, Repr, Inhabited

/-- The identity of a site: its place among the sites. -/
structure SiteId where
  place : Nat
  deriving DecidableEq, Repr, Inhabited

/-- The state of everything. Methods and objects are numbered from one. -/
structure World (β : Type) where
  registry : Registry β := .builtin
  invokers : Array Invoker := #[]
  sites : Array (Site β) := #[]
  nextMethod : Nat := 1
  nextObject : Nat := 1
  deriving DecidableEq, Repr, Inhabited

def Stats.count (s : Stats) : Route → Stats
  | .hit => { s with hits := s.hits + 1 }
  | .miss => { s with misses := s.misses + 1 }
  | .repair => { s with repairs := s.repairs + 1 }
  | .megamorphic => { s with megamorphicLookups := s.megamorphicLookups + 1 }

/-- Counts what a publication did to the chain. -/
def Stats.countChange (s : Stats) : Change → Stats
  | .append => { s with installs := s.installs + 1 }
  | .fill _ true => { s with merges := s.merges + 1 }
  | _ => s

namespace World

variable {β : Type}

def site (w : World β) (s : SiteId) : Site β := (w.sites[s.place]?).getD default

def modifySite (w : World β) (s : SiteId) (f : Site β → Site β) : World β :=
  { w with sites := w.sites.modify s.place f }

def addInvoker (w : World β) (cloning : Bool) : World β × Nat :=
  ({ w with invokers := w.invokers.push { cloning } }, w.invokers.size)

def addSite (w : World β) (site : Site β) : World β × SiteId :=
  ({ w with sites := w.sites.push site }, ⟨w.sites.size⟩)

def invoker (w : World β) (i : Nat) : Invoker := (w.invokers[i]?).getD default

def isValid (w : World β) (t : TokenId) : Bool := w.registry.tokens.isValid t

def newObject (w : World β) (c : ClassId) : World β × Value :=
  ({ w with nextObject := w.nextObject + 1 }, .object w.nextObject c)

def defineClass (w : World β) (name : String) (superclass : Option ClassId) :
    World β × Except RegistryError ClassId :=
  match w.registry.defineClass name superclass with
  | .ok (registry, c) => ({ w with registry }, .ok c)
  | .error e => (w, .error e)

def setCacheable (w : World β) (c : ClassId) (cacheable : Bool) :
    World β × Except RegistryError Unit :=
  match w.registry.setCacheable c cacheable with
  | .ok registry => ({ w with registry }, .ok ())
  | .error e => (w, .error e)

/-- Defines a method. It takes its number even if the class does not exist. -/
def defineMethod (w : World β) (c : ClassId) (d : MethodDef β) :
    World β × Except RegistryError (Method β) :=
  let m : Method β := { d with id := w.nextMethod, owner := c }
  let w := { w with nextMethod := w.nextMethod + 1 }
  match w.registry.defineMethod m with
  | .ok registry => ({ w with registry }, .ok m)
  | .error e => (w, .error e)

def removeMethod (w : World β) (c : ClassId) (name : String) :
    World β × Except RegistryError Bool :=
  match w.registry.removeMethod c name with
  | .ok (registry, removed) => ({ w with registry }, .ok removed)
  | .error e => (w, .error e)

def invalidateToken (w : World β) (t : TokenId) : World β :=
  { w with registry := w.registry.invalidateToken t }

/-- A call target with a copy of a method. -/
def cloneTarget (w : World β) (m : Method β) : World β × CallTarget β :=
  ({ w with nextMethod := w.nextMethod + 1 }, { method := m.copy w.nextMethod, cloned := true })

/-- Makes a method ready for calls by an invoker: a copy if the method asks for one and the invoker
grants it, else the method itself. -/
def prepare (w : World β) (i : Nat) (m : Method β) : World β × CallTarget β :=
  if (w.invoker i).cloning && m.alwaysClone then
    let w := { w with invokers := w.invokers.modify i fun v => { v with clones := v.clones + 1 } }
    w.cloneTarget m
  else (w, { method := m, cloned := false })

def countInvocation (w : World β) (i : Nat) : World β :=
  { w with invokers := w.invokers.modify i fun v => { v with invocations := v.invocations + 1 } }

/-- Builds the branch that a recipe describes. -/
def buildBranch (w : World β) (i : Nat) : List TokenId × Recipe β → World β × Branch β
  | (tokens, .direct m) =>
    let (w, t) := w.prepare i m
    (w, { tokens, target := .direct t })
  | (tokens, .handler m) =>
    let (w, t) := w.prepare i m
    (w, { tokens, target := .handler t })
  | (tokens, .probe) => (w, { tokens, target := .probe })

/-- Publishes a resolution to the chain that is current now, whatever happened since the resolution
was made. -/
def publish (w : World β) (s : SiteId) (call : Call) (res : Resolution β) : World β :=
  let site := w.site s
  let recipe := res.recipe? site.options
  let shape := call.receiver.shape
  let change := site.chain.plan w.isValid site.bound call.name shape recipe.isSome
  let (w, branch) := match recipe, change.needsBranch with
    | some recipe, true =>
      let (w, b) := w.buildBranch site.invoker recipe
      (w, some b)
    | _, _ => (w, none)
  w.modifySite s fun site => { site with
    chain := site.chain.apply call.name shape change branch
    stats := site.stats.countChange change }

end World
end InlineCache
