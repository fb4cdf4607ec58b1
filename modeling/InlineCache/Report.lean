import InlineCache.Text.Json
import InlineCache.World

/-! What a site tells of its chain: its state, and for every node the branches with their targets
and the marks they carry now. -/
namespace InlineCache

/-- A branch as reported. An open branch is neither cached nor valid and has no target. -/
structure BranchReport where
  shape : String
  cached : Bool := false
  valid : Bool := false
  target : Option String := none
  cloned : Bool := false
  entered : Nat := 0
  deriving DecidableEq, Repr

structure NodeReport where
  kind : String
  method : String
  branches : List BranchReport
  deriving DecidableEq, Repr

structure SiteReport where
  name : String
  state : ChainState
  installed : Nat
  bound : Nat
  nodes : List NodeReport
  stats : Stats
  deriving DecidableEq, Repr

def ChainState.display : ChainState → String
  | uninitialized => "uninitialized"
  | monomorphic => "monomorphic"
  | polymorphic => "polymorphic"
  | megamorphic => "megamorphic"

variable {β : Type}

namespace Registry

/-- A call target is reported by the class that owns its method and the name of the method. -/
def describeTarget (r : Registry β) (t : CallTarget β) : String :=
  r.className t.method.owner ++ "#" ++ t.method.name

def describeSlot (r : Registry β) (shape : String) : Option (Branch β) → BranchReport
  | none => { shape }
  | some b =>
    let (target, cloned) := match b.target with
      | .direct t | .handler t => (some (r.describeTarget t), t.cloned)
      | .probe => (none, false)
    { shape, cached := true, valid := b.isValid r.tokens.isValid, target, cloned,
      entered := b.entered }

/-- The report of a node, with a label for each shape. -/
def describeNode (r : Registry β) (label : Shape → String) : Node β → NodeReport
  | .boolean g onFalse onTrue =>
    { kind := "boolean", method := g.name,
      branches := [r.describeSlot "false" onFalse, r.describeSlot "true" onTrue] }
  | .single g branch =>
    let shape := match g.shape with
      | .exactly shape => label shape
      | .boolean => "bool"
    { kind := "single", method := g.name, branches := [r.describeSlot shape branch] }

end Registry

/-- The report of a site, with a label for each shape. -/
def World.describe (w : World β) (label : Shape → String) (s : SiteId) : SiteReport :=
  let site := w.site s
  { name := site.name
    state := site.chain.state
    installed := site.chain.installed
    bound := site.bound
    nodes := site.chain.nodes.map (w.registry.describeNode label)
    stats := site.stats }

open Text

def Stats.json (s : Stats) : Json := .object [
  ("hits", .nat s.hits), ("misses", .nat s.misses), ("repairs", .nat s.repairs),
  ("installs", .nat s.installs), ("merges", .nat s.merges),
  ("megamorphic_lookups", .nat s.megamorphicLookups)]

def BranchReport.json (b : BranchReport) : Json := .object [
  ("shape", .str b.shape), ("cached", .bool b.cached), ("valid", .bool b.valid),
  ("target", .strOrNull b.target), ("cloned", .bool b.cloned), ("entered", .nat b.entered)]

def NodeReport.json (n : NodeReport) : Json := .object [
  ("kind", .str n.kind), ("method", .str n.method), ("branches", .list (n.branches.map (·.json)))]

def SiteReport.json (s : SiteReport) : Json := .object [
  ("name", .str s.name), ("state", .str s.state.display), ("installed", .nat s.installed),
  ("max_chain_length", .nat s.bound), ("nodes", .list (s.nodes.map (·.json))),
  ("stats", s.stats.json)]

end InlineCache
