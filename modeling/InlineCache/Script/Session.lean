import InlineCache.Report
import InlineCache.Script.Step
import InlineCache.Value.Display
import InlineCache.World.Flight

/-! The state of a running script and the steps during which nothing else happens: a world together
with the names that steps gave to what they made. Each kind of thing has names of its own, and a
name may be given again. -/
namespace InlineCache

/-- The check of a token, in words. -/
def Token.check (t : Token) : String := if t.valid then "ok" else "assumption invalidated"

/-- The fields of a record in braces behind its name. -/
def recordText (name : String) (fields : List (String × String)) : String :=
  name ++ " \x7b " ++ ", ".intercalate (fields.map fun f => f.1 ++ ": " ++ f.2) ++ " \x7d"

def boolText (b : Bool) : String := if b then "true" else "false"

def Token.debug (t : Token) : String :=
  recordText "Assumption" [("name", Text.quote t.name), ("valid", boolText t.valid)]

def RollingToken.debug (r : RollingToken) : String :=
  recordText "CyclicAssumption" [("name", Text.quote r.name), ("version", toString r.version)]

/-- A method in full; its body is not shown. -/
def Method.debug {β : Type} (m : Method β) : String :=
  recordText "Method" [("id", toString m.id), ("name", Text.quote m.name),
    ("owner", "ClassId(" ++ toString m.owner.number ++ ")"),
    ("visibility", if m.isPrivate then "Private" else "Public")]

def CallTarget.debug {β : Type} (t : CallTarget β) : String :=
  recordText "CallTarget" [("method", t.method.debug), ("cloned", boolText t.cloned)]

namespace Script

/-- A name that stands for nothing, with the kind of thing it was to name. -/
structure UnknownName where
  kind : String
  name : String
  deriving DecidableEq, Repr

structure SiteSummary where
  state : ChainState
  nodes : Nat
  installed : Nat
  stats : Stats
  deriving DecidableEq, Repr

inductive Answer where
  | ok
  | nothing
  | flag (b : Bool)
  | number (n : Nat)
  | text (s : String)
  | classId (c : ClassId)
  | refused (error : RegistryError)
  | unknown (name : UnknownName)
  | method (m : Method Body)
  | classInfo (c : ClassId) (name : String) (superclass : Option ClassId) (token : Option Token)
  | value (v : Value)
  | lookup (c : ClassId) (method : Option (Method Body)) (cacheable : Bool) (token : Token)
  | token (t : Token)
  | tokens (validity : List (String × Bool))
  | newRolling (r : RollingToken)
  | rolling (r : RollingToken) (token : Token)
  | prepared (target : CallTarget Body) (same : Bool)
  | counters (invoker : Invoker)
  | site (name : String) (options : SiteOptions)
  | outcome (reply : Except Failure Outcome)
  | called (reply : Option (Except Failure Outcome)) (site : SiteSummary)
  | report (r : SiteReport)
  /-- The answer of a step in which other steps ran, with their answers. -/
  | nested (result : Answer) (inner : List Answer)

/-- The state of a running script. The first invoker is the shared one; `bound` is that of sites
which do not set their own. -/
structure Session where
  world : World Body
  bound : Nat
  sites : Table SiteId := {}
  tokens : Table TokenId := {}
  rolling : Table RollingToken := {}
  methods : Table (Method Body) := {}
  targets : Table (CallTarget Body) := {}
  vars : Table Value := {}

namespace Session

def sharedInvoker : Nat := 0

def start (bound : Nat) (cloning : Bool) : Session :=
  { world := (({} : World Body).addInvoker cloning).1, bound }

def named {α : Type} (t : Table α) (kind name : String) : Except UnknownName α :=
  match t.get? name with
  | some x => .ok x
  | none => .error { kind, name }

/-- Puts a thing under a name, if one is given. -/
def store {α : Type} (t : Table α) (as : Option String) (x : α) : Table α :=
  match as with
  | some name => t.put name x
  | none => t

def classId (s : Session) : ClassRef → Except UnknownName ClassId
  | .numbered n => .ok ⟨n⟩
  | .named name => match s.world.registry.classId? name with
    | some c => .ok c
    | none => .error { kind := "class", name }

def eval (s : Session) : Expr → Except UnknownName (Session × Value)
  | .value v => .ok (s, v)
  | .new c => do
    let c ← s.classId c
    let (world, v) := s.world.newObject c
    .ok ({ s with world }, v)
  | .ofVar name => do .ok (s, ← named s.vars "variable" name)

/-- The values of expressions, from left to right. -/
def evalAll (s : Session) : List Expr → Except UnknownName (Session × List Value)
  | [] => .ok (s, [])
  | e :: r => do
    let (s, v) ← s.eval e
    let (s, vs) ← s.evalAll r
    .ok (s, v :: vs)

/-- The receiver, the arguments and the block of a step as a call. -/
def evalCall (s : Session) (name : String) (receiver : Expr) (args : List Expr)
    (block : Option Expr) : Except UnknownName (Session × Call) := do
  let (s, receiver) ← s.eval receiver
  let (s, args) ← s.evalAll args
  match block with
  | none => .ok (s, { name, receiver, args })
  | some b =>
    let (s, b) ← s.eval b
    .ok (s, { name, receiver, args, block := some b })

/-- A body with the value it holds. -/
def evalBody (s : Session) : BodySpec → Except UnknownName (Session × Body)
  | .const e => do
    let (s, v) ← s.eval e
    .ok (s, .const v)
  | .run steps e => do
    let (s, v) ← s.eval e
    .ok (s, .run steps v)
  | .fail message context => .ok (s, .fail message context)
  | .noMethod name className => .ok (s, .noMethod name className)
  | .tag text => .ok (s, .tag text)
  | .display => .ok (s, .display)
  | .receiver => .ok (s, .receiver)
  | .block => .ok (s, .block)
  | .arg i => .ok (s, .arg i)

def tokenInfo (s : Session) (t : TokenId) : Token := (s.world.registry.tokens.get? t).getD default

/-- The answer of an operation of the registry. -/
def answer {α : Type} (f : α → Answer) : Except RegistryError α → Answer
  | .ok x => f x
  | .error e => .refused e

/-- Runs a step during which nothing else happens. -/
def perform (s : Session) : Command → Except UnknownName (Session × Answer)
  | .defineClass name superclass => do
    let superclass ← match superclass with
      | none => .ok none
      | some c => (s.classId c).map some
    let (world, result) := s.world.defineClass name superclass
    .ok ({ s with world }, answer .classId result)
  | .setCacheable c cacheable => do
    let (world, result) := s.world.setCacheable (← s.classId c) cacheable
    .ok ({ s with world }, answer (fun _ => .ok) result)
  | .define c name body isPrivate alwaysClone as => do
    let c ← s.classId c
    let (s, body) ← s.evalBody body
    let (world, result) := s.world.defineMethod c { name, isPrivate, alwaysClone, body }
    let methods := match result with
      | .ok m => store s.methods as m
      | .error _ => s.methods
    .ok ({ s with world, methods }, answer .method result)
  | .remove c name => do
    let (world, result) := s.world.removeMethod (← s.classId c) name
    .ok ({ s with world }, answer .flag result)
  | .classInfo c => match s.classId c with
    | .error _ => .ok (s, .nothing)
    | .ok c =>
      let r := s.world.registry
      .ok (s, .classInfo c (r.className c) (r.superclass? c) ((r.currentToken? c).map s.tokenInfo))
  | .classOf e => do
    let (s, v) ← s.eval e
    .ok (s, .classId v.classId)
  | .bind e as => do
    let (s, v) ← s.eval e
    .ok ({ s with vars := s.vars.put as v }, .value v)
  | .equal a b => do
    let (s, a) ← s.eval a
    let (s, b) ← s.eval b
    .ok (s, .flag (a.equal b))
  | .resolve c name ignoreVisibility as => do
    let c ← s.classId c
    let found := s.world.registry.resolve c name ignoreVisibility
    let (registry, token) := match found.token with
      | some t => (s.world.registry, t)
      | none => s.world.registry.freshToken (c.display ++ " unknown")
    let methods := match found.method with
      | some m => store s.methods as m
      | none => s.methods
    let s := { s with
      world := { s.world with registry }, tokens := store s.tokens as token, methods }
    .ok (s, .lookup found.classId found.method found.cacheable (s.tokenInfo token))
  | .unmodified c as => do
    match s.world.registry.currentToken? (← s.classId c) with
    | none => .ok (s, .nothing)
    | some t => .ok ({ s with tokens := store s.tokens as t }, .token (s.tokenInfo t))
  | .newToken name as =>
    let (registry, t) := s.world.registry.freshToken name
    let s := { s with world := { s.world with registry }, tokens := s.tokens.put as t }
    .ok (s, .token (s.tokenInfo t))
  | .token name => do .ok (s, .token (s.tokenInfo (← named s.tokens "token" name)))
  | .tokens => .ok (s, .tokens (s.tokens.entries.map fun e => (e.1, s.world.isValid e.2)))
  | .sameToken a b => do
    .ok (s, .flag ((← named s.tokens "token" a) == (← named s.tokens "token" b)))
  | .invalidateToken name => do
    let t ← named s.tokens "token" name
    .ok ({ s with world := s.world.invalidateToken t }, .flag (s.world.isValid t))
  | .debugToken name => do .ok (s, .text (s.tokenInfo (← named s.tokens "token" name)).debug)
  | .newRolling name as =>
    let (tokens, r) := RollingToken.start s.world.registry.tokens name
    let registry := { s.world.registry with tokens }
    .ok ({ s with world := { s.world with registry }, rolling := s.rolling.put as r },
      .newRolling r)
  | .rolling name as => do
    let r ← named s.rolling "rolling token" name
    .ok ({ s with tokens := store s.tokens as r.current }, .rolling r (s.tokenInfo r.current))
  | .roll name => do
    let r ← named s.rolling "rolling token" name
    let (tokens, r) := r.roll s.world.registry.tokens
    let registry := { s.world.registry with tokens }
    .ok ({ s with world := { s.world with registry }, rolling := s.rolling.put name r },
      .number r.version)
  | .prepare name how as => do
    let m ← named s.methods "method" name
    let (world, t) := match how with
      | .byInvoker => s.world.prepare sharedInvoker m
      | .direct => (s.world, { method := m, cloned := false })
      | .cloned => s.world.cloneTarget m
    .ok ({ s with world, targets := store s.targets as t }, .prepared t (t.method.id == m.id))
  | .counters => .ok (s, .counters (s.world.invoker sharedInvoker))
  | .site as name options bound cloning =>
    let (world, invoker) := match cloning with
      | none => (s.world, sharedInvoker)
      | some cloning => s.world.addInvoker cloning
    let (world, id) := world.addSite { name, options, bound := bound.getD s.bound, invoker }
    .ok ({ s with world, sites := s.sites.put as id }, .site name options)
  | .describe name => do
    .ok (s, .report (s.world.describe Shape.display (← named s.sites "site" name)))

def summary (s : Session) (id : SiteId) : SiteSummary :=
  let site := s.world.site id
  { state := site.chain.state, nodes := site.chain.nodes.length,
    installed := site.chain.installed, stats := site.stats }

end Session
end Script
end InlineCache
