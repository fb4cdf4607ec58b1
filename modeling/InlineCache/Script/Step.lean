import InlineCache.Dispatch.Call

/-! Scripts that drive a world. A script is a list of steps; some steps hold further steps: those
that run while a send is between its lookups and its publication, and those that a method body
runs. -/
namespace InlineCache.Script

/-- A class, by name or by number. A number need not belong to a class. -/
inductive ClassRef where
  | named (name : String)
  | numbered (number : Nat)
  deriving DecidableEq, Repr, Inhabited

/-- A value as a step writes it. Every evaluation of `new` makes an object. -/
inductive Expr where
  | value (v : Value)
  | new (c : ClassRef)
  | ofVar (name : String)
  deriving DecidableEq, Repr, Inhabited

/-- How a call target is made of a method: by the shared invoker, or as asked for. -/
inductive Preparation where
  | byInvoker
  | direct
  | cloned
  deriving DecidableEq, Repr, Inhabited

mutual

/-- A method body as a step writes it. -/
inductive BodySpec where
  | const (value : Expr)
  | fail (message : String) (context : Option String)
  | noMethod (name className : String)
  | tag (text : String)
  | display
  | receiver
  | block
  | arg (index : Nat)
  /-- Runs steps and then returns a value that was made when the method was defined. -/
  | run (steps : List Step) (value : Expr)

/-- A step during which nothing else happens. `as` stores what it makes under a name. -/
inductive Command where
  | defineClass (name : String) (superclass : Option ClassRef)
  | setCacheable (c : ClassRef) (cacheable : Bool)
  | define (c : ClassRef) (name : String) (body : BodySpec) (isPrivate alwaysClone : Bool)
      (as : Option String)
  | remove (c : ClassRef) (name : String)
  | classInfo (c : ClassRef)
  | classOf (value : Expr)
  | bind (value : Expr) (as : String)
  | equal (a b : Expr)
  | resolve (c : ClassRef) (name : String) (ignoreVisibility : Bool) (as : Option String)
  | unmodified (c : ClassRef) (as : Option String)
  | newToken (name as : String)
  | token (token : String)
  | tokens
  | sameToken (a b : String)
  | invalidateToken (token : String)
  | debugToken (token : String)
  | newRolling (name as : String)
  | rolling (rolling : String) (as : Option String)
  | roll (rolling : String)
  | prepare (method : String) (how : Preparation) (as : Option String)
  | counters
  | site (as name : String) (options : SiteOptions) (bound : Option Nat) (cloning : Option Bool)
  | describe (site : String)

/-- A step of a script. -/
inductive Step where
  | command (c : Command)
  /-- Runs the body of a method, with no invoker involved. -/
  | callMethod (method : String) (receiver : Expr) (args : List Expr) (block : Option Expr)
  /-- Calls a target through the shared invoker. -/
  | invoke (target : String) (receiver : Expr) (args : List Expr) (block : Option Expr)
  /-- Sends a message through a site, some times in a row. After each lookup that the sends make,
  the next list of `during` is run. -/
  | call (site : String) (receiver : Expr) (args : List Expr) (block : Option Expr)
      (send : Option String) (times : Nat) (during : List (List Step))

end

/-- A method body of a world driven by scripts. -/
inductive Body where
  | const (value : Value)
  | fail (message : String) (context : Option String)
  | noMethod (name className : String)
  | tag (text : String)
  | display
  | receiver
  | block
  | arg (index : Nat)
  | run (steps : List Step) (value : Value)

end InlineCache.Script
