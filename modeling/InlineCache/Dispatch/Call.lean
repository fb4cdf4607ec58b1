import InlineCache.Method

/-! What is asked of a call site: a message to a receiver, under options fixed for the site, and
the ways in which the asking ends. -/
namespace InlineCache

/-- What a site does with the method it finds: run it, or only say that there is one. -/
inductive Action where
  | invoke
  | probe
  deriving DecidableEq, Repr, Inhabited

/-- What an invoking site does when there is no method: call the handler for missing methods, or
say so. -/
inductive Missing where
  | callHandler
  | returnMissing
  deriving DecidableEq, Repr, Inhabited

structure SiteOptions where
  action : Action := .invoke
  missing : Missing := .callHandler
  /-- Lookups of the message find private methods too. -/
  ignoreVisibility : Bool := false
  deriving DecidableEq, Repr, Inhabited

/-- The options that a probing site starts from. -/
def SiteOptions.probing : SiteOptions := { action := .probe, missing := .returnMissing }

structure Call where
  name : String
  receiver : Value
  args : List Value := []
  block : Option Value := none
  deriving DecidableEq, Repr, Inhabited

/-- The message that is sent when a method is missing. -/
def handlerName : String := "method_missing"

/-- The call of a handler: the missing name as a symbol comes before the arguments. -/
def Call.toHandler (call : Call) : Call :=
  { call with name := handlerName, args := .symbol call.name :: call.args }

/-- A send that ended well. -/
inductive Outcome where
  | returned (value : Value)
  | responds (answer : Bool)
  | missing
  deriving DecidableEq, Repr, Inhabited

/-- A send that ended badly: no method and no handler, an error raised by a method body, perhaps
wrapped in a context, or a cached branch that does not fit the action of its site. -/
inductive Failure where
  | noMethod (name className : String)
  | raised (message : String) (context : Option String)
  | malformedChain
  deriving DecidableEq, Repr, Inhabited

/-- The texts of a failure, the outermost first. -/
def Failure.messages : Failure → List String
  | noMethod name className => ["undefined method `" ++ name ++ "' for " ++ className]
  | raised message context => context.toList ++ [message]
  | malformedChain => ["malformed dispatch chain"]

/-- A method body about to be run. -/
structure Activation (β : Type) where
  method : Method β
  receiver : Value
  args : List Value
  block : Option Value
  deriving DecidableEq, Repr

def Call.activate {β : Type} (call : Call) (method : Method β) : Activation β :=
  { method, receiver := call.receiver, args := call.args, block := call.block }

end InlineCache
