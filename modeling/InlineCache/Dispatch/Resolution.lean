import InlineCache.Dispatch.Call
import InlineCache.Registry

/-! Full dispatch of a call without any cache: one lookup of the message, a second one of the
handler where the first finds nothing and the site would call it, and the decision that follows. -/
namespace InlineCache

/-- Everything a full lookup learned about a call. -/
structure Resolution (β : Type) where
  lookup : Lookup β
  handler : Option (Lookup β)
  deriving DecidableEq, Repr

inductive Decision (β : Type) where
  | invoke (activation : Activation β)
  | responds (answer : Bool)
  | missing
  | noMethod (name className : String)
  deriving DecidableEq, Repr

/-- What a cached branch for a resolution would hold, before its method is prepared for calling. -/
inductive Recipe (β : Type) where
  | direct (method : Method β)
  | handler (method : Method β)
  | probe
  deriving DecidableEq, Repr

variable {β : Type}

/-- Whether a site looks up the handler after a first lookup. -/
def SiteOptions.wantsHandler (o : SiteOptions) (lookup : Lookup β) : Bool :=
  lookup.method.isNone && o.action == .invoke && o.missing == .callHandler

def Registry.lookup (r : Registry β) (o : SiteOptions) (call : Call) : Lookup β :=
  r.resolve call.receiver.classId call.name o.ignoreVisibility

/-- The lookup of the handler for a call; a handler may be private. -/
def Registry.lookupHandler (r : Registry β) (call : Call) : Lookup β :=
  r.resolve call.receiver.classId handlerName true

/-- All lookups of a call in one state of the registry. -/
def Registry.resolution (r : Registry β) (o : SiteOptions) (call : Call) : Resolution β :=
  let lookup := r.lookup o call
  { lookup, handler := if o.wantsHandler lookup then some (r.lookupHandler call) else none }

namespace Resolution

/-- The method of the handler, if it was looked up and found. -/
def handlerMethod? (res : Resolution β) : Option (Method β) := res.handler.bind Lookup.method

/-- The decision that follows from a resolution; `className` is the name of the receiver's class. -/
def decide (res : Resolution β) (o : SiteOptions) (call : Call) (className : String) :
    Decision β :=
  match o.action, res.lookup.method, o.missing with
  | .probe, method, _ => .responds method.isSome
  | .invoke, some m, _ => .invoke (call.activate m)
  | .invoke, none, .returnMissing => .missing
  | .invoke, none, .callHandler =>
    match res.handlerMethod? with
    | some h => .invoke (call.toHandler.activate h)
    | none => .noMethod call.name className

/-- What may be cached of a resolution, with the tokens it rests on; nothing if a class involved is
not cacheable or there is nothing to call. -/
def recipe? (res : Resolution β) (o : SiteOptions) : Option (List TokenId × Recipe β) :=
  if !res.lookup.cacheable then none
  else match o.action, res.lookup.method, o.missing with
    | .invoke, some m, _ => some (res.lookup.token.toList, .direct m)
    | .probe, some _, _ => some (res.lookup.token.toList, .probe)
    | .invoke, none, .callHandler =>
      res.handler.bind fun h => h.method.bind fun m =>
        if h.cacheable then some (res.lookup.token.toList ++ h.token.toList, .handler m) else none
    | _, none, _ => none

end Resolution

/-- The decision of a call in one state of the registry, with no cache involved. -/
def Registry.dispatch (r : Registry β) (o : SiteOptions) (call : Call) : Decision β :=
  (r.resolution o call).decide o call (r.className call.receiver.classId)

example : (Registry.builtin : Registry Unit).dispatch {} { name := "m", receiver := .nil } =
    .noMethod "m" "NilClass" := by decide +kernel

end InlineCache
