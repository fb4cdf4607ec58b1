import InlineCache.Text.Json
import InlineCache.Toml.Decode

/-! The settings of dispatch: how long a chain may grow, and whether methods may be copied. -/
namespace InlineCache

structure Config where
  /-- The nodes a site may install before it goes megamorphic. -/
  maxChainLength : Nat := 8
  /-- Whether methods that ask for a copy get one. -/
  allowCloning : Bool := true
  deriving DecidableEq, Repr, Inhabited

namespace Config

/-- What is known of settings while they are read. -/
structure Draft where
  maxChainLength : Option Nat := none
  allowCloning : Option Bool := none

/-- The keys of the settings. Keys that are left out have their default values. -/
def record : Toml.Record Draft Config where
  fields := ["maxChainLength", "allowCloning"]
  start := {}
  visit d k v := match k with
    | "maxChainLength" => do .ok { d with maxChainLength := some (← Toml.asNat v) }
    | "allowCloning" => do .ok { d with allowCloning := some (← Toml.asBool v) }
    | k => Toml.Record.unknown ["maxChainLength", "allowCloning"] k
  finish _ d := .ok {
    maxChainLength := d.maxChainLength.getD 8
    allowCloning := d.allowCloning.getD true }

def parse (text : String) : Except Toml.Error Config := do
  record.ofMembers (← Toml.parse text)

/-- The texts of an error in settings, the outermost first. -/
def errorMessages (e : Toml.Error) : List String := ["invalid dispatch config", e.message]

def json (c : Config) : Text.Json :=
  .object [("maxChainLength", .nat c.maxChainLength), ("allowCloning", .bool c.allowCloning)]

end Config
end InlineCache
