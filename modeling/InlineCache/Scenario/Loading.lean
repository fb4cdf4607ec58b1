import InlineCache.Scenario.Reading

/-! Scenarios and settings from files: from the texts of the files, or from the reasons why there
are none. -/
namespace InlineCache

/-- Why a file could not be read. -/
inductive FileError where
  | missing
  | notDirectory
  | isDirectory
  | notText
  | other (message : String)
  deriving DecidableEq, Repr

def FileError.message : FileError → String
  | missing => "No such file or directory (os error 2)"
  | notDirectory => "Not a directory (os error 20)"
  | isDirectory => "Is a directory (os error 21)"
  | notText => "stream did not contain valid UTF-8"
  | other message => message

inductive FileKind where
  | scenario
  | config
  deriving DecidableEq, Repr

/-- Why a file gave nothing: it could not be read, or its text does not fit. -/
inductive LoadError where
  | unreadable (kind : FileKind) (path : String) (error : FileError)
  | invalid (kind : FileKind) (path : String) (error : Toml.Error)
  deriving DecidableEq, Repr

/-- The texts of a load error, the outermost first. -/
def LoadError.messages : LoadError → List String
  | unreadable .scenario path e => ["failed to read scenario " ++ path, e.message]
  | unreadable .config path e => ["failed to read dispatch config " ++ path, e.message]
  | invalid .scenario path e => ("in " ++ path) :: Scenario.errorMessages e
  | invalid .config path e => ("in " ++ path) :: Config.errorMessages e

/-- Turns what was read of a file into data. -/
def loadFrom {α : Type} (kind : FileKind) (parse : String → Except Toml.Error α) (path : String) :
    Except FileError String → Except LoadError α
  | .error e => .error (.unreadable kind path e)
  | .ok text => match parse text with
    | .ok x => .ok x
    | .error e => .error (.invalid kind path e)

def Scenario.load (path : String) (file : Except FileError String) : Except LoadError Scenario :=
  loadFrom .scenario Scenario.parse path file

def Config.load (path : String) (file : Except FileError String) : Except LoadError Config :=
  loadFrom .config Config.parse path file

end InlineCache
