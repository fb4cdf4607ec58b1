import InlineCache.Scenario.Run

/-! The report of a run as text and as JSON. -/
namespace InlineCache.Scenario

open Text

/-- A step on a line; an expectation that was not met is added. -/
def StepReport.text (s : StepReport) : String :=
  "[" ++ toString s.index ++ "] " ++ s.description ++ " -> " ++ s.result ++
    (match s.expected, s.matched with
      | some expected, some false => "  (expected " ++ expected ++ ")"
      | _, _ => "") ++ "\n"

/-- A branch on a line: its target, marks in brackets, and how often it was entered. -/
def branchText (b : BranchReport) : String :=
  let target := match b.target, b.cached with
    | some target, _ => target
    | none, true => "(probe)"
    | none, false => "(open)"
  let flags := (if b.cached && !b.valid then ["invalid"] else []) ++
    (if b.cloned then ["cloned"] else [])
  "    " ++ b.shape ++ " -> " ++ target ++
    (if flags.isEmpty then "" else " [" ++ ", ".intercalate flags ++ "]") ++
    " entered " ++ toString b.entered ++ "\n"

def nodeText (n : NodeReport) : String :=
  "  " ++ n.kind ++ " " ++ n.method ++ "\n" ++ String.join (n.branches.map branchText)

def siteText (s : SiteReport) : String :=
  "site " ++ s.name ++ " [" ++ s.state.display ++ "] installed " ++ toString s.installed ++ "/" ++
    toString s.bound ++ "\n" ++ String.join (s.nodes.map nodeText) ++
    "  hits " ++ toString s.stats.hits ++ " misses " ++ toString s.stats.misses ++
    " repairs " ++ toString s.stats.repairs ++ " installs " ++ toString s.stats.installs ++
    " merges " ++ toString s.stats.merges ++
    " megamorphic " ++ toString s.stats.megamorphicLookups ++ "\n"

/-- The whole report as text; a blank line stands before each site. -/
def RunReport.text (r : RunReport) : String :=
  String.join (r.steps.map StepReport.text) ++
    String.join (r.sites.map fun s => "\n" ++ siteText s)

/-- The JSON form of a step, without an expectation if it has none. -/
def StepReport.json (s : StepReport) : Json := .object (
  [("index", .nat s.index), ("description", .str s.description), ("result", .str s.result)] ++
  (s.expected.map fun e => ("expected", Json.str e)).toList ++
  (s.matched.map fun m => ("matched", Json.bool m)).toList)

def RunReport.json (r : RunReport) : Json := .object [
  ("max_chain_length", .nat r.maxChainLength),
  ("steps", .list (r.steps.map StepReport.json)),
  ("sites", .list (r.sites.map SiteReport.json))]

end InlineCache.Scenario
