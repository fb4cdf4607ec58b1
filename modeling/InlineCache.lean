import InlineCache.Chain
import InlineCache.Chain.Node
import InlineCache.CommandLine.Arguments
import InlineCache.CommandLine.Program
import InlineCache.Config
import InlineCache.Decimal.Layout
import InlineCache.Decimal.Numeral
import InlineCache.Decimal.Shortest
import InlineCache.Dispatch.Call
import InlineCache.Dispatch.Resolution
import InlineCache.Main
import InlineCache.Method
import InlineCache.Proofs.Cache.Backing
import InlineCache.Proofs.Cache.Coherence
import InlineCache.Proofs.Cache.Failure
import InlineCache.Proofs.Cache.Occupancy
import InlineCache.Proofs.Cache.Publishing
import InlineCache.Proofs.Cache.Saturation
import InlineCache.Proofs.Cache.Transparency
import InlineCache.Proofs.Chain.Keys
import InlineCache.Proofs.Chain.Publication
import InlineCache.Proofs.Chain.Recall
import InlineCache.Proofs.Chain.Slots
import InlineCache.Proofs.Chain.Walk
import InlineCache.Proofs.Registry.History
import InlineCache.Proofs.Registry.Rollover
import InlineCache.Proofs.Registry.Standing
import InlineCache.Proofs.Registry.Tree
import InlineCache.Proofs.Registry.Validity
import InlineCache.Proofs.Script.Commands
import InlineCache.Proofs.Script.Simulation
import InlineCache.Proofs.Throughout
import InlineCache.Proofs.World.Growth
import InlineCache.Proofs.World.Nesting
import InlineCache.Proofs.World.Routes
import InlineCache.Proofs.World.Sends
import InlineCache.Proofs.World.Sites
import InlineCache.Proofs.World.System
import InlineCache.Proofs.World.Unserved
import InlineCache.Proofs.World.Validity
import InlineCache.Registry
import InlineCache.Report
import InlineCache.Scenario.Literal
import InlineCache.Scenario.Loading
import InlineCache.Scenario.Model
import InlineCache.Scenario.Reading
import InlineCache.Scenario.Render
import InlineCache.Scenario.Run
import InlineCache.Scenario.Stage
import InlineCache.Script.Run
import InlineCache.Script.Session
import InlineCache.Script.Step
import InlineCache.Table
import InlineCache.Text.Blank
import InlineCache.Text.Hidden
import InlineCache.Text.Json
import InlineCache.Text.Quoted
import InlineCache.Token
import InlineCache.Toml.Decode
import InlineCache.Toml.Document
import InlineCache.Toml.Reader
import InlineCache.Toml.Scalar
import InlineCache.Toml.Text
import InlineCache.Toml.Value
import InlineCache.Value
import InlineCache.Value.Display
import InlineCache.World
import InlineCache.World.Flight
import InlineCache.Proofs.World.Validity
import InlineCache.Proofs.Cache.HitRule
import InlineCache.Proofs.Registry.Tables
import InlineCache.Proofs.Cache.Decisions
import InlineCache.Proofs.Cache.Fitness
import InlineCache.Proofs.World.Invocations
import InlineCache.Proofs.Agreement
import InlineCache.Proofs.Scenario.Interpreter
import InlineCache.Proofs.World.Sequential
import InlineCache.Proofs.Scenario.Independence
import InlineCache.Proofs.Scenario.Checking
import InlineCache.Proofs.World.Census
import InlineCache.Proofs.Cache.Accounts
import InlineCache.Proofs.Cache.Buildings
import InlineCache.Proofs.Cache.Copies
import InlineCache.Proofs.Chain.Posting
import InlineCache.Proofs.Cache.Entries
import InlineCache.Proofs.Marks.Registry
import InlineCache.Proofs.Marks.Chain
import InlineCache.Proofs.Marks.World
import InlineCache.Proofs.Marks.Cloning
import InlineCache.Proofs.Registry.Numbering
import InlineCache.Proofs.Registry.Hierarchy
import InlineCache.Proofs.Registry.Definitions
import InlineCache.Proofs.World.Refusals
import InlineCache.Proofs.Decimal.Grammar
import InlineCache.Proofs.Scenario.Literals
import InlineCache.Proofs.Cache.Selection
import InlineCache.Proofs.Scenario.Rereading
import InlineCache.Proofs.Cache.Classes
import InlineCache.Proofs.Scenario.Labels
import InlineCache.Proofs.Scenario.Settings
