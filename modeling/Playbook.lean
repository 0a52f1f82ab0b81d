import Playbook.Calendar.Date
import Playbook.Calendar.Fields
import Playbook.Calendar.Format
import Playbook.Calendar.Moment
import Playbook.Calendar.Parts
import Playbook.Calendar.Pattern
import Playbook.Calendar.Scan
import Playbook.Calendar.Shift
import Playbook.Coercion
import Playbook.Collection
import Playbook.CommandLine.Arguments
import Playbook.CommandLine.Run
import Playbook.Data
import Playbook.Entries
import Playbook.File.Local
import Playbook.File.Path
import Playbook.File.Problem
import Playbook.File.Tree
import Playbook.Interpolator
import Playbook.Json.Basic
import Playbook.Json.Numeral
import Playbook.Json.Printer
import Playbook.Json.Reader
import Playbook.Json.Record
import Playbook.Json.Written
import Playbook.Kind
import Playbook.Main
import Playbook.Number.Binary
import Playbook.Number.Decimal
import Playbook.Number.Shortest
import Playbook.Number.Whole
import Playbook.Options
import Playbook.Placeholder
import Playbook.Proofs.Absence
import Playbook.Proofs.Assertions
import Playbook.Proofs.Commutation
import Playbook.Proofs.Composition
import Playbook.Proofs.DayCount
import Playbook.Proofs.Decimals
import Playbook.Proofs.DefaultPatterns
import Playbook.Proofs.Dictionary
import Playbook.Proofs.Drawing
import Playbook.Proofs.EntriesMap
import Playbook.Proofs.Exhaustion
import Playbook.Proofs.Expansion
import Playbook.Proofs.Failure
import Playbook.Proofs.FileCreation
import Playbook.Proofs.FileFinding
import Playbook.Proofs.FileText
import Playbook.Proofs.FirstFailure
import Playbook.Proofs.GeneratedData
import Playbook.Proofs.Growth
import Playbook.Proofs.Interleaving
import Playbook.Proofs.Isolation
import Playbook.Proofs.JsonReading
import Playbook.Proofs.JsonRecords
import Playbook.Proofs.JsonText
import Playbook.Proofs.Lifecycle
import Playbook.Proofs.Loading
import Playbook.Proofs.Location
import Playbook.Proofs.MomentText
import Playbook.Proofs.Noninterference
import Playbook.Proofs.NumberKind
import Playbook.Proofs.Operation
import Playbook.Proofs.Outcome
import Playbook.Proofs.Output
import Playbook.Proofs.PassDepth
import Playbook.Proofs.Passthrough
import Playbook.Proofs.Pieces
import Playbook.Proofs.RandomWords
import Playbook.Proofs.Reference
import Playbook.Proofs.Refusal
import Playbook.Proofs.Rereading
import Playbook.Proofs.SavedFiles
import Playbook.Proofs.Scanning
import Playbook.Proofs.ScenarioText
import Playbook.Proofs.Segments
import Playbook.Proofs.Settling
import Playbook.Proofs.Shifting
import Playbook.Proofs.Spelling
import Playbook.Proofs.Splitting
import Playbook.Proofs.Stability
import Playbook.Proofs.StepEffect
import Playbook.Proofs.StoreUpdate
import Playbook.Proofs.Substitution
import Playbook.Proofs.TurnTaking
import Playbook.Proofs.TypedCells
import Playbook.Proofs.UnbiasedDraws
import Playbook.Proofs.Unescaped
import Playbook.Proofs.ValueText
import Playbook.Proofs.Verdict
import Playbook.Proofs.WellKinded
import Playbook.Proofs.WordCount
import Playbook.Random
import Playbook.Scenario.Basic
import Playbook.Scenario.Batch
import Playbook.Scenario.Error
import Playbook.Scenario.Run
import Playbook.Scenario.Source
import Playbook.Scope
import Playbook.Step.Call
import Playbook.Step.Document
import Playbook.Step.Error
import Playbook.Step.Run
import Playbook.Step.Services
import Playbook.Step.Table
import Playbook.Text.Blank
import Playbook.Text.Search
import Playbook.TextCheck
import Playbook.Value
import Playbook.Value.Document
import Playbook.VariableError
import Playbook.Variables
import Playbook.Wording
import Playbook.Xml.Character
import Playbook.Xml.Document
import Playbook.Xml.Markup
