import SceneScript.Analysis.Diagnostic
import SceneScript.Analysis.Program
import SceneScript.Codec.Script
import SceneScript.Codec.Story
import SceneScript.Condition.Basic
import SceneScript.Condition.Fault
import SceneScript.Condition.Parser
import SceneScript.Condition.Token
import SceneScript.Json.Basic
import SceneScript.Json.Parser
import SceneScript.Json.Printer
import SceneScript.Json.Token
import SceneScript.Main
import SceneScript.Player.CommandLine
import SceneScript.Player.Config
import SceneScript.Player.FileTree
import SceneScript.Player.Path
import SceneScript.Player.Run
import SceneScript.Player.ScriptCheck
import SceneScript.Player.Sink
import SceneScript.Player.Task
import SceneScript.Player.Terminal
import SceneScript.Proofs.Condition.Acceptance
import SceneScript.Proofs.Condition.Grammar
import SceneScript.Proofs.Condition.Rendering
import SceneScript.Proofs.Condition.Scanning
import SceneScript.Proofs.Script.Index
import SceneScript.Proofs.Script.Printer
import SceneScript.Proofs.Script.Rereading
import SceneScript.Proofs.Script.RoundTrip
import SceneScript.Proofs.Script.Tidy
import SceneScript.Proofs.Story.Reachability
import SceneScript.Proofs.Story.Steps
import SceneScript.Proofs.Story.Telling
import SceneScript.Proofs.Text.Numeral
import SceneScript.Proofs.Text.Words
import SceneScript.Script.Error
import SceneScript.Script.Line
import SceneScript.Script.Nest
import SceneScript.Script.Parser
import SceneScript.Script.Program
import SceneScript.Script.Reading
import SceneScript.Script.Statement
import SceneScript.State.Basic
import SceneScript.State.NameSet
import SceneScript.Story.Command
import SceneScript.Story.Error
import SceneScript.Story.Host
import SceneScript.Story.Load
import SceneScript.Story.Machine
import SceneScript.Story.Menu
import SceneScript.Story.Recorder
import SceneScript.Story.Session
import SceneScript.Text.Ascii
import SceneScript.Text.Blank
import SceneScript.Text.Lines
import SceneScript.Text.Numeral
import SceneScript.Text.Quoted
import SceneScript.Text.Utf8
import SceneScript.Proofs.Story.Refusals
import SceneScript.Proofs.Story.Itinerary
import SceneScript.Proofs.Story.Coverage
import SceneScript.Proofs.Analysis.Findings
import SceneScript.Proofs.Analysis.Soundness
import SceneScript.Proofs.Analysis.Pruning
import SceneScript.Proofs.Story.Batches
import SceneScript.Proofs.Story.PrunedPlay
import SceneScript.Proofs.Script.Insertion
import SceneScript.Proofs.Script.Numbering
import SceneScript.Proofs.Script.Sections
import SceneScript.Proofs.Script.Faults
import SceneScript.Proofs.Script.Preorder
import SceneScript.Proofs.Script.Shifting
import SceneScript.Proofs.Script.Joining
import SceneScript.Proofs.Story.Restart
import SceneScript.Proofs.Story.MenuRegion
import SceneScript.Proofs.Story.TransferLimit
import SceneScript.Proofs.Story.Rounds
import SceneScript.Proofs.Story.Playing
import SceneScript.Proofs.Player.Answers
import SceneScript.Proofs.Condition.Limits
import SceneScript.Proofs.Script.Literals
import SceneScript.Proofs.Script.Fates
import SceneScript.Proofs.Script.Balance
import SceneScript.Proofs.Script.Accounting
import SceneScript.Proofs.Script.Comments
import SceneScript.Proofs.Script.Representation
import SceneScript.Proofs.Analysis.Reporting
import SceneScript.Proofs.Analysis.Images
import SceneScript.Proofs.Story.Turns
import SceneScript.Proofs.Story.Once
import SceneScript.Proofs.Story.StyleMirror
import SceneScript.Proofs.Story.Nesting
import SceneScript.Proofs.Story.Serving
import SceneScript.Proofs.Player.Truncation
import SceneScript.Proofs.Player.Selection
import SceneScript.Proofs.Codec.Story
import SceneScript.Proofs.Script.Branches
import SceneScript.Proofs.Player.Entry
import SceneScript.Proofs.Condition.Lexing
import SceneScript.Proofs.Script.Headers
import SceneScript.Proofs.Script.FontSizes
