import SceneScript.Player.CommandLine
import SceneScript.Player.ScriptCheck

/-!
# The tasks of the maintenance tool

The first argument names a task, and the others belong to it. Only the script check is done by this
library. The other tasks run programs of their own; they are known by name, so that help can be
asked for and superfluous arguments are refused.
-/

namespace SceneScript.Task

open SceneScript.CommandLine

set_option autoImplicit false

inductive Request where
  | checkScripts (options : ScriptCheck.Options)
  | elsewhere (task : String)
deriving DecidableEq

def elsewhere : List String :=
  ["check-all", "cov-runtime", "cov-workspace"]

def overview : String :=
  "Usage: xtask <COMMAND>\n\nCommands:\n"
    ++ String.join ((elsewhere ++ ["script-check", "help"]).map fun name => "  " ++ name ++ "\n")

def usage (task : String) : String :=
  "Usage: xtask " ++ task ++ "\n"

def withHelp (text : String) (options : List OptionSpec) (operands : Nat) : Form where
  options := options ++ [⟨"help", some 'h', .notice text⟩]
  operands := operands

def checkForm : Form :=
  withHelp (usage "script-check [OPTIONS] [PATH]") [⟨"entry", none, .value true⟩] 1

def readCheck (arguments : List String) : Reading Request :=
  (checkForm.read arguments).map fun found =>
    .checkScripts ⟨found.operands.head?, (found.value? "entry").getD "CH0"⟩

def readHelp : List String → Reading Request
  | [] => .notice overview
  | [topic] =>
    if topic = "script-check" || topic = "help" || elsewhere.contains topic then
      .notice (usage topic)
    else
      .misuse
  | _ => .misuse

/-- Without a task only help can be asked for. -/
def readOverview (arguments : List String) : Reading Request :=
  match (withHelp overview [] 0).read arguments with
  | .notice text => .notice text
  | _ => .misuse

def read (arguments : List String) : Reading Request :=
  match arguments with
  | "script-check" :: rest => readCheck rest
  | "help" :: rest => readHelp rest
  | name :: rest =>
    if elsewhere.contains name then
      ((withHelp (usage name) [] 0).read rest).map fun _ => .elsewhere name
    else
      readOverview arguments
  | [] => .misuse

end SceneScript.Task
