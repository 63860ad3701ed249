import SceneScript.Player.Run
import SceneScript.Player.Task

/-!
# The command line

The outer layer: it reads files and standard input, calls the library, and writes what it gives.
With `xtask` as the first argument the others name a task of the maintenance tool; the paths of the
files that a script check looks at come from standard input, one a line. Anything else plays a story.
-/

namespace SceneScript.Shell

set_option autoImplicit false

/-- The content of a file; nothing for a directory. -/
def readEntry (path : String) : IO (Option (List UInt8)) := do
  try
    return some (← IO.FS.readBinFile path).toList
  catch
    | .inappropriateType .. => return none
    | error => throw error

def readTree (paths : List String) : IO FileTree := do
  let mut files := #[]
  for path in paths do
    try
      files := files.push (path, ← readEntry path)
    catch _ =>
      pure ()
  return .ofFiles files.toList

/-- Reads up to and with the next line feed, or to the end of the input. -/
partial def readLine (input : IO.FS.Stream) (line : ByteArray) : IO ByteArray := do
  let byte ← input.read 1
  if byte.isEmpty then
    return line
  let line := line ++ byte
  if byte.get! 0 == 10 then return line else readLine input line

/-- Plays with the input so far, shows what is new, and reads on as long as a menu is open. -/
partial def playOn (tree : FileTree) (options : Player.Options) (received : List UInt8)
    (shown : Nat) : IO UInt32 := do
  let result := Player.run tree options received
  let output ← IO.getStdout
  output.write (result.output.drop shown).toByteArray
  output.flush
  if result.starved then
    let line ← readLine (← IO.getStdin) ByteArray.empty
    if !line.isEmpty then
      return ← playOn tree options (received ++ line.toList) result.output.length
  match result.failure with
  | none => return 0
  | some failure =>
    IO.eprint failure.report
    return 1

def play (options : Player.Options) : IO UInt32 := do
  let settings ← readTree [options.config]
  let tree ← readTree [options.config, (Player.settings settings options).scriptPath]
  playOn tree options [] 0

partial def readPaths (input : IO.FS.Stream) (paths : Array String) : IO (List String) := do
  let line ← input.getLine
  if line.isEmpty then return paths.toList
  readPaths input (paths.push (line.trimAsciiEnd.toString))

def checkScripts (options : ScriptCheck.Options) : IO UInt32 := do
  let tree ← readTree (← readPaths (← IO.getStdin) #[])
  let result := ScriptCheck.run tree options
  for line in result.lines do
    IO.eprintln line
  return if result.failed then 1 else 0

def perform : Task.Request → IO UInt32
  | .checkScripts options => checkScripts options
  | .elsewhere task => do
    IO.eprintln ("not available here: " ++ task)
    return 1

def answer {α : Type} (perform : α → IO UInt32) : CommandLine.Reading α → IO UInt32
  | .request value => perform value
  | .notice text => do
    IO.print text
    return 0
  | .misuse => do
    IO.eprintln "error: the arguments do not fit; try --help"
    return 2

def run (arguments : List String) : IO UInt32 :=
  match arguments with
  | "xtask" :: rest => answer perform (Task.read rest)
  | _ => answer play (Player.Options.read arguments)

end SceneScript.Shell

def main (arguments : List String) : IO UInt32 :=
  SceneScript.Shell.run arguments
