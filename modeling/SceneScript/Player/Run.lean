import SceneScript.Analysis.Program
import SceneScript.Player.CommandLine
import SceneScript.Player.FileTree
import SceneScript.Player.Terminal
import SceneScript.Script.Parser

/-!
# The player

The player takes its settings from a file and from the command line, reads a script, and plays it on
the terminal or only checks it.
-/

namespace SceneScript.Player

open SceneScript.CommandLine

set_option autoImplicit false

structure Options where
  script : Option String
  start : Option String
  config : String
  check : Bool
deriving DecidableEq

namespace Options

def help : String :=
  "在终端中播放场景脚本\n\n"
    ++ "Usage: scene-player [OPTIONS] [SCRIPT]\n\n"
    ++ "Arguments:\n"
    ++ "  [SCRIPT]  脚本文件路径（覆盖配置文件中的 script_path）\n\n"
    ++ "Options:\n"
    ++ "  -s, --start <START>    入口场景（覆盖配置文件中的 start_scene）\n"
    ++ "  -c, --config <CONFIG>  配置文件路径 [default: config.json]\n"
    ++ "      --check            只做静态检查，不播放\n"
    ++ "  -v, --verbose...       日志详细程度（-v info，-vv debug，-vvv trace）\n"
    ++ "  -h, --help             Print help\n"
    ++ "  -V, --version          Print version\n"

def version : String :=
  "scene-player 0.1.0\n"

/-- At most one operand, the script; the path of the settings may not be empty. -/
def form : Form where
  options :=
    [⟨"start", some 's', .value true⟩, ⟨"config", some 'c', .value false⟩, ⟨"check", none, .flag⟩,
      ⟨"verbose", some 'v', .counter⟩, ⟨"help", some 'h', .notice help⟩,
      ⟨"version", some 'V', .notice version⟩]
  operands := 1

def read (arguments : List String) : Reading Options :=
  (form.read arguments).map fun found =>
    { script := found.operands.head?
      start := found.value? "start"
      config := (found.value? "config").getD "config.json"
      check := found.has "check" }

end Options

inductive Failure where
  | config (error : ConfigError)
  | unreadable (path : String) (error : ReadError)
  | script (path : String) (error : ParseError)
  | check (errors : Nat)
  | story (error : StoryError)
  | terminal (fault : StreamFault)
deriving DecidableEq

namespace Failure

/-- What failed, and the cause if it is told apart. -/
def parts : Failure → String × Option String
  | config error => (error.message, none)
  | unreadable path error => ("无法读取脚本: " ++ path, some error.message)
  | script path error => ("脚本解析失败: " ++ path, some error.message)
  | check errors => ("检查发现 " ++ toString errors ++ " 个错误", none)
  | story error => (error.message, none)
  | terminal fault => ("终端读写失败", some fault.message)

def indent (text : String) : String :=
  "    " ++ "\n    ".intercalate ((text.toList.splitOn '\n').map String.ofList)

def report (failure : Failure) : String :=
  let (context, cause) := failure.parts
  "Error: " ++ context ++ (cause.elim "" fun cause => "\n\nCaused by:\n" ++ indent cause) ++ "\n"

end Failure

/--
What a run of the player leaves: its output, why it failed, if it did, and whether it ended at a menu
because there was no more input.
-/
structure Result where
  output : List UInt8
  failure : Option Failure
  starved : Bool
deriving DecidableEq

def Result.failed (output : List UInt8) (failure : Failure) : Result where
  output := output
  failure := some failure
  starved := false

/-- The settings that hold: the command line goes before the settings file. -/
def settings (tree : FileTree) (options : Options) : Config :=
  let config := Config.load (tree.read options.config).toOption
  { config with
    scriptPath := options.script.getD config.scriptPath
    startScene := options.start.getD config.startScene }

def outputLines (lines : List String) : List UInt8 :=
  lines.flatMap fun line => Text.encode (line.toList ++ ['\n'])

def check (program : Program) (entry : String) : Result :=
  let report := program.check entry
  let found := (report.atLeast .info).map Diagnostic.render
  if report.hasErrors then
    .failed (outputLines found) (.check report.errorCount)
  else
    let passed := "检查通过：" ++ toString program.scenes.size ++ " 个场景，"
      ++ toString report.warnCount ++ " 个警告"
    ⟨outputLines (found ++ [passed]), none, false⟩

def play (config : Config) (program : Program) (input : List UInt8) : Result :=
  let played := (Session.new program).play config.startScene (Terminal.host config Buffer.sink)
    (Terminal.new input (Buffer.new none))
  let output := played.host.output.bytes.toList
  match played.outcome with
  | .error error => .failed output (.story error)
  | .ok ending =>
    let failure := played.host.fault.map .terminal
    ⟨output, failure, ending = .abandoned && failure.isNone⟩

def run (tree : FileTree) (options : Options) (input : List UInt8) : Result :=
  let config := settings tree options
  match config.validate with
  | .error error => .failed [] (.config error)
  | .ok () =>
    match tree.readText config.scriptPath with
    | .error error => .failed [] (.unreadable config.scriptPath error)
    | .ok text =>
      match (Program.parse text).result with
      | .error error => .failed [] (.script config.scriptPath error)
      | .ok program =>
        if options.check then check program config.startScene else play config program input

end SceneScript.Player
