import SceneScript.Analysis.Program
import SceneScript.Player.FileTree
import SceneScript.Script.Parser

/-!
# Checking script files

Checks one script or all scripts below a directory, each by itself, and lists images that no file is
there for. An image is looked for from the directory of its script.
-/

namespace SceneScript.ScriptCheck

set_option autoImplicit false

def scriptEnding : String := "csl"

structure Options where
  path : Option String
  entry : String
deriving DecidableEq

/-- Whether a name has the ending of a script; a name that is nothing but the ending has none. -/
def isScriptName (name : String) : Bool :=
  let parts := name.toList.splitOn '.'
  parts.getLast? == some scriptEnding.toList && ['.'].intercalate parts.dropLast ≠ []

structure MissingImage where
  file : String
  scene : String
  path : String
deriving DecidableEq

def MissingImage.render (missing : MissingImage) : String :=
  "[WARN] " ++ missing.file ++ ": scene " ++ missing.scene ++ " 引用的图片不存在: " ++ missing.path

/-- What checking scripts found: the lines about them, and the counts for the summary. -/
structure Findings where
  lines : List String
  errors : Nat
  warnings : Nat
  missing : List MissingImage
deriving DecidableEq

namespace Findings

def none : Findings where
  lines := []
  errors := 0
  warnings := 0
  missing := []

def append (first second : Findings) : Findings where
  lines := first.lines ++ second.lines
  errors := first.errors + second.errors
  warnings := first.warnings + second.warnings
  missing := first.missing ++ second.missing

def ofError (file message : String) : Findings :=
  { none with lines := ["[ERROR] " ++ file ++ ": " ++ message], errors := 1 }

end Findings

def missingImages (tree : FileTree) (file : String) (program : Program) : List MissingImage :=
  (program.imageReferences.filter fun (_, path) =>
    !tree.has (joinPath (parentPath file) path)).map fun (scene, path) => ⟨file, scene, path⟩

def checkFile (tree : FileTree) (entry : String) (file : String) : Findings :=
  match tree.readText file with
  | .error error => .ofError file ("无法读取文件 - " ++ error.message)
  | .ok text =>
    let outcome := Program.parse text
    match outcome.result with
    | .error error => .ofError file error.message
    | .ok program =>
      let report := program.check entry
      { lines :=
          outcome.warnings.map (fun warning => "[WARN] " ++ file ++ ": " ++ warning.message)
            ++ (report.atLeast .info).map fun diagnostic => file ++ ": " ++ diagnostic.render
        errors := report.errorCount
        warnings := report.warnCount + outcome.warnings.length
        missing := missingImages tree file program }

inductive Refusal where
  | missing (path : String)
  | unwalkable (path directory : String) (error : ReadError)
deriving DecidableEq

def Refusal.message : Refusal → String
  | missing path => "路径不存在: " ++ path ++ "\n请在 workspace 根目录运行，或指定脚本路径"
  | unwalkable path directory error =>
    "遍历目录失败: " ++ path ++ ": IO error for operation on " ++ directory ++ ": "
      ++ error.message ++ ": " ++ error.message

/-- The scripts among entries below a path; a directory that cannot be opened ends the walk. -/
def scriptsAmong (tree : FileTree) (path : String) :
    List (List String × FileTree.Entry) → Except Refusal (List String)
  | [] => .ok []
  | (names, entry) :: rest =>
    let whole := joinPath path ("/".intercalate names)
    match entry with
    | .file _ =>
      (scriptsAmong tree path rest).map fun others =>
        if names.getLast?.any isScriptName then whole :: others else others
    | .directory =>
      match tree.find whole with
      | .error error => .error (.unwalkable path whole error)
      | .ok _ => scriptsAmong tree path rest

def scriptFiles (tree : FileTree) (path : String) : Except Refusal (List String) :=
  match tree.find path with
  | .error _ => .error (.missing path)
  | .ok (_, .file _) => .ok [path]
  | .ok (place, .directory) => scriptsAmong tree path (tree.below place)

def rule : String :=
  String.ofList (List.replicate 53 '─')

def verdict (errors warnings : Nat) : String :=
  if 0 < errors then "❌ " ++ toString errors ++ " 个错误, " ++ toString warnings ++ " 个警告"
  else if 0 < warnings then "⚠️  0 个错误, " ++ toString warnings ++ " 个警告"
  else "✅ 检查通过，无错误"

def summary (count : Nat) (findings : Findings) : List String :=
  [rule, "检查完成: " ++ toString count ++ " 个脚本", ""]
    ++ findings.missing.map MissingImage.render
    ++ ["", verdict findings.errors (findings.warnings + findings.missing.length)]

structure Result where
  lines : List String
  failed : Bool
deriving DecidableEq

def failureLine (message : String) : String :=
  "xtask error: " ++ message

def run (tree : FileTree) (options : Options) : Result :=
  let path := options.path.getD "scripts"
  match scriptFiles tree path with
  | .error refusal => ⟨[failureLine refusal.message], true⟩
  | .ok [] => ⟨["未找到脚本文件（." ++ scriptEnding ++ "）"], false⟩
  | .ok files =>
    let findings := files.foldl
      (fun findings file => findings.append (checkFile tree options.entry file)) .none
    let failed := 0 < findings.errors
    ⟨["==> 检查 " ++ toString files.length ++ " 个脚本文件...", ""] ++ findings.lines
        ++ summary files.length findings
        ++ (if failed then [failureLine "脚本检查发现错误"] else []),
      failed⟩

end SceneScript.ScriptCheck
