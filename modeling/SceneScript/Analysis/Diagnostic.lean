/-!
# Diagnostics

A diagnostic is a remark about a scene, at a line if one is known. Line zero stands for no line.
-/

namespace SceneScript

set_option autoImplicit false

inductive Level where
  | info
  | warn
  | error
deriving DecidableEq

namespace Level

def text : Level → String
  | info => "INFO"
  | warn => "WARN"
  | error => "ERROR"

def rank : Level → Nat
  | info => 0
  | warn => 1
  | error => 2

end Level

structure Diagnostic where
  level : Level
  scene : String
  line : Option Nat
  message : String
  detail : Option String
deriving DecidableEq

/-- A line number, unless it is zero. -/
def knownLine (line : Nat) : Option Nat :=
  if line = 0 then none else some line

namespace Diagnostic

def render (diagnostic : Diagnostic) : String :=
  "[" ++ diagnostic.level.text ++ "] scene " ++ diagnostic.scene
    ++ (diagnostic.line.elim "" fun line => " (第 " ++ toString line ++ " 行)")
    ++ ": " ++ diagnostic.message
    ++ (diagnostic.detail.elim "" fun detail => "\n  | " ++ detail)

end Diagnostic

abbrev Report : Type := List Diagnostic

namespace Report

def count (report : Report) (level : Level) : Nat :=
  report.countP fun diagnostic => diagnostic.level = level

def errorCount (report : Report) : Nat :=
  report.count .error

def warnCount (report : Report) : Nat :=
  report.count .warn

def hasErrors (report : Report) : Bool :=
  report.errorCount > 0

def atLeast (report : Report) (level : Level) : Report :=
  report.filter fun diagnostic => level.rank ≤ diagnostic.level.rank

end Report

end SceneScript
