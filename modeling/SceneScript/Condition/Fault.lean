import SceneScript.Condition.Token

/-!
# Faults of a condition

A text fails to be a condition because of a character that no token has, because of its structure,
or because of tokens behind a complete condition.
-/

namespace SceneScript.Condition

set_option autoImplicit false

/--
A token may lie under at most this many parentheses and `not`s together, and a condition may be at
most this high.
-/
def depthLimit : Nat := 64

inductive Flaw where
  | unexpectedEnd
  | missingClosing
  | missingName
  | unexpectedToken (token : Token)
  | tooDeep
deriving DecidableEq

inductive Fault where
  | badCharacter (c : Char)
  | malformed (flaw : Flaw)
  | trailing (rest : List Token)
deriving DecidableEq

def Flaw.message : Flaw → String
  | unexpectedEnd => "表达式意外结束"
  | missingClosing => "缺少右括号 ')'"
  | missingName => "'has' 之后缺少标识符"
  | unexpectedToken token => "意外的 token '" ++ token.text ++ "'"
  | tooDeep => "表达式嵌套超过 " ++ toString depthLimit ++ " 层"

def Fault.message : Fault → String
  | badCharacter c => "条件表达式中的非法字符 '" ++ c.toString ++ "'"
  | malformed flaw => "无效的条件表达式 - " ++ flaw.message
  | trailing rest => "条件表达式末尾存在多余内容: '" ++ Token.showAll rest ++ "'"

end SceneScript.Condition
