import SceneScript.Condition.Fault

/-!
# Faults of a script

An error ends reading; a warning is recorded and reading goes on. Both name the line they are about.
-/

namespace SceneScript

set_option autoImplicit false

inductive Keyword where
  | scene
  | print
  | image
  | go
  | set
  | unset
  | add
  | remove
  | background
  | foreground
  | font
  | fontSize
  | choice
  | branch
  | otherwise
  | done
deriving DecidableEq

namespace Keyword

def text : Keyword → String
  | scene => "scene"
  | print => "print"
  | image => "image"
  | go => "go"
  | set => "set"
  | unset => "unset"
  | add => "add"
  | remove => "remove"
  | background => "background"
  | foreground => "foreground"
  | font => "font"
  | fontSize => "fontsize"
  | choice => "choice"
  | branch => "if"
  | otherwise => "else"
  | done => "end"

def inScene : List Keyword :=
  [print, image, go, set, unset, add, remove, background, foreground, font, fontSize, choice,
    branch, otherwise, done]

end Keyword

inductive Argument where
  | sceneId
  | quoted
  | name
  | color
  | font
  | fontSize
  | thenWord
deriving DecidableEq

def Argument.text : Argument → String
  | sceneId => "场景 id"
  | quoted => "字符串"
  | name => "标识符"
  | color => "颜色"
  | font => "字体"
  | fontSize => "字号"
  | thenWord => "then"

inductive ParseError.Cause where
  | unterminated
  | missingArgument (keyword : Keyword) (argument : Argument)
  | invalidNumber (word : String)
  | condition (fault : Condition.Fault)
deriving DecidableEq

structure ParseError where
  line : Nat
  cause : ParseError.Cause
deriving DecidableEq

/-- Every message about a line starts with its number. -/
def atLine (line : Nat) (message : String) : String :=
  "第 " ++ toString line ++ " 行：" ++ message

def ParseError.Cause.message : ParseError.Cause → String
  | unterminated => "字符串未闭合"
  | missingArgument keyword argument =>
    "指令 '" ++ keyword.text ++ "' 缺少参数 '" ++ argument.text ++ "'"
  | invalidNumber word => "无效的整数 '" ++ word ++ "'"
  | condition fault => fault.message

def ParseError.message (error : ParseError) : String :=
  atLine error.line error.cause.message

inductive Warning.Notice where
  | outsideScene (text : String)
  | afterThen (text : String)
  | stray (keyword : Keyword)
  | unknown (text : String)
  | missingEnd (keyword : Keyword)
  | duplicate (id : String)
deriving DecidableEq

structure Warning where
  line : Nat
  notice : Warning.Notice
deriving DecidableEq

def Warning.Notice.message : Warning.Notice → String
  | outsideScene text => "场景之外的内容，已忽略: " ++ text
  | afterThen text => "'then' 之后的内容被忽略: " ++ text
  | stray keyword => "多余的 '" ++ keyword.text ++ "'，已跳过"
  | unknown text => "无法识别的指令，已跳过: " ++ text
  | missingEnd keyword => "'" ++ keyword.text ++ "' 块缺少 'end'，在场景或输入结束处自动闭合"
  | duplicate id => "场景 '" ++ id ++ "' 重复定义，覆盖之前的定义"

def Warning.message (warning : Warning) : String :=
  atLine warning.line warning.notice.message

end SceneScript
