/-!
# Errors of a running story
-/

namespace SceneScript

set_option autoImplicit false

inductive StoryError where
  | invalidChoice (index max : Nat)
  | noMenu (index : Nat)
  | notStarted
  | transferLoop (scene : String) (limit : Nat)
deriving DecidableEq

def StoryError.message : StoryError → String
  | invalidChoice index max =>
    "无效的选择索引 " ++ toString index ++ "，有效范围是 0.." ++ toString max
  | noMenu index => "当前状态不允许此操作：期望 未决的选择菜单，实际 选择 " ++ toString index
  | notStarted => "运行时尚未启动任何场景"
  | transferLoop scene limit =>
    "场景 '" ++ scene ++ "' 附近连续跳转超过 " ++ toString limit ++ " 次，疑似死循环"

end SceneScript
