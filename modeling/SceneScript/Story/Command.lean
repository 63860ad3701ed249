import SceneScript.State.Basic

/-!
# Commands

What a story asks to be shown, in order. Texts and labels are literal or keys to be looked up.
-/

namespace SceneScript

set_option autoImplicit false

inductive Command where
  | showText (content : String)
  | showImage (path : String)
  | clearTransient
  | applyStyle (style : Style)
  | presentChoices (labels : List String)
deriving DecidableEq

/-- The effect of an action on the state, and what it shows. -/
def Action.perform (state : State) : Action → State × List Command
  | print text => (state, [.showText text])
  | image source => (state, [.showImage source])
  | setFlag name => ({ state with game := state.game.setFlag name }, [])
  | unsetFlag name => ({ state with game := state.game.unsetFlag name }, [])
  | addItem name => ({ state with game := state.game.addItem name }, [])
  | removeItem name => ({ state with game := state.game.removeItem name }, [])
  | style change =>
    let style := state.style.apply change
    ({ state with style := style }, [.applyStyle style])

end SceneScript
