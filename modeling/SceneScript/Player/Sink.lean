/-!
# Output that may fail

A sink takes bytes. A write that succeeds adds exactly the bytes that were offered; one that fails
adds some leading part of them.
-/

namespace SceneScript

set_option autoImplicit false

structure StreamFault where
  message : String
deriving DecidableEq

namespace StreamFault

def limitReached : StreamFault where
  message := "output limit reached"

def notUtf8 : StreamFault where
  message := "stream did not contain valid UTF-8"

end StreamFault

structure Sink (τ : Type) where
  write : List UInt8 → τ → Option StreamFault × τ
  flush : τ → Option StreamFault × τ
  written : τ → List UInt8
  written_ok : ∀ (bytes : List UInt8) (state : τ), (write bytes state).1 = none →
    written (write bytes state).2 = written state ++ bytes
  written_fault : ∀ (bytes : List UInt8) (state : τ), (write bytes state).1 ≠ none →
    ∃ kept, kept <+: bytes ∧ written (write bytes state).2 = written state ++ kept
  written_flush : ∀ (state : τ), written (flush state).2 = written state

/-- Bytes that were written, and how many may be written in total. -/
structure Buffer where
  bytes : Array UInt8
  limit : Option Nat
deriving DecidableEq

namespace Buffer

def new (limit : Option Nat) : Buffer where
  bytes := #[]
  limit := limit

/-- The leading part of the bytes that fits. -/
def accept (buffer : Buffer) (bytes : List UInt8) : List UInt8 :=
  match buffer.limit with
  | none => bytes
  | some limit => bytes.take (limit - buffer.bytes.size)

def write (bytes : List UInt8) (buffer : Buffer) : Option StreamFault × Buffer :=
  (if buffer.accept bytes = bytes then none else some .limitReached,
    { buffer with bytes := buffer.bytes ++ buffer.accept bytes })

theorem accept_isPrefix (buffer : Buffer) (bytes : List UInt8) : buffer.accept bytes <+: bytes := by
  unfold accept
  split
  · exact List.prefix_refl _
  · exact List.take_prefix _ _

def sink : Sink Buffer where
  write := write
  flush buffer := (none, buffer)
  written buffer := buffer.bytes.toList
  written_ok bytes buffer fits := by
    have whole : buffer.accept bytes = bytes := by
      by_cases same : buffer.accept bytes = bytes
      · exact same
      · simp [write, same] at fits
    simp [write, whole]
  written_fault bytes buffer _ := ⟨buffer.accept bytes, accept_isPrefix _ _, by simp [write]⟩
  written_flush _ := rfl

end Buffer

end SceneScript
