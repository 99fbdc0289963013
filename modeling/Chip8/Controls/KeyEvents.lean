import Chip8.Controls
import Chip8.Keymap

namespace Chip8

inductive KeyEvent where
  | quit
  | down (hostKey : Int)
  | up (hostKey : Int)
  | other
deriving DecidableEq

/-- A mapped key is down from its key-down event to its key-up event. -/
structure KeyEvents where
  keymap : Keymap
  held : KeyStates
deriving DecidableEq

namespace KeyEvents

def escape : Int := 27

def start (keymap : Keymap) : KeyEvents :=
  ⟨keymap, Vector.replicate 16 false⟩

def setHeld (k : KeyEvents) (hostKey : Int) (held : Bool) : KeyEvents :=
  match k.keymap.key? hostKey with
  | some key => { k with held := k.held.setIfInBounds key.val held }
  | none => k

def handle (k : KeyEvents) : KeyEvent → Bool × KeyEvents
  | .quit => (true, k)
  | .down hostKey => (false, k.setHeld hostKey true)
  | .up hostKey => if hostKey = escape then (true, k) else (false, k.setHeld hostKey false)
  | .other => (false, k)

/-- All events of a batch are handled, also those after one that stops the program. -/
def poll : List KeyEvent → KeyEvents → Bool × KeyEvents
  | [], k => (false, k)
  | event :: events, k =>
    let (stop, k) := k.handle event
    let (stopLater, k) := poll events k
    (stop || stopLater, k)

end KeyEvents

end Chip8
