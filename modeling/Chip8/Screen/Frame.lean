import Chip8.Display.Event
import Chip8.Screen

namespace Chip8.Screen

variable {width height : Nat}

def changes (shown now : Screen width height) : List Display.Event :=
  (List.finRange (width * height)).filterMap fun a =>
    if shown.cells[a.val] = now.cells[a.val] then none
    else some (.pixel (a.val % width : Nat) (a.val / width : Nat) now.cells[a.val])

/-- The events of one frame: the changed pixels, and then whether there were any. -/
def frame (shown now : Screen width height) : List Display.Event :=
  let pixels := shown.changes now
  pixels ++ [.refresh (!pixels.isEmpty)]

structure View (width height : Nat) where
  screen : Screen width height
  shown : Screen width height
deriving DecidableEq

namespace View

def start (screen : Screen width height) : View width height × List Display.Event :=
  (⟨screen, .blank _ _⟩, [.resolution width height])

def refresh (v : View width height) : View width height × List Display.Event :=
  ({ v with shown := v.screen }, v.shown.frame v.screen)

end View

end Chip8.Screen
