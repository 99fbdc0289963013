import Chip8.Palette
import Chip8.Size

namespace Chip8.Display

inductive Error where
  | noScale
  /-- No text is as long as a pixel would be wide. -/
  | scale (e : Size.Error)
  | noPalette
  | palette (e : Palette.Error)
deriving DecidableEq

def Error.message : Error → String
  | .noScale => "The scale has no value."
  | .scale e => e.message
  | .noPalette => "The palette has no value."
  | .palette e => e.message

inductive Fault where
  /-- There is nothing to draw on before the first resolution. -/
  | noResolution
  /-- No text is as long as the title line. -/
  | titleLine (e : Size.Error)
deriving DecidableEq

def Fault.message : Fault → String
  | .noResolution => "The display has no resolution."
  | .titleLine e => e.message

end Chip8.Display
