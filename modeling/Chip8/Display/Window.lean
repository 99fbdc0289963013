import Chip8.Argument
import Chip8.Banner
import Chip8.Byte
import Chip8.Display.Error
import Chip8.Display.Event

namespace Chip8.Display

structure Colour where
  red : UInt8
  green : UInt8
  blue : UInt8
deriving DecidableEq

def Colour.ofCode (code : Int) : Colour :=
  ⟨Byte.low (code / 0x10000), Byte.low (code / 0x100), Byte.low code⟩

/-- Surfaces are numbered in the order of making. -/
inductive WindowCall where
  | initDisplay
  | setMode (width height : Int)
  | setCaption (text : String)
  | newSurface (surface : Nat) (width height : Int)
  | fill (surface : Nat) (colour : Colour)
  | fillCell (surface : Nat) (colour : Colour) (x y width height : Int)
  /-- A new surface of twice the width and height. -/
  | double (source target : Nat) (width height : Int)
  | stretch (source target : Nat) (width height : Int)
  /-- Copies a surface to a place in the window. -/
  | blit (source : Nat) (x y : Int)
  | flip
  | quitDisplay
deriving DecidableEq

structure Surface where
  number : Nat
  width : Int
  height : Int
deriving DecidableEq

/-- Pixels are filled into an offscreen surface, which is smoothed, stretched to the size of the window and shown at
a refresh. -/
structure Window where
  status : Status
  dark : Colour
  lit : Colour
  smoothing : Int
  width : Int
  height : Int
  offscreen : Option Surface
  /-- How many surfaces have been made. -/
  surfaces : Nat
deriving DecidableEq

namespace Window

structure Settings where
  scale : Option (Argument Int)
  palette : Option (Argument String)
  smoothing : Option Int
deriving DecidableEq

def defaultWidth : Int := 512

def darkDefault : Int := 0x222222

def litDefault : Int := 0xDDDDDD

def setTitle (w : Window) (text : String) : Window × List WindowCall :=
  ({ w with status := { w.status with title := text } }, [.setCaption text])

/-- The scale is the width of the window, which is half as high. The palette is read first, and both
before the library is called for the first time. -/
def create (settings : Settings) : Except Error (Window × List WindowCall) := do
  let palette ← Argument.demand .noPalette settings.palette
  let (dark, lit) ← (Palette.parsePair palette darkDefault litDefault 6 16).mapError .palette
  let width := (← Argument.demand .noScale settings.scale).getD defaultWidth
  let window : Window := {
    status := .initial width
    dark := .ofCode dark
    lit := .ofCode lit
    smoothing := settings.smoothing.getD 0
    width
    height := width / 2
    offscreen := none
    surfaces := 0 }
  let (window, calls) := window.setTitle Banner.name
  return (window, .initDisplay :: .setMode window.width window.height :: calls)

def smooth : Nat → Nat → Surface → Surface × List WindowCall
  | 0, _, s => (s, [])
  | times + 1, next, s =>
    let doubled : Surface := ⟨next, 2 * s.width, 2 * s.height⟩
    let (last, calls) := smooth times (next + 1) doubled
    (last, .double s.number next doubled.width doubled.height :: calls)

def refresh (w : Window) (changed : Bool) : Window × List WindowCall :=
  match changed, w.offscreen with
  | true, some surface =>
    let passes := w.smoothing.toNat
    let (smoothed, calls) := smooth passes w.surfaces surface
    let target := w.surfaces + passes
    ({ w with surfaces := target + 1 },
      calls ++ [.stretch smoothed.number target w.width w.height, .blit target 0 0, .flip])
  | _, _ => (w, [])

def setResolution (w : Window) (width height : Int) : Window × List WindowCall :=
  let w := { w with status := { w.status with width, height } }
  if width = 0 ∨ height = 0 then (w, [])
  else
    let number := w.surfaces
    let (w, calls) :=
      { w with offscreen := some ⟨number, width, height⟩, surfaces := number + 1 }.refresh true
    (w, .newSurface number width height :: .fill number w.dark :: calls)

def setPixel (w : Window) (x y : Int) (lit : Bool) : Option (List WindowCall) :=
  w.offscreen.map fun surface => [.fillCell surface.number (if lit then w.lit else w.dark) x y 1 1]

def shutdown : List WindowCall :=
  [.quitDisplay]

end Window

end Chip8.Display
