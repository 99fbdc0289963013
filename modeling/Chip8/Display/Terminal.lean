import Chip8.Argument
import Chip8.Display.Error
import Chip8.Display.Event

namespace Chip8.Display

inductive Style where
  | normal
  | reverse
  | pair (number : Nat)
deriving DecidableEq

inductive TerminalCall where
  | start
  | noEcho
  | charBreak
  | noCharBreak
  | echo
  | startColour
  | useDefaultColours
  | leave
  | setCursor (mode : Option Int)
  | initPair (number : Nat) (foreground background : Int)
  | newPad (rows columns : Int)
  | background (style : Style)
  | addText (y x : Int) (text : String) (style : Style)
  | clearScreen
  | refreshScreen
  | resize (rows columns : Int)
  /-- Copies the pad, from its upper left corner on, to the terminal up to a last row and column. -/
  | refreshPad (lastRow lastColumn : Int)
deriving DecidableEq

structure TerminalHost where
  rows : Int
  columns : Int
  /-- The library can be told of a new size. -/
  resizable : Bool
deriving DecidableEq

/-- What is shown is drawn on a pad: a title line, and below it the pixels, each some blanks wide, in two styles. -/
structure Terminal where
  status : Status
  cursor : Option Int
  dark : Style
  lit : Style
  /-- The most characters that there is room for in a text. -/
  room : Int
  hasPad : Bool
  /-- The pad holds something that the terminal does not show yet. -/
  dirty : Bool
  /-- The size of the terminal at the latest refresh. -/
  size : Option (Int × Int)
deriving DecidableEq

namespace Terminal

structure Settings where
  scale : Option (Argument Int)
  palette : Option (Argument String)
  cursor : Option Int
deriving DecidableEq

def defaultScale : Int := 2

def titleRows : Int := 1

def black : Int := 0

def white : Int := 7

/-- Without a palette, lit pixels are in reverse video. The scale is read first, as the length of a text,
and the palette next, both before the library is called for the first time. -/
def create (room : Int) (settings : Settings) : Except Error (Terminal × List TerminalCall) := do
  let scale := (← Argument.demand .noScale settings.scale).getD defaultScale
  let _ ← (Size.check room scale).mapError .scale
  let opening : List TerminalCall := [.start, .noEcho, .charBreak, .setCursor settings.cursor]
  let terminal : Terminal := {
    status := .initial scale
    cursor := settings.cursor
    dark := .normal
    lit := .reverse
    room
    hasPad := false
    dirty := false
    size := none }
  match ← Argument.demand .noPalette settings.palette with
  | none => return (terminal, opening)
  | some text =>
    let (dark, lit) ← (Palette.parsePair (some text) black white 1 8).mapError .palette
    return ({ terminal with dark := .pair 1, lit := .pair 2 },
      opening ++ [.startColour, .useDefaultColours, .initPair 1 white dark, .initPair 2 black lit])

def pixelText (scale : Int) : String :=
  String.ofList (List.replicate scale.toNat ' ')

def leftJustified (text : String) (width : Nat) : String :=
  text ++ String.ofList (List.replicate (width - text.length) ' ')

def titleWidth (t : Terminal) : Int :=
  t.status.width * t.status.scale

/-- A title is shown if there is more room than it needs. -/
def showsTitle (t : Terminal) (text : String) : Bool :=
  t.hasPad ∧ (text.length : Int) < t.titleWidth

def titleFault? (t : Terminal) (text : String) : Option Fault :=
  if t.showsTitle text then (Size.error? t.room t.titleWidth).map .titleLine else none

/-- The title is kept even if the line is too long to be shown. -/
def setTitle (t : Terminal) (text : String) : Terminal × List TerminalCall :=
  let t := { t with status := { t.status with title := text } }
  if t.showsTitle text ∧ t.titleFault? text = none then
    ({ t with dirty := true }, [.addText 0 0 (leftJustified text t.titleWidth.toNat) .reverse])
  else (t, [])

def pixelCall (t : Terminal) (x y : Int) (lit : Bool) : TerminalCall :=
  .addText (y + titleRows) (x * t.status.scale) (pixelText t.status.scale)
    (if lit then t.lit else t.dark)

def setPixel (t : Terminal) (x y : Int) (lit : Bool) : Option (List TerminalCall) :=
  if t.hasPad then some [t.pixelCall x y lit] else none

def resized (t : Terminal) (width height : Int) : Terminal :=
  { t with
    status := { t.status with width, height }
    hasPad := t.hasPad || (width ≠ 0 && height ≠ 0) }

def resolutionFault? (t : Terminal) (width height : Int) : Option Fault :=
  if width = 0 ∨ height = 0 then none else (t.resized width height).titleFault? t.status.title

/-- A new pad with all pixels dark, one column wider than they need, since the last cell of a pad
cannot be written. An empty resolution leaves the pad as it is. -/
def setResolution (t : Terminal) (width height : Int) : Terminal × List TerminalCall :=
  let t := t.resized width height
  if width = 0 ∨ height = 0 then (t, [])
  else
    let pixels := (List.range height.toNat).flatMap fun y : Nat =>
      (List.range width.toNat).map fun x : Nat => t.pixelCall x y false
    let (t, calls) := t.setTitle t.status.title
    (t, .newPad (height + titleRows) (width * t.status.scale + 1) :: .background t.dark ::
      pixels ++ calls)

/-- A terminal of a new size is wiped first, and the pad is copied at the next refresh. -/
def refresh (t : Terminal) (host : TerminalHost) (changed : Bool) : Terminal × List TerminalCall :=
  let t := { t with dirty := t.dirty || changed }
  if t.size ≠ some (host.rows, host.columns) then
    ({ t with size := some (host.rows, host.columns), dirty := true },
      .clearScreen :: (if host.resizable then [.resize host.rows host.columns] else []) ++
        [.refreshScreen])
  else if t.dirty ∧ t.hasPad then
    ({ t with dirty := false }, [.refreshPad (host.rows - 1) (host.columns - 1)])
  else (t, [])

/-- The cursor is made visible unless it was left so. -/
def shutdown (t : Terminal) : List TerminalCall :=
  [.noCharBreak, .echo] ++ (if t.cursor = some 1 then [] else [.setCursor (some 1)]) ++ [.leave]

end Terminal

end Chip8.Display
