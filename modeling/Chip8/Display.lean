import Chip8.Display.Terminal
import Chip8.Display.Window
import Chip8.Plugin

namespace Chip8

inductive Display where
  | window (w : Display.Window)
  | terminal (t : Display.Terminal)
  | blank (s : Display.Status)
deriving DecidableEq

namespace Display

inductive Call where
  | window (c : WindowCall)
  | terminal (c : TerminalCall)
deriving DecidableEq

/-- Each display picks what it understands. The cursor mode has a default of its own, 0, that holds
only where none is passed at all. -/
structure Settings where
  scale : Option (Argument Int) := none
  smoothing : Option Int := some 0
  windowPalette : Option (Argument String) := none
  terminalPalette : Option (Argument String) := none
  cursor : Option Int := some 0
deriving DecidableEq

def create (room : Int) (plugin : Plugin) (s : Settings) : Except Error (Display × List Call) :=
  match plugin with
  | .window => (Window.create ⟨s.scale, s.windowPalette, s.smoothing⟩).map fun (w, calls) =>
    (.window w, calls.map .window)
  | .terminal => (Terminal.create room ⟨s.scale, s.terminalPalette, s.cursor⟩).map fun (t, calls) =>
    (.terminal t, calls.map .terminal)
  | .blank => .ok (.blank (.initial ((s.scale.bind Argument.value?).getD 1)), [])

def ofWindow : Window × List WindowCall → Display × List Call
  | (w, calls) => (window w, calls.map .window)

def ofTerminal : Terminal × List TerminalCall → Display × List Call
  | (t, calls) => (terminal t, calls.map .terminal)

def setResolution (d : Display) (width height : Int) : Display × List Call :=
  match d with
  | window w => ofWindow (w.setResolution width height)
  | terminal t => ofTerminal (t.setResolution width height)
  | blank s => (blank { s with width, height }, [])

def setPixel (d : Display) (x y : Int) (lit : Bool) : Option (List Call) :=
  match d with
  | window w => (w.setPixel x y lit).map (·.map .window)
  | terminal t => (t.setPixel x y lit).map (·.map .terminal)
  | blank _ => some []

def refresh (host : TerminalHost) (d : Display) (changed : Bool) : Display × List Call :=
  match d with
  | window w => ofWindow (w.refresh changed)
  | terminal t => ofTerminal (t.refresh host changed)
  | blank s => (blank s, [])

def setTitle (d : Display) (text : String) : Display × List Call :=
  match d with
  | window w => ofWindow (w.setTitle text)
  | terminal t => ofTerminal (t.setTitle text)
  | blank s => (blank { s with title := text }, [])

def shutdown : Display → List Call
  | window _ => Window.shutdown.map .window
  | terminal t => t.shutdown.map .terminal
  | blank _ => []

/-- What goes wrong when a display is told of an event, after all that `handle` makes of it. -/
def fault? (d : Display) (event : Event) : Option Fault :=
  match d, event with
  | _, .pixel x y lit => if (d.setPixel x y lit).isSome then none else some .noResolution
  | terminal t, .title text => t.titleFault? text
  | terminal t, .resolution width height => t.resolutionFault? width height
  | _, _ => none

def handle (host : TerminalHost) (d : Display) : Event → Display × List Call
  | .resolution width height => d.setResolution width height
  | .pixel x y lit => (d, (d.setPixel x y lit).getD [])
  | .refresh changed => d.refresh host changed
  | .title text => d.setTitle text

end Display

end Chip8
