import Chip8.CommandLine
import Chip8.Controls.KeyEvents
import Chip8.Controls.Typing
import Chip8.Display
import Chip8.Folder
import Chip8.Host

namespace Chip8

inductive Setting (α : Type) where
  | missing
  | default
  | given (value : α)
deriving DecidableEq

namespace Startup

structure Settings where
  renderer : Setting (Argument String)
  filename : Setting String
  debug : Setting Bool
  fixedRandom : Setting Bool
  scale : Setting (Argument Int)
  smoothing : Setting (Argument Int)
  windowPalette : Setting (Argument String)
  terminalPalette : Setting (Argument String)
  cursorMode : Setting (Argument Int)
  keymap : Setting (Argument String)
  clockSpeed : Setting (Argument Int)
deriving DecidableEq

def ofOption {α : Type} : Option α → Setting α
  | none => .default
  | some value => .given value

def Settings.ofOptions (o : CommandLine.Options) : Settings where
  renderer := ofOption o.renderer
  filename := .given o.filename
  debug := .given o.debug
  fixedRandom := .given o.fixedRandom
  scale := ofOption o.scale
  smoothing := .given o.smoothing
  windowPalette := ofOption o.windowPalette
  terminalPalette := ofOption o.terminalPalette
  cursorMode := .given o.cursorMode
  keymap := .given o.keymap
  clockSpeed := ofOption o.clockSpeed

/-- All that the emulator depends on. -/
structure Surroundings where
  installed : Plugin → Bool
  file : String → Except Folder.Error (List UInt8)
  /-- The source of random numbers, unless a fixed one is asked for. -/
  random : Nat → Int
  clock : Clock
  /-- The most characters that there is room for in a text. -/
  room : Int
  terminal : Display.TerminalHost
  /-- The events of a window, one batch for each poll. -/
  batches : List (List KeyEvent)
  /-- The numbers that the terminal's reader finds when it starts. -/
  typed : List Int
  /-- What the clock of the terminal's keys says, unless it is told. -/
  typingTime : Float
  /-- The numbers that the reader finds later, and what that clock then says: once for each time that the keys
  are polled or asked for. -/
  typedLater : List (List Int × Float) := []
  /-- A bound on the turns of the host loop. -/
  fuel : Nat

inductive Failure where
  | missing (option : String)
  | noRenderer
  | plugin (e : Plugin.Error)
  | noFilename
  | file (filename : String) (e : Folder.Error)
  | program (e : Machine.ProgramTooLong)
  | display (e : Display.Error)
  | drawing (e : Display.Fault)
  | noKeymap
  | keymap (e : Keymap.Error)
  | noSpeed
  | speed (e : Host.SpeedTooHigh)
  | cycle (e : CycleError)
  /-- The bound on the turns was reached. -/
  | outOfFuel
deriving DecidableEq

def Failure.message : Failure → String
  | .missing option => "The option '" ++ option ++ "' is missing."
  | .noRenderer => "No renderer is given."
  | .plugin e => e.message
  | .noFilename => "No program is named."
  | .file filename e => "The file '" ++ filename ++ "' cannot be read. " ++ e.message
  | .program e => e.message
  | .display e => e.message
  | .drawing e => e.message
  | .noKeymap => "No keymap is given."
  | .keymap e => e.message
  | .noSpeed => "No clock speed is given."
  | .speed e => "The clock speed " ++ toString e.speed ++ " is too high."
  | .cycle e => e.message
  | .outOfFuel => "The host loop did not end."

inductive Activity where
  | displayOpened
  /-- The calls that the display makes of an event come after it. -/
  | told (event : Display.Event)
  | call (c : Display.Call)
  | controlsOpened
  | polled
  /-- The keys held are asked for. -/
  | asked
  | controlsClosed
  | displayClosed
deriving DecidableEq

inductive Inputs where
  | window (keys : KeyEvents) (batches : List (List KeyEvent))
  | terminal (keys : Typing) (later : List (List Int × Float))
  | blank

namespace Inputs

/-- A reader that has ended or failed finds nothing more. -/
def listen (keys : Typing) (codes : List Int) : Typing :=
  match keys.read codes with
  | (.waiting, keys) => keys
  | (_, keys) => keys.shutdown

/-- The keys of the terminal at the next time that they are polled or asked for, and that time. -/
def next (s : Surroundings) (keys : Typing) (later : List (List Int × Float)) : Typing × Float :=
  let (codes, now) := later.headD ([], s.typingTime)
  (listen keys codes, now)

def start (s : Surroundings) (plugin : Plugin) (keymap : String) : Except Keymap.Error Inputs :=
  match plugin with
  | .window => (Keymap.parse keymap false).map fun k => .window (.start k) s.batches
  | .terminal => (Keymap.parse keymap true).map fun k =>
    .terminal (listen (Typing.start k) s.typed) s.typedLater
  | .blank => (Keymap.parse keymap false).map fun _ => .blank

def controls (s : Surroundings) : Controls Inputs where
  poll
    | .window keys batches =>
      let (stop, keys) := KeyEvents.poll (batches.headD []) keys
      (stop, .window keys batches.tail)
    | .terminal keys later =>
      let (keys, now) := next s keys later
      let (stop, keys) := keys.poll now
      (stop, .terminal keys later.tail)
    | .blank => (false, .blank)
  keys
    | .window keys _ => keys.held
    | .terminal keys later =>
      let (keys, now) := next s keys later
      keys.keys now
    | .blank => Vector.replicate 16 false
  asked
    | .terminal keys later => .terminal (next s keys later).1 later.tail
    | inputs => inputs

def shutdown : Inputs → Inputs
  | terminal keys later => terminal keys.shutdown later
  | inputs => inputs

end Inputs

structure Progress where
  printed : Array String
  activities : Array Activity
  /-- How often the clock has been read. -/
  readings : Nat
  /-- The keys in use, once they have been opened. -/
  inputs : Option Inputs

def Progress.start : Progress :=
  ⟨#[], #[], 0, none⟩

abbrev Task := EStateM Failure Progress

def require {α : Type} (option : String) : Setting α → Task (Option α)
  | .missing => throw (.missing option)
  | .default => pure none
  | .given value => pure (some value)

def ofExcept {ε α : Type} (failure : ε → Failure) : Except ε α → Task α
  | .ok a => pure a
  | .error e => throw (failure e)

def demand {α : Type} (e : Failure) (o : Option (Argument α)) : Task (Option α) :=
  ofExcept id (Argument.demand e o)

def print (line : String) : Task Unit :=
  modify fun p => { p with printed := p.printed.push line }

def note (activity : Activity) : Task Unit :=
  modify fun p => { p with activities := p.activities.push activity }

def calls (cs : List Display.Call) : Task Unit :=
  modify fun p => { p with activities := p.activities ++ (cs.map .call).toArray }

/-- A task and, whether it succeeds or fails, what has to be done after it. The failure is kept. -/
def ensuring (task : Task Unit) (after : Progress → Progress) : Task Unit := fun p =>
  match task p with
  | .ok _ p => .ok () (after p)
  | .error e p => .error e (after p)

def tell (s : Surroundings) (display : Display) (event : Display.Event) : Task Display := do
  note (.told event)
  calls (display.handle s.terminal event).2
  match display.fault? event with
  | some e => throw (.drawing e)
  | none => return (display.handle s.terminal event).1

def follow (s : Surroundings) (display : Display) (event : Host.Event) : Task Display :=
  match event with
  | .poll _ => do
    note .polled
    return display
  | .keys _ => do
    note .asked
    return display
  | event =>
    match event.display? with
    | some told => tell s display told
    | none => return display

/-- The host loop on the opened display. A display that has got through the opening only listens, so it
is told of the whole run at once. -/
def runHost (s : Surroundings) (p : Processor) (display : Display) (inputs : Inputs)
    (session : Session) (speed : Option Int) : Task Unit := do
  let (host, opening) ← ofExcept .speed (Host.start session speed)
  let display ← opening.foldlM (tell s) display
  let some (result, final) := Host.run p (Inputs.controls s) s.clock s.fuel ⟨host, inputs, 0, #[]⟩
    | throw .outOfFuel
  modify fun progress =>
    { progress with
      printed := progress.printed ++ final.host.session.trace
      readings := progress.readings + final.readings
      inputs := some final.controls }
  let _ ← final.log.toList.foldlM (follow s) display
  ofExcept .cycle result

def closeDisplay (display : Display) (p : Progress) : Progress :=
  { p with activities := p.activities ++ (display.shutdown.map .call).toArray.push .displayClosed }

def openControls (inputs : Inputs) : Task Unit :=
  modify fun p =>
    { p with activities := p.activities.push .controlsOpened, inputs := some inputs }

def closeControls (p : Progress) : Progress :=
  { p with activities := p.activities.push .controlsClosed, inputs := p.inputs.map Inputs.shutdown }

structure Ready where
  plugin : Plugin
  processor : Processor
  machine : Machine
  display : Display
  /-- The calls that open the display. -/
  opening : List Display.Call

def prepare (s : Surroundings) (settings : Settings) : Task Ready := do
  print Banner.line
  let renderer ← demand .noRenderer (← require "renderer" settings.renderer)
  let plugin ← ofExcept .plugin (Plugin.select s.installed renderer)
  let some filename ← require "filename" settings.filename | throw .noFilename
  let program ← ofExcept (.file filename) (s.file filename)
  let machine ← ofExcept .program (Machine.initial.loadProgram program)
  let debug ← require "debug" settings.debug
  let fixedRandom ← require "fixed_random" settings.fixedRandom
  let processor : Processor :=
    ⟨if fixedRandom.getD false then fun _ => 1 else s.random, debug.getD false⟩
  let scale ← require "scale" settings.scale
  let smoothing ← require "smoothing" settings.smoothing
  let windowPalette ← require "pygame_palette" settings.windowPalette
  let terminalPalette ← require "curses_palette" settings.terminalPalette
  let cursor ← require "curses_cursor_mode" settings.cursorMode
  let (display, opening) ← ofExcept .display (Display.create s.room plugin
    ⟨scale, smoothing.bind (·.value?), windowPalette, terminalPalette, cursor.bind (·.value?)⟩)
  return ⟨plugin, processor, machine, display, opening⟩

def openInputs (s : Surroundings) (settings : Settings) (plugin : Plugin) : Task Inputs := do
  let some (.value keymap) ← require "keymap" settings.keymap | throw .noKeymap
  ofExcept .keymap (Inputs.start s plugin keymap)

def clockSpeed (settings : Settings) : Task (Option Int) := do
  demand .noSpeed (← require "clock_speed" settings.clockSpeed)

def runInputs (s : Surroundings) (settings : Settings) (ready : Ready) : Task Unit := do
  let inputs ← openInputs s settings ready.plugin
  openControls inputs
  ensuring (do
    let speed ← clockSpeed settings
    runHost s ready.processor ready.display inputs (Session.start ready.machine) speed) closeControls

def run (s : Surroundings) (settings : Settings) : Task Unit := do
  let ready ← prepare s settings
  calls ready.opening
  note .displayOpened
  ensuring (runInputs s settings ready) (closeDisplay ready.display)

end Startup

end Chip8
