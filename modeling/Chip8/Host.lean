import Chip8.Banner
import Chip8.Controls
import Chip8.Host.Clock
import Chip8.Processor.Cycle
import Chip8.Screen.Frame

namespace Chip8

/-- In every turn the keys held are copied to the machine and one cycle is run. Sixty times a second the controls are
polled and the pixels that have changed are shown, and once a second the rates go into the title. -/
structure Host where
  session : Session
  /-- What the display shows. -/
  shown : Screen screenWidth screenHeight
  /-- Seconds from cycle to cycle, if the speed is limited. -/
  interval : Option Float
  nextFrame : Float
  nextReport : Float
  /-- Frames and cycles since the latest report. -/
  frames : Nat
  cycles : Nat

namespace Host

def defaultSpeed : Int := 1000

def frameInterval : Float := 1.0 / 60.0

structure SpeedTooHigh where
  speed : Int
deriving DecidableEq

/-- Integers from here on round to no finite number. -/
def speedLimit : Int := Int.pow 2 1024 - Int.pow 2 970

/-- Speeds that are not positive set no limit. -/
def intervalOf (speed : Option Int) : Except SpeedTooHigh (Option Float) :=
  let speed := speed.getD defaultSpeed
  if speed ≤ 0 then .ok none
  else if speedLimit ≤ speed then .error ⟨speed⟩
  else .ok (some (1.0 / Float.ofInt speed))

def reportTitle (frames cycles : Int) : Display.Event :=
  .title (Banner.name ++ " - " ++ toString frames ++ " FPS, " ++ toString cycles ++ " OPS")

inductive Event where
  /-- The rates go into the title. -/
  | report (frames cycles : Nat)
  | poll (stop : Bool)
  | shown (e : Display.Event)
  | keys (held : KeyStates)
  | cycle
deriving DecidableEq

def Event.display? : Event → Option Display.Event
  | report frames cycles => some (reportTitle frames cycles)
  | shown e => some e
  | _ => none

def start (session : Session) (speed : Option Int) :
    Except SpeedTooHigh (Host × List Display.Event) :=
  (intervalOf speed).map fun interval =>
    let (view, events) := Screen.View.start session.machine.screen
    ({ session, shown := view.shown, interval, nextFrame := 0, nextReport := 0, frames := 0,
       cycles := 0 },
      events ++ [reportTitle 0 0])

def view (h : Host) : Screen.View screenWidth screenHeight :=
  ⟨h.session.machine.screen, h.shown⟩

def refresh (h : Host) : Host × List Display.Event :=
  let (view, events) := h.view.refresh
  ({ h with shown := view.shown }, events)

/-- The rates come before the frame, which shows them. -/
def report (now : Float) (h : Host) : Host × List Event :=
  if h.nextReport ≤ now then
    ({ h with nextReport := Clock.nextSecond now, frames := 0, cycles := 0 },
      [.report h.frames h.cycles])
  else (h, [])

inductive Ending where
  | stopped
  | failed (e : CycleError)
  | completed
deriving DecidableEq

def setKeys (held : KeyStates) (h : Host) : Host × List Event :=
  let machine := { h.session.machine with keypad := ⟨held⟩ }
  ({ h with session := { h.session with machine } }, [.keys held])

def cycle (p : Processor) (h : Host) : Ending × Host × List Event :=
  match p.cycle h.session with
  | .ok _ session => (.completed, { h with session }, [.cycle])
  | .error e session => (.failed e, { h with session }, [.cycle])

variable {σ : Type}

def showFrame (c : Controls σ) (now : Float) (h : Host) (s : σ) : Bool × Host × σ × List Event :=
  if h.nextFrame ≤ now then
    match c.poll s with
    | (true, s) => (true, h, s, [.poll true])
    | (false, s) =>
      let (h, events) := { h with nextFrame := now + frameInterval }.refresh
      (false, { h with frames := h.frames + 1 }, s, .poll false :: events.map .shown)
  else (false, h, s, [])

def turn (p : Processor) (c : Controls σ) (now : Float) (h : Host) (s : σ) :
    Ending × Host × σ × List Event :=
  let (h, reported) := h.report now
  match h.showFrame c now s with
  | (true, h, s, shown) => (.stopped, h, s, reported ++ shown)
  | (false, h, s, shown) =>
    let (h, keys) := h.setKeys (c.keys s)
    let (ending, h, cycled) := h.cycle p
    (ending, h, c.asked s, reported ++ shown ++ keys ++ cycled)

/-- A turn counts as a cycle once the wait after it is over. -/
def count (h : Host) : Host :=
  { h with cycles := h.cycles + 1 }

structure Run (σ : Type) where
  host : Host
  controls : σ
  /-- How often the clock has been read. -/
  readings : Nat
  log : Array Event

def waitUntil (clock : Clock) (time : Float) : Nat → Nat → Option Nat
  | 0, _ => none
  | fuel + 1, readings =>
    if clock readings < time then waitUntil clock time fuel (readings + 1) else some (readings + 1)

/-- Turns until the program stops or fails. There is no answer if that takes more than `fuel` turns,
or a wait more readings than turns are left. -/
def run (p : Processor) (c : Controls σ) (clock : Clock) :
    Nat → Run σ → Option (Except CycleError Unit × Run σ)
  | 0, _ => none
  | fuel + 1, r =>
    let now := clock r.readings
    let (ending, host, controls, events) := r.host.turn p c now r.controls
    let r : Run σ := { host, controls, readings := r.readings + 1, log := r.log ++ events.toArray }
    match ending with
    | .stopped => some (.ok (), r)
    | .failed e => some (.error e, r)
    | .completed =>
      match r.host.interval with
      | none => run p c clock fuel { r with host := r.host.count }
      | some interval =>
        match waitUntil clock (now + interval) (fuel + 1) r.readings with
        | none => none
        | some readings => run p c clock fuel { r with host := r.host.count, readings }

end Host

end Chip8
