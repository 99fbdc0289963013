import Chip8.Startup

namespace Chip8.Main

def usage : String :=
  "usage: [-h] [-c CLOCK_SPEED] [--fixed_random] [-d] [-r RENDERER] [-s SCALE] [-f SMOOTHING]\n" ++
    "  [--pygame_palette PALETTE] [--curses_palette PALETTE] [--curses_cursor_mode MODE]\n" ++
    "  [-k KEYMAP] filename"

def seconds : IO Float := do
  return (← IO.monoNanosNow).toFloat / 1000000000.0

partial def waitUntil (time : Float) : IO Unit := do
  if (← seconds) < time then waitUntil time

/-- Turn after turn, with the trace printed as it arises. -/
partial def loop (p : Processor) (h : Host) : IO UInt32 := do
  let now ← seconds
  let (ending, h, _, _) := h.turn p Controls.idle now ()
  for line in h.session.trace do
    IO.println line
  let h := { h with session := { h.session with trace := #[] } }
  match ending with
  | .stopped => return 0
  | .failed e =>
    IO.eprintln e.message
    return 1
  | .completed =>
    match h.interval with
    | some interval => waitUntil (now + interval)
    | none => pure ()
    loop p h.count

def load (filename : String) : IO (Except Folder.Error (List UInt8)) := do
  try
    return .ok (← IO.FS.readBinFile filename).toList
  catch _ =>
    return .error .notFound

def fail (e : Startup.Failure) : IO UInt32 := do
  IO.eprintln e.message
  return 1

def runOptions (options : CommandLine.Options) : IO UInt32 := do
  let program ← load options.filename
  let seed ← IO.rand 0 0xFFFFFFFF
  let surroundings : Startup.Surroundings := {
    installed := fun _ => false
    file := fun _ => program
    random := fun n => (mixHash (hash seed) (hash n)).toNat % 0x100
    clock := fun _ => 0
    room := 0
    terminal := ⟨24, 80, true⟩
    batches := []
    typed := []
    typingTime := 0
    fuel := 0 }
  let settings := Startup.Settings.ofOptions options
  let opening : Startup.Task (Startup.Ready × Option Int) := do
    let ready ← Startup.prepare surroundings settings
    let _ ← Startup.openInputs surroundings settings ready.plugin
    return (ready, ← Startup.clockSpeed settings)
  let (result, progress) := match opening .start with
    | .ok ready progress => (Except.ok ready, progress)
    | .error e progress => (Except.error e, progress)
  for line in progress.printed do
    IO.println line
  match result with
  | .error e => fail e
  | .ok (ready, speed) =>
    match Host.start (Session.start ready.machine) speed with
    | .error e => fail (.speed e)
    | .ok (host, _) => loop ready.processor host

end Chip8.Main

/-- There is no library for a window or a terminal at hand, so programs run with the blank plugin until they fail. -/
def main (arguments : List String) : IO UInt32 := do
  match Chip8.CommandLine.parse arguments with
  | .ok options => Chip8.Main.runOptions options
  | .error e =>
    match e with
    | .help => IO.println Chip8.Main.usage
    | .misuse => IO.eprintln Chip8.Main.usage
    return e.code.toUInt32
