import Chip8.Instruction.Decode
import Chip8.Machine

namespace Chip8

/-- A machine in use, with the random numbers drawn for it and the trace lines printed so far. -/
structure Session where
  machine : Machine
  draws : Nat
  trace : Array String
deriving DecidableEq

def Session.start (machine : Machine) : Session :=
  ⟨machine, 0, #[]⟩

inductive Fault where
  | unknown (e : Instruction.Unknown)
  | memory (e : Memory.OutOfRange)
  | stack (e : CallStack.Error)
  | keypad (e : Keypad.Error)
  /-- A timer had been set from outside to a value that no register holds. -/
  | timerTooWide (value : Int)
deriving DecidableEq

def Fault.message : Fault → String
  | .unknown e => e.message
  | .memory e => e.message
  | .stack e => e.message
  | .keypad e => e.message
  | .timerTooWide value => "Timer value " ++ toString value ++ " does not fit a register"

abbrev Effect (α : Type) := EStateM Fault Session α

namespace Effect

def machine : Effect Machine :=
  return (← get).machine

def change (f : Machine → Machine) : Effect Unit :=
  modify fun s => { s with machine := f s.machine }

def attempt {ε : Type} (fault : ε → Fault) (f : Machine → Except ε Machine) : Effect Unit :=
  fun s => match f s.machine with
    | .ok machine => .ok () { s with machine }
    | .error e => .error (fault e) s

def skipWhen (condition : Bool) : Effect Unit :=
  if condition then change Machine.advance else pure ()

def drawSprite (x y : Int) (sprite : List UInt8) : Effect Bool :=
  fun s => match Machine.drawSprite x y sprite s.machine with
    | .ok collided machine => .ok collided { s with machine }
    | .error e machine => .error (.memory e) { s with machine }

def print (line : String) : Effect Unit :=
  modify fun s => { s with trace := s.trace.push line }

end Effect

end Chip8
