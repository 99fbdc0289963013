import Chip8.Banner
import Chip8.Processor

namespace Chip8

inductive CycleError where
  | halted
  | crashed (fault : Fault) (report : String)
  /-- The machine is not to blame, and is not halted. -/
  | aborted (fault : Fault)
deriving DecidableEq

def CycleError.message : CycleError → String
  | .halted => "Emulation halted.  A new machine state is required to continue."
  | .crashed _ report => report
  | .aborted fault => fault.message

/-- Of all faults only a timer set from outside does not stop the machine. -/
def Fault.halts : Fault → Bool
  | .timerTooWide _ => false
  | _ => true

namespace Instruction

def textOf (opcode : Int) : String :=
  match decode opcode with
  | .ok instruction => instruction.mnemonic
  | .error _ => "???"

end Instruction

/-- What is told about a fault at address `pc`. Without an opcode the fetch itself has failed. -/
def Machine.crashReport (m : Machine) (pc : Int) (opcode : Option Int) (fault : Fault) : String :=
  let dump := match opcode with
    | none => m.verboseDump pc 0 "???"
    | some word => m.verboseDump pc word (Instruction.textOf word)
  "Emulation halted.\n\n" ++ Banner.intro ++ "Debug info:\n" ++ dump ++ "\n\n" ++ fault.message ++
    " (instruction at address 0x" ++ Text.Hex.ofInt 3 pc ++ ")."

namespace Processor

def fail (pc : Int) (opcode : Option Int) (fault : Fault) (s : Session) :
    EStateM.Result CycleError Session Unit :=
  if fault.halts then
    .error (.crashed fault (s.machine.crashReport pc opcode fault))
      { s with machine := { s.machine with halted := true } }
  else .error (.aborted fault) s

/-- A fault halts the machine, and from then on no cycle runs. -/
def cycle (p : Processor) : EStateM CycleError Session Unit := fun s =>
  if s.machine.halted then .error .halted s
  else match s.machine.fetch with
    | .error e => fail s.machine.pc none (.memory e) s
    | .ok opcode =>
      match p.decodeExecute opcode { s with machine := s.machine.advance } with
      | .error fault s' => fail s.machine.pc (some opcode) fault s'
      | .ok _ s' => .ok () { s' with machine := s'.machine.tickTimers }

end Processor

end Chip8
