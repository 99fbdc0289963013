import Chip8.CallStack
import Chip8.Font
import Chip8.Instruction
import Chip8.Keypad
import Chip8.Screen

namespace Chip8

abbrev memorySize : Nat := 0x1000

abbrev programStart : Nat := 0x200

abbrev maxProgramSize : Nat := memorySize - programStart

abbrev stackDepth : Int := 16

abbrev screenWidth : Nat := 64

abbrev screenHeight : Nat := 32

/-- The index register, the program counter and the timers may be set to any integer from outside;
a running program keeps them within their usual ranges. -/
structure Machine where
  memory : Memory memorySize
  v : Vector UInt8 16
  i : Int
  pc : Int
  stack : CallStack stackDepth
  delay : Int
  sound : Int
  screen : Screen screenWidth screenHeight
  keypad : Keypad
  /-- The instruction that waits for a key is repeating itself. -/
  awaitingKey : Bool
  /-- A fault has stopped the machine for good. -/
  halted : Bool
deriving DecidableEq

namespace Machine

def initial : Machine where
  memory := (Memory.zero memorySize).overlay Font.location Font.glyphs
  v := Vector.replicate 16 0
  i := 0
  pc := programStart
  stack := .empty stackDepth
  delay := 0
  sound := 0
  screen := .blank screenWidth screenHeight
  keypad := .released
  awaitingKey := false
  halted := false

structure ProgramTooLong where
  length : Nat
deriving DecidableEq

def ProgramTooLong.message (e : ProgramTooLong) : String :=
  "Program is " ++ toString e.length ++ " bytes, but only " ++ toString maxProgramSize ++
    " bytes are available"

/-- Only the bytes under the program change, so the tail of a longer earlier program stays. -/
def loadProgram (m : Machine) (program : List UInt8) : Except ProgramTooLong Machine :=
  if maxProgramSize < program.length then .error ⟨program.length⟩
  else .ok { m with memory := m.memory.overlay programStart program }

def fetch (m : Machine) : Except Memory.OutOfRange Int :=
  (m.memory.readBlock m.pc 2).map fun block => block.foldl (fun word byte => 256 * word + byte.toNat) 0

def advance (m : Machine) : Machine :=
  { m with pc := (m.pc + 2) % 0x10000 }

def stepBack (m : Machine) : Machine :=
  { m with pc := (m.pc - 2) % 0x10000 }

def countDown (timer : Int) : Int :=
  if 0 < timer then timer - 1 else timer

theorem countDown_eq_max {timer : Int} (h : 0 ≤ timer) : countDown timer = max (timer - 1) 0 := by
  rw [countDown]
  split <;> omega

def tickTimers (m : Machine) : Machine :=
  { m with delay := countDown m.delay, sound := countDown m.sound }

def setV (x : Register) (value : UInt8) (m : Machine) : Machine :=
  { m with v := m.v.set x.val value x.isLt }

@[simp]
theorem get_setV_self (x : Register) (value : UInt8) (m : Machine) :
    (m.setV x value).v.get x = value :=
  Vector.getElem_set_self x.isLt

theorem get_setV_of_ne {x r : Register} (h : r ≠ x) (value : UInt8) (m : Machine) :
    (m.setV x value).v.get r = m.v.get r :=
  Vector.getElem_set_ne x.isLt r.isLt fun he => h (Fin.ext he.symm)

def setFlag (on : Bool) (m : Machine) : Machine :=
  m.setV 0xF (if on then 1 else 0)

/-- On failure the screen keeps the cells switched so far. -/
def drawSprite (x y : Int) (sprite : List UInt8) : EStateM Memory.OutOfRange Machine Bool :=
  fun m => match Screen.drawSprite x y sprite m.screen with
    | .ok collided screen => .ok collided { m with screen }
    | .error e screen => .error e { m with screen }

end Machine

end Chip8
