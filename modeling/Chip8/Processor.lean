import Chip8.Byte
import Chip8.Machine.Dump
import Chip8.Session

namespace Chip8

structure Processor where
  /-- The numbers that the random source yields, in order. -/
  random : Nat → Int
  /-- Every instruction is printed before it runs. -/
  live : Bool

namespace Processor

open Effect

def drawRandom (p : Processor) : Effect Int :=
  modifyGet fun s => (p.random s.draws, { s with draws := s.draws + 1 })

/-- The program counter has moved past the instruction already, so jumps overwrite it and skips add
to it. -/
def execute (p : Processor) : Instruction → Effect Unit
  | .clearScreen => change fun m => { m with screen := m.screen.clear }
  | .ret => attempt .stack fun m => m.stack.pop.map fun (pc, stack) => { m with pc, stack }
  | .jump target => change fun m => { m with pc := target.val }
  | .call target => do
    attempt .stack fun m => (m.stack.push m.pc).map fun stack => { m with stack }
    change fun m => { m with pc := target.val }
  | .skipIfByte x byte => do
    let m ← machine
    skipWhen (m.v.get x == byte)
  | .skipUnlessByte x byte => do
    let m ← machine
    skipWhen (m.v.get x != byte)
  | .skipIfSame x y => do
    let m ← machine
    skipWhen (m.v.get x == m.v.get y)
  | .loadByte x byte => change (Machine.setV x byte)
  | .addByte x byte => change fun m => m.setV x (m.v.get x + byte)
  | .copy x y => change fun m => m.setV x (m.v.get y)
  | .or x y => change fun m => m.setV x (m.v.get x ||| m.v.get y)
  | .and x y => change fun m => m.setV x (m.v.get x &&& m.v.get y)
  | .xor x y => change fun m => m.setV x (m.v.get x ^^^ m.v.get y)
  -- The flag goes last in these two, as it may be one of the operands.
  | .add x y => change fun m =>
    (m.setV x (m.v.get x + m.v.get y)).setFlag (255 < (m.v.get x).toNat + (m.v.get y).toNat)
  | .sub x y => change fun m =>
    (m.setV x (m.v.get x - m.v.get y)).setFlag (m.v.get y ≤ m.v.get x)
  -- The flag goes first in these three, and the result is made of the registers as they then stand.
  | .shiftRight x => do
    change fun m => m.setV 0xF (m.v.get x &&& 1)
    change fun m => m.setV x (m.v.get x >>> 1)
  | .subFrom x y => do
    change fun m => m.setFlag (m.v.get x < m.v.get y)
    change fun m => m.setV x (m.v.get y - m.v.get x)
  | .shiftLeft x => do
    change fun m => m.setV 0xF (m.v.get x >>> 7)
    change fun m => m.setV x (m.v.get x <<< 1)
  | .skipUnlessSame x y => do
    let m ← machine
    skipWhen (m.v.get x != m.v.get y)
  | .loadIndex target => change fun m => { m with i := target.val }
  | .jumpFromV0 target => change fun m => { m with pc := ((m.v.get 0).toNat + target.val : Int) % 0x10000 }
  | .random x mask => do
    let n ← p.drawRandom
    change (Machine.setV x (Byte.low n &&& mask))
  -- The position is read before the flag is written, as it may stand in VF.
  | .draw x y rows => do
    let m ← machine
    let sprite ← if rows = 0 then pure [] else
      match m.memory.readBlock m.i rows.val with
      | .ok sprite => pure sprite
      | .error e => throw (.memory e)
    let collided ← drawSprite (m.v.get x).toNat (m.v.get y).toNat sprite
    change (Machine.setFlag collided)
  | .skipIfKey x => do
    let m ← machine
    match m.keypad.isPressed (m.v.get x).toNat with
    | .ok pressed => skipWhen pressed
    | .error e => throw (.keypad e)
  | .skipUnlessKey x => do
    let m ← machine
    match m.keypad.isPressed (m.v.get x).toNat with
    | .ok pressed => skipWhen (!pressed)
    | .error e => throw (.keypad e)
  | .readDelay x => do
    let m ← machine
    if 0 ≤ m.delay ∧ m.delay ≤ 255 then change (Machine.setV x (Byte.low m.delay))
    else throw (.timerTooWide m.delay)
  -- Without a key the instruction repeats itself, so that timers and screen go on.
  | .waitKey x => change fun m =>
    match m.keypad.firstPressed with
    | none => { m.stepBack with awaitingKey := true }
    | some key => { m.setV x (UInt8.ofNat key.val) with awaitingKey := false }
  | .setDelay x => change fun m => { m with delay := (m.v.get x).toNat }
  | .setSound x => change fun m => { m with sound := (m.v.get x).toNat }
  | .addIndex x => change fun m => { m with i := (m.i + (m.v.get x).toNat) % 0x10000 }
  | .loadGlyph x => change fun m => { m with i := Font.address (m.v.get x).toNat }
  | .storeDecimal x => attempt .memory fun m =>
    (m.memory.writeBlock m.i (Byte.decimalDigits (m.v.get x))).map fun memory => { m with memory }
  | .storeRegisters x => attempt .memory fun m =>
    (m.memory.writeBlock m.i (m.v.toList.take (x.val + 1))).map fun memory => { m with memory }
  | .loadRegisters x => attempt .memory fun m =>
    (m.memory.readBlock m.i (x.val + 1)).map fun block =>
      { m with v := Vector.ofFn fun r => block.getD r.val (m.v.get r) }

/-- A live processor prints the registers as they stand before the instruction runs, with the address
that the program counter has just left. -/
def decodeExecute (p : Processor) (opcode : Int) : Effect Unit := do
  match Instruction.decode opcode with
  | .error e => throw (.unknown e)
  | .ok instruction =>
    if p.live then
      let m ← machine
      print (m.dumpLine (m.stepBack).pc opcode instruction.mnemonic)
    p.execute instruction

end Processor

end Chip8
