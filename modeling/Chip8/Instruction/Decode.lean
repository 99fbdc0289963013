import Chip8.Instruction.Word

namespace Chip8

namespace Word

def screenOrReturn? (w : Word) : Option Instruction :=
  match w.kk.toNat with
  | 0xE0 => some .clearScreen
  | 0xEE => some .ret
  | _ => none

def arithmetic? (w : Word) : Option Instruction :=
  match w.n.val with
  | 0x0 => some (.copy w.x w.y)
  | 0x1 => some (.or w.x w.y)
  | 0x2 => some (.and w.x w.y)
  | 0x3 => some (.xor w.x w.y)
  | 0x4 => some (.add w.x w.y)
  | 0x5 => some (.sub w.x w.y)
  | 0x6 => some (.shiftRight w.x)
  | 0x7 => some (.subFrom w.x w.y)
  | 0xE => some (.shiftLeft w.x)
  | _ => none

def keySkip? (w : Word) : Option Instruction :=
  match w.kk.toNat with
  | 0x9E => some (.skipIfKey w.x)
  | 0xA1 => some (.skipUnlessKey w.x)
  | _ => none

def transfer? (w : Word) : Option Instruction :=
  match w.kk.toNat with
  | 0x07 => some (.readDelay w.x)
  | 0x0A => some (.waitKey w.x)
  | 0x15 => some (.setDelay w.x)
  | 0x18 => some (.setSound w.x)
  | 0x1E => some (.addIndex w.x)
  | 0x29 => some (.loadGlyph w.x)
  | 0x33 => some (.storeDecimal w.x)
  | 0x55 => some (.storeRegisters w.x)
  | 0x65 => some (.loadRegisters w.x)
  | _ => none

/-- The last digit of groups 5 and 9 is not looked at. -/
def instruction? (w : Word) : Option Instruction :=
  match w.group.val with
  | 0x0 => w.screenOrReturn?
  | 0x1 => some (.jump w.nnn)
  | 0x2 => some (.call w.nnn)
  | 0x3 => some (.skipIfByte w.x w.kk)
  | 0x4 => some (.skipUnlessByte w.x w.kk)
  | 0x5 => some (.skipIfSame w.x w.y)
  | 0x6 => some (.loadByte w.x w.kk)
  | 0x7 => some (.addByte w.x w.kk)
  | 0x8 => w.arithmetic?
  | 0x9 => some (.skipUnlessSame w.x w.y)
  | 0xA => some (.loadIndex w.nnn)
  | 0xB => some (.jumpFromV0 w.nnn)
  | 0xC => some (.random w.x w.kk)
  | 0xD => some (.draw w.x w.y w.n)
  | 0xE => w.keySkip?
  | _ => w.transfer?

end Word

namespace Instruction

structure Unknown where
  opcode : Int
deriving DecidableEq

def Unknown.message (e : Unknown) : String :=
  "Opcode 0x" ++ Text.Hex.ofInt 4 e.opcode ++ " is not a CHIP-8 instruction"

def decode (opcode : Int) : Except Unknown Instruction :=
  match (Word.ofInt opcode).instruction? with
  | some i => .ok i
  | none => .error ⟨opcode⟩

end Instruction

end Chip8
