import Chip8.Instruction
import Chip8.Machine

namespace Chip8.Machine

/-- The registers, VF first and V0 last. -/
def registerText (m : Machine) : String :=
  Text.Hex.ofBytes m.v.toList.reverse

def dumpLine (m : Machine) (pc opcode : Int) (text : String) : String :=
  "V: 0x" ++ m.registerText ++ " I: 0x" ++ Text.Hex.ofInt 4 m.i ++ " DT: 0x" ++
    Text.Hex.ofInt 2 m.delay ++ " DS: 0x" ++ Text.Hex.ofInt 2 m.sound ++ " PC: 0x" ++
    Text.Hex.ofInt 3 pc ++ " OP: 0x" ++ Text.Hex.ofInt 4 opcode ++ " IN: " ++ text

def stackText (m : Machine) : String :=
  match m.stack.items with
  | [] => "(Empty)"
  | items => String.intercalate " " (items.map fun a => "0x" ++ Text.Hex.ofInt 3 a)

def verboseDump (m : Machine) (pc opcode : Int) (text : String) : String :=
  m.dumpLine pc opcode text ++ "\nSP: " ++ toString m.stack.pointer ++ "\nStack: " ++ m.stackText

end Chip8.Machine
