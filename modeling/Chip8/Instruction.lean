import Chip8.Text.Hex

namespace Chip8

abbrev Register := Fin 16

/-- Numerals of registers rest on this. -/
instance neZero_sixteen : @NeZero Nat Zero.ofOfNat0 16 := ⟨by decide⟩

abbrev Address := Fin 0x1000

inductive Instruction where
  | clearScreen
  | ret
  | jump (target : Address)
  | call (target : Address)
  | skipIfByte (x : Register) (byte : UInt8)
  | skipUnlessByte (x : Register) (byte : UInt8)
  | skipIfSame (x y : Register)
  | loadByte (x : Register) (byte : UInt8)
  | addByte (x : Register) (byte : UInt8)
  | copy (x y : Register)
  | or (x y : Register)
  | and (x y : Register)
  | xor (x y : Register)
  | add (x y : Register)
  | sub (x y : Register)
  | shiftRight (x : Register)
  | subFrom (x y : Register)
  | shiftLeft (x : Register)
  | skipUnlessSame (x y : Register)
  | loadIndex (target : Address)
  | jumpFromV0 (target : Address)
  | random (x : Register) (mask : UInt8)
  | draw (x y : Register) (rows : Fin 16)
  | skipIfKey (x : Register)
  | skipUnlessKey (x : Register)
  | readDelay (x : Register)
  | waitKey (x : Register)
  | setDelay (x : Register)
  | setSound (x : Register)
  | addIndex (x : Register)
  | loadGlyph (x : Register)
  | storeDecimal (x : Register)
  | storeRegisters (x : Register)
  | loadRegisters (x : Register)
deriving DecidableEq

namespace Instruction

/-- The documented pattern of the instruction word: capitals and figures stand for themselves, and
`x`, `y`, `n` and `k` for operand digits. -/
def tag : Instruction → String
  | clearScreen => "00E0"
  | ret => "00EE"
  | jump _ => "1nnn"
  | call _ => "2nnn"
  | skipIfByte _ _ => "3xkk"
  | skipUnlessByte _ _ => "4xkk"
  | skipIfSame _ _ => "5xy0"
  | loadByte _ _ => "6xkk"
  | addByte _ _ => "7xkk"
  | copy _ _ => "8xy0"
  | or _ _ => "8xy1"
  | and _ _ => "8xy2"
  | xor _ _ => "8xy3"
  | add _ _ => "8xy4"
  | sub _ _ => "8xy5"
  | shiftRight _ => "8xy6"
  | subFrom _ _ => "8xy7"
  | shiftLeft _ => "8xyE"
  | skipUnlessSame _ _ => "9xy0"
  | loadIndex _ => "Annn"
  | jumpFromV0 _ => "Bnnn"
  | random _ _ => "Cxkk"
  | draw _ _ _ => "Dxyn"
  | skipIfKey _ => "Ex9E"
  | skipUnlessKey _ => "ExA1"
  | readDelay _ => "Fx07"
  | waitKey _ => "Fx0A"
  | setDelay _ => "Fx15"
  | setSound _ => "Fx18"
  | addIndex _ => "Fx1E"
  | loadGlyph _ => "Fx29"
  | storeDecimal _ => "Fx33"
  | storeRegisters _ => "Fx55"
  | loadRegisters _ => "Fx65"

def registerName (x : Register) : String :=
  "V" ++ Text.Hex.ofInt 1 x.val

def byteText (byte : UInt8) : String :=
  "0x" ++ Text.Hex.ofInt 2 byte.toNat

def addressText (target : Address) : String :=
  "0x" ++ Text.Hex.ofInt 3 target.val

def mnemonic : Instruction → String
  | clearScreen => "CLS"
  | ret => "RET"
  | jump a => "JP " ++ addressText a
  | call a => "CALL " ++ addressText a
  | skipIfByte x b => "SE " ++ registerName x ++ ", " ++ byteText b
  | skipUnlessByte x b => "SNE " ++ registerName x ++ ", " ++ byteText b
  | skipIfSame x y => "SE " ++ registerName x ++ ", " ++ registerName y
  | loadByte x b => "LD " ++ registerName x ++ ", " ++ byteText b
  | addByte x b => "ADD " ++ registerName x ++ ", " ++ byteText b
  | copy x y => "LD " ++ registerName x ++ ", " ++ registerName y
  | or x y => "OR " ++ registerName x ++ ", " ++ registerName y
  | and x y => "AND " ++ registerName x ++ ", " ++ registerName y
  | xor x y => "XOR " ++ registerName x ++ ", " ++ registerName y
  | add x y => "ADD " ++ registerName x ++ ", " ++ registerName y
  | sub x y => "SUB " ++ registerName x ++ ", " ++ registerName y
  | shiftRight x => "SHR " ++ registerName x
  | subFrom x y => "SUBN " ++ registerName x ++ ", " ++ registerName y
  | shiftLeft x => "SHL " ++ registerName x
  | skipUnlessSame x y => "SNE " ++ registerName x ++ ", " ++ registerName y
  | loadIndex a => "LD I, " ++ addressText a
  | jumpFromV0 a => "JP V0, " ++ addressText a
  | random x b => "RND " ++ registerName x ++ ", " ++ byteText b
  | draw x y n => "DRW " ++ registerName x ++ ", " ++ registerName y ++ ", 0x" ++
      Text.Hex.ofInt 1 n.val
  | skipIfKey x => "SKP " ++ registerName x
  | skipUnlessKey x => "SKNP " ++ registerName x
  | readDelay x => "LD " ++ registerName x ++ ", DT"
  | waitKey x => "LD " ++ registerName x ++ ", K"
  | setDelay x => "LD DT, " ++ registerName x
  | setSound x => "LD ST, " ++ registerName x
  | addIndex x => "ADD I, " ++ registerName x
  | loadGlyph x => "LD F, " ++ registerName x
  | storeDecimal x => "LD B, " ++ registerName x
  | storeRegisters x => "LD [I], " ++ registerName x
  | loadRegisters x => "LD " ++ registerName x ++ ", [I]"

end Instruction

end Chip8
