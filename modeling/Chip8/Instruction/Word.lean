import Chip8.Instruction

namespace Chip8

/-- The digits of an instruction word, the leading one first. -/
structure Word where
  group : Fin 16
  x : Fin 16
  y : Fin 16
  n : Fin 16
deriving DecidableEq

namespace Word

/-- The low sixteen bits of any integer; a negative one counts as in two's complement. -/
def ofInt (opcode : Int) : Word :=
  let u := (opcode % 0x10000).toNat
  ⟨Fin.ofNat 16 (u / 0x1000), Fin.ofNat 16 (u / 0x100), Fin.ofNat 16 (u / 0x10), Fin.ofNat 16 u⟩

def kk (w : Word) : UInt8 :=
  UInt8.ofNat (16 * w.y + w.n)

def nnn (w : Word) : Address :=
  ⟨256 * w.x + 16 * w.y + w.n, by omega⟩

def toNat (w : Word) : Nat :=
  4096 * w.group + 256 * w.x + 16 * w.y + w.n

theorem toNat_ofInt (opcode : Int) : ((ofInt opcode).toNat : Int) = opcode % 0x10000 := by
  simp only [toNat, ofInt, Fin.val_ofNat]
  omega

theorem toNat_kk (w : Word) : w.kk.toNat = 16 * w.y + w.n := by
  simp only [kk, UInt8.toNat_ofNat']
  omega

end Word

end Chip8
