namespace Chip8.Byte

/-- The low eight bits; a negative integer counts as in two's complement. -/
def low (n : Int) : UInt8 :=
  UInt8.ofNat (n % 0x100).toNat

def decimalDigits (byte : UInt8) : List UInt8 :=
  [byte / 100, byte / 10 % 10, byte % 10]

end Chip8.Byte
