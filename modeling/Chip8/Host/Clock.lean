namespace Chip8

/-- The readings, in seconds. -/
abbrev Clock := Nat → Float

namespace Clock

/-- The first whole second after a time; a time before zero is cut off towards zero first. -/
def nextSecond (time : Float) : Float :=
  (if time < 0 then time.ceil else time.floor) + 1.0

end Clock

end Chip8
