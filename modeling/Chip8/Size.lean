namespace Chip8.Size

inductive Error where
  /-- The number does not fit a word. -/
  | tooWide (size : Int)
  | noRoom (size : Int)
deriving DecidableEq

def Error.message : Error → String
  | .tooWide size => "The size " ++ toString size ++ " does not fit a word."
  | .noRoom size => "There is no room for the size " ++ toString size ++ "."

/-- What is wrong with a size, which is a signed word of 64 bits, where there is so much room. Negative sizes stand
for nothing at all. -/
def error? (room size : Int) : Option Error :=
  if size < -0x8000000000000000 ∨ 0x8000000000000000 ≤ size then some (.tooWide size)
  else if room < size then some (.noRoom size)
  else none

theorem error?_eq_none_iff {room size : Int} :
    error? room size = none ↔ -0x8000000000000000 ≤ size ∧ size < 0x8000000000000000 ∧ size ≤ room := by
  unfold error?
  split
  · simp
    omega
  · split <;> simp <;> omega

def check (room size : Int) : Except Error Nat :=
  match error? room size with
  | some e => .error e
  | none => .ok size.toNat

end Chip8.Size
