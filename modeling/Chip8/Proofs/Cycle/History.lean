import Chip8.Processor.Cycle

namespace Chip8

inductive Act where
  | keys (snapshot : List Keypad.Reading)
  | cycle

namespace Processor

variable {p : Processor} {s : Session}

/-- The session after an act, whether it succeeds or not. A snapshot of the wrong size is refused. -/
def act (p : Processor) : Act → Session → Session
  | .keys snapshot, s =>
    match s.machine.keypad.setKeys snapshot with
    | .ok keypad => { s with machine := { s.machine with keypad } }
    | .error _ => s
  | .cycle, s =>
    match p.cycle s with
    | .ok _ t => t
    | .error _ t => t

def play (p : Processor) : List Act → Session → Session
  | [], s => s
  | a :: acts, s => p.play acts (p.act a s)

theorem play_induction {P : Session → Prop} (hs : P s) (ha : ∀ a t, P t → P (p.act a t))
    (acts : List Act) : P (p.play acts s) := by
  induction acts generalizing s with
  | nil => exact hs
  | cons a acts ih => exact ih (ha a s hs)

theorem cycle_of_halted (h : s.machine.halted = true) : p.cycle s = .error .halted s := by
  rw [cycle, if_pos h]

end Processor

end Chip8
