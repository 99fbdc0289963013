namespace Chip8

abbrev KeyStates := Vector Bool 16

/-- A negative number counts from the last key back. -/
def KeyStates.key? (number : Int) : Option (Fin 16) :=
  let n := if number < 0 then number + 16 else number
  if h : 0 ≤ n ∧ n < 16 then some ⟨n.toNat, by omega⟩ else none

/-- Polling takes in what has happened since the last time and tells whether the program is to stop; the keys held
can be asked for at any time. -/
structure Controls (σ : Type) where
  poll : σ → Bool × σ
  keys : σ → KeyStates
  /-- The controls once the keys have been asked for, where keys come and go between polls too. -/
  asked : σ → σ := id

namespace Controls

def idle : Controls Unit where
  poll _ := (false, ())
  keys _ := Vector.replicate 16 false

/-- Fixed answers. The state counts the polls; from poll number `stopAfter` on the program is to
stop. The first poll finds the first list of keys held, and so on; the last list stays. -/
def scripted (held : List (List (Fin 16))) (stopAfter : Int) : Controls Nat where
  poll polls := (decide (stopAfter ≤ (polls + 1 : Nat)), polls + 1)
  keys polls :=
    let down := (held[max polls 1 - 1]?.or held.getLast?).getD []
    Vector.ofFn fun k => down.contains k

end Controls

end Chip8
