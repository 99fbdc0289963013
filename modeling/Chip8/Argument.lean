namespace Chip8

/-- What comes with an option. An option without the argument that it takes is not the same as an option that is
left out. -/
inductive Argument (α : Type) where
  | nothing
  | value (a : α)
deriving DecidableEq

namespace Argument

variable {ε α : Type}

def value? : Argument α → Option α
  | nothing => none
  | value a => some a

def demand (e : ε) : Option (Argument α) → Except ε (Option α)
  | none => .ok none
  | some nothing => .error e
  | some (value a) => .ok (some a)

theorem demand_eq_ok_iff {e : ε} {o : Option (Argument α)} {v : Option α} :
    demand e o = .ok v ↔ o = v.map value := by
  rcases o with _ | _ | a <;> cases v <;> simp [demand]

end Argument

end Chip8
