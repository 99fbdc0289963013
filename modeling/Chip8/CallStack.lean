namespace Chip8

/-- The newest address is at the head. -/
structure CallStack (depth : Int) where
  addresses : List Int
deriving DecidableEq

namespace CallStack

inductive Error where
  | overflow (depth : Int)
  | underflow
deriving DecidableEq

def Error.message : Error → String
  | .overflow depth => "Stack overflow: already " ++ toString depth ++ " levels deep"
  | .underflow => "Stack underflow: return without a matching call"

variable {depth : Int}

def empty (depth : Int) : CallStack depth :=
  ⟨[]⟩

def pointer (s : CallStack depth) : Nat :=
  s.addresses.length

def items (s : CallStack depth) : List Int :=
  s.addresses.reverse

/-- The stack is full when it holds exactly `depth` addresses, so a negative depth never fills. -/
def push (s : CallStack depth) (address : Int) : Except Error (CallStack depth) :=
  if (s.pointer : Int) = depth then .error (.overflow depth) else .ok ⟨address :: s.addresses⟩

def pop (s : CallStack depth) : Except Error (Int × CallStack depth) :=
  match s.addresses with
  | [] => .error .underflow
  | address :: rest => .ok (address, ⟨rest⟩)

@[simp]
theorem length_items (s : CallStack depth) : s.items.length = s.pointer := by
  simp [items, pointer]

end CallStack

end Chip8
