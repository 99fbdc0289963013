import Chip8.Proofs.Instruction.Effect

namespace Chip8

namespace Instruction

def destinations : Instruction → List Register
  | loadByte x _ | addByte x _ | copy x _ | or x _ | and x _ | xor x _ | random x _ | readDelay x
  | waitKey x => [x]
  | add x _ | sub x _ | shiftRight x | subFrom x _ | shiftLeft x => [x, 0xF]
  | draw _ _ _ => [0xF]
  | loadRegisters x => (List.finRange 16).filter (· ≤ x)
  | _ => []

def stored : Instruction → Nat
  | storeDecimal _ => 3
  | storeRegisters x => x.val + 1
  | _ => 0

/-- The program may go on elsewhere than at the next word. -/
def branches : Instruction → Bool
  | ret | jump _ | call _ | jumpFromV0 _ | skipIfByte _ _ | skipUnlessByte _ _ | skipIfSame _ _
  | skipUnlessSame _ _ | skipIfKey _ | skipUnlessKey _ | waitKey _ => true
  | _ => false

/-- What becomes of the stack from a machine `m` to a machine `m'`. -/
inductive Stacks (m m' : Machine) : Instruction → Prop where
  | push {target : Address} (h : m'.stack.addresses = m.pc :: m.stack.addresses) :
      Stacks m m' (call target)
  | pop (h : m.stack.addresses = m'.pc :: m'.stack.addresses) : Stacks m m' ret
  | keep {i : Instruction} (hc : ∀ target, i ≠ call target) (hr : i ≠ ret)
      (h : m'.stack = m.stack) : Stacks m m' i

/-- The machine `m'` differs from `m` in what the instruction is documented to change, the stack left
aside, and in nothing else. -/
structure Confined (i : Instruction) (m m' : Machine) : Prop where
  memory : ∀ a : Nat, m'.memory.cells[a]? = m.memory.cells[a]? ∨ m.i ≤ a ∧ a < m.i + i.stored
  screen : m'.screen = m.screen ∨ i = clearScreen ∨ ∃ x y rows, i = draw x y rows
  index : m'.i = m.i ∨ (∃ target, i = loadIndex target) ∨ ∃ x, i = addIndex x ∨ i = loadGlyph x
  awaitingKey : m'.awaitingKey = m.awaitingKey ∨ ∃ x, i = waitKey x
  delay : m'.delay = m.delay ∨ ∃ x, i = setDelay x
  sound : m'.sound = m.sound ∨ ∃ x, i = setSound x
  v : ∀ r, m'.v.get r = m.v.get r ∨ r ∈ i.destinations
  pc : m'.pc = m.pc ∨ i.branches = true
  keypad : m'.keypad = m.keypad
  halted : m'.halted = m.halted

variable {i : Instruction} {m m' : Machine}

namespace Confined

theorem refl (i : Instruction) (m : Machine) : i.Confined m m where
  memory _ := .inl rfl
  screen := .inl rfl
  index := .inl rfl
  awaitingKey := .inl rfl
  delay := .inl rfl
  sound := .inl rfl
  v _ := .inl rfl
  pc := .inl rfl
  keypad := rfl
  halted := rfl

theorem withV (h : i.Confined m m') {v : Vector UInt8 16}
    (hv : ∀ r, v.get r = m'.v.get r ∨ r ∈ i.destinations) : i.Confined m { m' with v } :=
  { h with
    v := by
      intro r
      obtain hr | hr := hv r
      · exact hr ▸ h.v r
      · exact .inr hr }

theorem setV (h : i.Confined m m') {x : Register} (hx : x ∈ i.destinations) (value : UInt8) :
    i.Confined m (m'.setV x value) := by
  refine h.withV fun r => ?_
  by_cases hr : r = x
  · exact .inr (hr ▸ hx)
  · exact .inl (Machine.get_setV_of_ne hr value m')

theorem setFlag (h : i.Confined m m') (hf : 0xF ∈ i.destinations) (on : Bool) :
    i.Confined m (m'.setFlag on) :=
  h.setV hf _

theorem withPc (h : i.Confined m m') (hb : i.branches = true) (pc : Int) :
    i.Confined m { m' with pc } :=
  { h with pc := .inr hb }

theorem skipWhen (h : i.Confined m m') (hb : i.branches = true) (condition : Bool) :
    i.Confined m (m'.skipWhen condition) := by
  cases condition with
  | false => exact h
  | true => exact h.withPc hb _

theorem overlay (i : Instruction) {block : List UInt8} (hi : 0 ≤ m.i)
    (hl : block.length = i.stored) :
    i.Confined m { m with memory := m.memory.overlay m.i.toNat block } :=
  { refl i m with
    memory := by
      intro a
      by_cases ha : m.i ≤ a ∧ a < m.i + i.stored
      · exact .inr ha
      · exact .inl (m.memory.getElem?_overlay_of_outside _ block (by omega)) }

end Confined

theorem inRange_of_blockFault? {count : Int} (h : m.blockFault? count = none) :
    Memory.InRange memorySize m.i count := by
  rw [Machine.blockFault?] at h
  split at h
  · assumption
  · cases h

theorem length_slice_of_blockFault? {count : Nat} (h : m.blockFault? count = none) :
    (m.memory.slice m.i (m.i + count)).length = count := by
  have hr := inRange_of_blockFault? h
  obtain ⟨first, hf⟩ := Int.eq_ofNat_of_zero_le hr.1
  rw [hf] at hr ⊢
  apply m.memory.length_slice
  have := hr.2
  omega

theorem result_stack (n : Int) (hc : ∀ target, i ≠ call target) (hr : i ≠ ret) :
    (i.result n m).stack = m.stack := by
  cases i with
  | ret => exact absurd rfl hr
  | call target => exact absurd rfl (hc target)
  | skipIfByte | skipUnlessByte | skipIfSame | skipUnlessSame | skipIfKey | skipUnlessKey =>
    simp only [result, Machine.skipWhen]
    split <;> rfl
  | waitKey x =>
    simp only [result]
    cases m.keypad.firstPressed <;> rfl
  | _ => simp only [result, Machine.setV, Machine.setFlag]

theorem result_stacks (n : Int) (hx : i.fault? m = none) : Stacks m (i.result n m) i := by
  cases i with
  | call target => exact .push rfl
  | ret =>
    have hne : m.stack.addresses ≠ [] := fun h => by simp [fault?, h] at hx
    obtain ⟨address, rest, hs⟩ := List.exists_cons_of_ne_nil hne
    exact .pop (by simp only [result, hs, List.headD_cons, List.tail_cons])
  | _ => exact .keep (by simp) (by simp) (result_stack n (by simp) (by simp))

/-- An instruction that meets no fault changes only what it is documented to change. -/
theorem result_confined (n : Int) (hx : i.fault? m = none) : i.Confined m (i.result n m) := by
  cases i with
  | clearScreen => exact { Confined.refl _ m with screen := .inr (.inl rfl) }
  | ret | call | jump | jumpFromV0 => exact { Confined.refl _ m with pc := .inr rfl }
  | skipIfByte | skipUnlessByte | skipIfSame | skipUnlessSame | skipIfKey | skipUnlessKey =>
    exact (Confined.refl _ m).skipWhen rfl _
  | loadByte | addByte | copy | or | and | xor | random | readDelay =>
    exact (Confined.refl _ m).setV (by simp [destinations]) _
  | add | sub =>
    exact ((Confined.refl _ m).setV (by simp [destinations]) _).setFlag (by simp [destinations]) _
  | shiftRight | shiftLeft =>
    exact ((Confined.refl _ m).setV (by simp [destinations]) _).setV (by simp [destinations]) _
  | subFrom =>
    exact ((Confined.refl _ m).setFlag (by simp [destinations]) _).setV (by simp [destinations]) _
  | loadIndex target => exact { Confined.refl _ m with index := .inr (.inl ⟨target, rfl⟩) }
  | addIndex x => exact { Confined.refl _ m with index := .inr (.inr ⟨x, .inl rfl⟩) }
  | loadGlyph x => exact { Confined.refl _ m with index := .inr (.inr ⟨x, .inr rfl⟩) }
  | setDelay x => exact { Confined.refl _ m with delay := .inr ⟨x, rfl⟩ }
  | setSound x => exact { Confined.refl _ m with sound := .inr ⟨x, rfl⟩ }
  | draw x y rows =>
    have hs (screen : Screen screenWidth screenHeight) :
        (draw x y rows).Confined m { m with screen } :=
      { Confined.refl _ m with screen := .inr (.inr ⟨x, y, rows, rfl⟩) }
    exact (hs _).setFlag (by simp [destinations]) _
  | waitKey x =>
    simp only [result]
    cases m.keypad.firstPressed with
    | none =>
      exact { (Confined.refl _ m).withPc rfl _ with awaitingKey := .inr ⟨x, rfl⟩ }
    | some key =>
      exact { (Confined.refl _ m).setV (by simp [destinations]) _ with awaitingKey := .inr ⟨x, rfl⟩ }
  | storeDecimal x => exact .overlay _ (inRange_of_blockFault? hx).1 rfl
  | storeRegisters x =>
    refine .overlay _ (inRange_of_blockFault? hx).1 ?_
    have hl := Processor.length_firstRegisters m x
    simp only [stored]
    omega
  | loadRegisters x =>
    refine (Confined.refl _ m).withV fun r => ?_
    by_cases hr : r ≤ x
    · exact .inr (by simpa [destinations] using hr)
    · left
      have hl : (m.memory.slice m.i (m.i + (x.val + 1))).length = x.val + 1 :=
        length_slice_of_blockFault? hx
      have ho : x.val + 1 ≤ r.val := Nat.lt_of_not_le hr
      have hd : (m.memory.slice m.i (m.i + (x.val + 1))).getD r.val (m.v.get r) = m.v.get r := by
        rw [List.getD_eq_getElem?_getD, List.getElem?_eq_none (by omega), Option.getD_none]
      exact (Vector.getElem_ofFn r.isLt).trans hd

end Instruction

end Chip8
