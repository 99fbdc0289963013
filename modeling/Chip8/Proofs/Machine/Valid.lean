import Chip8.Machine

namespace Chip8.Machine

/-- The registers of the machine are within range. The sizes of the memory, the screen and the keypad
are in their types, and so are the ranges of their cells and of the general registers. -/
structure Valid (m : Machine) : Prop where
  delay : 0 ≤ m.delay ∧ m.delay ≤ 0xFF
  sound : 0 ≤ m.sound ∧ m.sound ≤ 0xFF
  i_nonneg : 0 ≤ m.i
  pc_nonneg : 0 ≤ m.pc
  stack_le : m.stack.pointer ≤ 16

theorem inRange_iff {location count : Int} (hl : 0 ≤ location) (hc : 1 ≤ count) :
    Memory.InRange memorySize location count ↔ location + count ≤ 0x1000 := by
  simp only [Memory.InRange, memorySize]
  omega

theorem fetch_eq {m : Machine} {a : Nat} (hpc : m.pc = a) (ha : a + 1 < memorySize) :
    m.fetch = .ok (256 * m.memory.cells[a].toNat + m.memory.cells[a + 1].toNat : Int) := by
  have hr : Memory.InRange memorySize m.pc 2 := by
    simp only [Memory.InRange]
    omega
  have hs : m.memory.slice a (a + 2) = [m.memory.cells[a], m.memory.cells[a + 1]] := by
    refine m.memory.slice_eq (by omega) rfl (by omega) fun k hk => ?_
    obtain rfl | rfl : k = 0 ∨ k = 1 := by
      simp only [List.length_cons, List.length_nil] at hk
      omega
    · exact Vector.getElem?_eq_getElem _
    · exact Vector.getElem?_eq_getElem _
  rw [fetch, Memory.readBlock, if_pos hr, hpc, hs]
  simp [Except.map]

theorem fetch_eq_ok_iff {m : Machine} (h : 0 ≤ m.pc) :
    (∃ word, m.fetch = .ok word) ↔ m.pc ≤ 0xFFE := by
  have hr := inRange_iff h (show (1 : Int) ≤ 2 by decide)
  rw [fetch, Memory.readBlock]
  by_cases hp : m.pc ≤ 0xFFE
  · rw [if_pos (hr.mpr (by omega))]
    exact ⟨fun _ => hp, fun _ => ⟨_, rfl⟩⟩
  · rw [if_neg fun h' => hp (by have := hr.mp h'; omega)]
    refine ⟨?_, fun h' => absurd h' hp⟩
    rintro ⟨word, hw⟩
    cases hw

theorem fetch_eq_error_iff {m : Machine} (h : 0 ≤ m.pc) :
    (∃ e, m.fetch = .error e) ↔ 0xFFE < m.pc := by
  rw [← Int.not_le, ← fetch_eq_ok_iff h]
  cases m.fetch <;> simp

end Chip8.Machine
