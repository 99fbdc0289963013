import Chip8.Proofs.Cycle.Outcome
import Chip8.Proofs.Instruction.Footprint
import Chip8.Proofs.Machine.Valid

namespace Chip8

namespace Machine

def next (m : Machine) : Machine :=
  { m with pc := m.pc + 2, delay := countDown m.delay, sound := countDown m.sound }

variable {m : Machine} {i : Instruction}

theorem Executes.pc_range (h : m.Executes i) : 0 ≤ m.pc ∧ m.pc ≤ 0xFFE := by
  obtain ⟨word, hf, -⟩ := h
  have hr : Memory.InRange memorySize m.pc 2 := by
    by_cases hr : Memory.InRange memorySize m.pc 2
    · exact hr
    · rw [fetch, Memory.readBlock, if_neg hr] at hf
      cases hf
  simp only [Memory.InRange, memorySize] at hr
  omega

theorem Executes.tickTimers_advance (h : m.Executes i) : m.advance.tickTimers = m.next := by
  have hp := h.pc_range
  have ha : (m.pc + 2) % 0x10000 = m.pc + 2 := by omega
  simp only [tickTimers, advance, next, ha]

end Machine

namespace Instruction

variable {i : Instruction} {m m' : Machine}

theorem Confined.tickTimers (h : i.Confined m m') : i.Confined m.tickTimers m'.tickTimers :=
  { h with
    delay := h.delay.imp_left (congrArg Machine.countDown)
    sound := h.sound.imp_left (congrArg Machine.countDown) }

theorem Stacks.tickTimers (h : i.Stacks m m') : i.Stacks m.tickTimers m'.tickTimers := by
  cases h with
  | push h => exact .push h
  | pop h => exact .pop h
  | keep hc hr h => exact .keep hc hr h

theorem result_congr {n n' : Int} (h : ∀ x mask, i = random x mask → n = n') :
    i.result n m = i.result n' m := by
  cases i with
  | random x mask => rw [h x mask rfl]
  | _ => rfl

end Instruction

namespace Processor

variable {p : Processor} {s t : Session}

theorem cycle_within {i : Instruction} (hc : p.cycle s = .ok () t) (hi : s.machine.Executes i) :
    i.Confined s.machine.next t.machine ∧ i.Stacks s.machine.next t.machine := by
  obtain ⟨-, word, j, hf, hd, hx, rfl⟩ := cycle_eq_ok_iff.mp hc
  obtain rfl := hi.unique ⟨word, hf, hd⟩
  have ha : i.fault? s.machine.advance = none := by rw [Instruction.fault?_advance, hx]
  -- the instruction runs between the step to the next word and the tick
  rw [← hi.tickTimers_advance]
  exact ⟨(Instruction.result_confined _ ha).tickTimers, (Instruction.result_stacks _ ha).tickTimers⟩

/-- A completed cycle executes one instruction, which changes only what it is documented to change. It
takes one random number if it asks for one, and no other number of the source matters to it. -/
theorem cycle_confined (hc : p.cycle s = .ok () t) :
    ∃ i, s.machine.Executes i ∧
      i.Confined s.machine.next t.machine ∧ i.Stacks s.machine.next t.machine ∧
      t.draws = s.draws + i.draws ∧
      ∀ q : Processor, q.live = p.live →
        (∀ x mask, i = .random x mask → q.random s.draws = p.random s.draws) →
        q.cycle s = .ok () t := by
  obtain ⟨hh, word, i, hf, hd, hx, ht⟩ := cycle_eq_ok_iff.mp hc
  have hi : s.machine.Executes i := ⟨word, hf, hd⟩
  obtain ⟨hw, hs⟩ := cycle_within hc hi
  refine ⟨i, hi, hw, hs, by rw [ht], fun q hl hr => ?_⟩
  refine cycle_eq_ok_iff.mpr ⟨hh, word, i, hf, hd, hx, ?_⟩
  rw [ht, Instruction.result_congr hr, traced, traced, hl]

theorem cycle_confined_of_store :
    let p : Processor := ⟨fun _ => -1, false⟩
    let s := Session.start { Machine.initial with
      memory := (Memory.zero _).overlay 0x200 [0xF1, 0x55], i := 0x300 }
    ∃ t, p.cycle s = .ok () t ∧ t.machine.screen = s.machine.screen ∧
      ∀ a : Nat, a < 0x300 ∨ 0x302 ≤ a →
        t.machine.memory.cells[a]? = s.machine.memory.cells[a]? := by
  intro p s
  have hf : s.machine.fetch = .ok 0xF155 := by
    rw [Machine.fetch_eq (a := 0x200) rfl (by decide)]
    simp [s, Session.start]
  have hi : s.machine.Executes (.storeRegisters 1) := ⟨0xF155, hf, by rfl⟩
  obtain ⟨t, hc⟩ : ∃ t, p.cycle s = .ok () t :=
    ⟨_, cycle_eq_ok_iff.mpr ⟨rfl, 0xF155, .storeRegisters 1, hf, by rfl, by decide, rfl⟩⟩
  obtain ⟨i, hi', h, -⟩ := cycle_confined hc
  obtain rfl := hi.unique hi'
  refine ⟨t, hc, ?_, fun a ha => ?_⟩
  · obtain hs | hs | ⟨x, y, rows, hs⟩ := h.screen
    · exact hs
    · cases hs
    · cases hs
  · obtain hm | hm := h.memory a
    · exact hm
    · have hi : s.machine.next.i = 0x300 := rfl
      have hn : (Instruction.storeRegisters 1).stored = 2 := rfl
      omega

end Processor

end Chip8
