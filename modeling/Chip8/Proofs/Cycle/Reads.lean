import Chip8.Proofs.Cycle.Result

namespace Chip8

namespace Memory

variable {size : Nat} {m n : Memory size}

/-- The memories `m'` and `n'` are the same where `m` and `n` are, and where these differ each has kept its
byte. -/
structure KeptApart (m n m' n' : Memory size) : Prop where
  same : ∀ a : Nat, m.cells[a]? = n.cells[a]? → m'.cells[a]? = n'.cells[a]?
  kept : ∀ a : Nat, m.cells[a]? ≠ n.cells[a]? →
    m'.cells[a]? = m.cells[a]? ∧ n'.cells[a]? = n.cells[a]?

theorem KeptApart.refl (m n : Memory size) : KeptApart m n m n :=
  ⟨fun _ h => h, fun _ _ => ⟨rfl, rfl⟩⟩

theorem KeptApart.overlay {first : Nat} {block : List UInt8}
    (h : ∀ a, first ≤ a → a < first + block.length → n.cells[a]? = m.cells[a]?) :
    KeptApart m n (m.overlay first block) (n.overlay first block) := by
  constructor
  · intro a ha
    by_cases hi : first ≤ a ∧ a < first + block.length
    · obtain ⟨k, rfl⟩ := Nat.exists_eq_add_of_le hi.1
      exact getElem?_overlay_of_inside m n (by omega)
    · rw [getElem?_overlay_of_outside m first block (by omega),
        getElem?_overlay_of_outside n first block (by omega), ha]
  · intro a ha
    have ho : a < first ∨ first + block.length ≤ a := by
      by_cases hi : first ≤ a ∧ a < first + block.length
      · exact absurd (h a hi.1 hi.2).symm ha
      · omega
    exact ⟨getElem?_overlay_of_outside m first block ho, getElem?_overlay_of_outside n first block ho⟩

theorem slice_congr {location count : Int} (hr : InRange size location count) (hc : 0 ≤ count)
    (h : ∀ a : Nat, location ≤ a → a < location + count → n.cells[a]? = m.cells[a]?) :
    n.slice location (location + count) = m.slice location (location + count) := by
  obtain ⟨first, rfl⟩ := Int.eq_ofNat_of_zero_le hr.1
  obtain ⟨k, rfl⟩ := Int.eq_ofNat_of_zero_le hc
  have hs : first + k ≤ size := by
    have := hr.2
    omega
  have hl := m.length_slice hs
  refine n.slice_eq hr.1 (by rw [hl]) (by omega) fun j hj => ?_
  rw [hl] at hj
  rw [m.getElem?_slice hj]
  exact h _ (by omega) (by omega)

theorem readBlock_congr {location count : Int} (hc : 0 ≤ count)
    (h : ∀ a : Nat, location ≤ a → a < location + count → n.cells[a]? = m.cells[a]?) :
    n.readBlock location count = m.readBlock location count := by
  rw [readBlock, readBlock]
  by_cases hr : InRange size location count
  · rw [if_pos hr, if_pos hr, slice_congr hr hc h]
  · rw [if_neg hr, if_neg hr]

end Memory

namespace Machine

def withMemory (m : Machine) (memory : Memory memorySize) : Machine :=
  { m with memory }

/-- The addresses that the machine may read in its next cycle. -/
def Reads (m : Machine) (a : Nat) : Prop :=
  a = m.pc ∨ a = m.pc + 1 ∨ m.i ≤ a ∧ a < m.i + 16

/-- The machines differ in their memories alone, and these as `first` and `second` do. -/
def Separate (first second : Memory memorySize) (m m' : Machine) : Prop :=
  ∃ memory, m' = m.withMemory memory ∧ Memory.KeptApart first second m.memory memory

theorem Separate.tickTimers {first second : Memory memorySize} {m m' : Machine}
    (h : Separate first second m m') : Separate first second m.tickTimers m'.tickTimers := by
  obtain ⟨memory, rfl, hk⟩ := h
  exact ⟨memory, rfl, hk⟩

theorem fault?_withMemory (i : Instruction) (m : Machine) (memory : Memory memorySize) :
    i.fault? (m.withMemory memory) = i.fault? m := by
  cases i <;> rfl

theorem separate_skipWhen (m : Machine) (memory : Memory memorySize) (condition : Bool) :
    Separate m.memory memory (m.skipWhen condition) ((m.withMemory memory).skipWhen condition) := by
  cases condition <;> exact ⟨memory, rfl, .refl _ _⟩

section Block

variable {m : Machine} {memory : Memory memorySize}
  (h : ∀ a : Nat, m.i ≤ a → a < m.i + 16 → memory.cells[a]? = m.memory.cells[a]?)
include h

theorem slice_withMemory {count : Nat} (hx : m.blockFault? count = none) (hc : count ≤ 16) :
    memory.slice m.i (m.i + count) = m.memory.slice m.i (m.i + count) :=
  Memory.slice_congr (Instruction.inRange_of_blockFault? hx) (by omega) fun a hl hu => h a hl (by omega)

theorem sprite_withMemory {x y : Register} {rows : Fin 16}
    (hx : (Instruction.draw x y rows).fault? m = none) :
    (m.withMemory memory).sprite rows = m.sprite rows := by
  simp only [sprite]
  by_cases h0 : rows = 0
  · rw [if_pos h0, if_pos h0]
  · rw [Instruction.fault?, if_neg h0] at hx
    rw [if_neg h0, if_neg h0]
    exact slice_withMemory h hx (by omega)

theorem overlay_withMemory {block : List UInt8} {count : Int} (hx : m.blockFault? count = none)
    (hc : block.length ≤ 16) :
    Memory.KeptApart m.memory memory (m.memory.overlay m.i.toNat block)
      (memory.overlay m.i.toNat block) := by
  have hi := (Instruction.inRange_of_blockFault? hx).1
  exact .overlay fun a hl hu => h a (by omega) (by omega)

theorem result_withMemory {i : Instruction} (n : Int) (hx : i.fault? m = none) :
    Separate m.memory memory (i.result n m) (i.result n (m.withMemory memory)) := by
  cases i with
  | skipIfByte | skipUnlessByte | skipIfSame | skipUnlessSame | skipIfKey | skipUnlessKey =>
    simp only [Instruction.result]
    exact separate_skipWhen m memory _
  | draw x y rows =>
    refine ⟨memory, ?_, .refl _ _⟩
    simp only [Instruction.result, sprite_withMemory h hx]
    rfl
  | loadRegisters x =>
    have hb : memory.slice m.i (m.i + (x.val + 1)) = m.memory.slice m.i (m.i + (x.val + 1)) :=
      @slice_withMemory m memory h (x.val + 1) hx (by omega)
    simp only [Instruction.result]
    exact ⟨memory, by simp only [withMemory, hb], .refl _ _⟩
  | waitKey x =>
    simp only [Instruction.result, withMemory]
    cases m.keypad.firstPressed <;> exact ⟨memory, rfl, .refl _ _⟩
  | storeDecimal x => exact ⟨_, rfl, overlay_withMemory h hx (by simp [Byte.decimalDigits])⟩
  | storeRegisters x =>
    have hl := Processor.length_firstRegisters m x
    exact ⟨_, rfl, overlay_withMemory h hx (by omega)⟩
  | _ => exact ⟨memory, rfl, .refl _ _⟩

end Block

section Reads

variable {m : Machine} {memory : Memory memorySize}
  (h : ∀ a, m.Reads a → memory.cells[a]? = m.memory.cells[a]?)
include h

theorem fetch_withMemory : (m.withMemory memory).fetch = m.fetch := by
  have hb : memory.readBlock m.pc 2 = m.memory.readBlock m.pc 2 := by
    refine Memory.readBlock_congr (by decide) fun a hl hu => h a ?_
    unfold Reads
    omega
  exact congrArg (Except.map _) hb

theorem instruction?_withMemory : (m.withMemory memory).instruction? = m.instruction? := by
  rw [instruction?, instruction?, fetch_withMemory h]

theorem draws_withMemory : (m.withMemory memory).draws = m.draws := by
  rw [draws, draws, instruction?_withMemory h]
  rfl

theorem line?_withMemory : (m.withMemory memory).line? = m.line? := by
  rw [line?, line?, fetch_withMemory h]
  rfl

theorem error?_withMemory : (m.withMemory memory).error? = m.error? := by
  have hf := fetch_withMemory h
  have hx : (m.withMemory memory).fault? = m.fault? := by
    simp only [Machine.fault?, hf, fault?_withMemory]
  have hr (fault : Fault) : (m.withMemory memory).report fault = m.report fault := by
    rw [report, report, hf]
    rfl
  simp only [error?, hx, hr]
  rfl

theorem cycled_withMemory (n : Int) :
    Separate m.memory memory (m.cycled n) ((m.withMemory memory).cycled n) := by
  refine cycled_related n ⟨memory, rfl, .refl _ _⟩ rfl (instruction?_withMemory h)
    (fun i => fault?_withMemory i m memory) ?_ ⟨memory, rfl, .refl _ _⟩ ?_
  · rw [crashed, crashed, fetch_withMemory h]
    cases m.fetch <;> exact ⟨memory, rfl, .refl _ _⟩
  · intro i _ _ hx
    rw [← Instruction.fault?_advance] at hx
    have hb (a : Nat) (hl : m.i ≤ a) (hu : a < m.i + 16) := h a (.inr (.inr ⟨hl, hu⟩))
    exact (result_withMemory (m := m.advance) hb n hx).tickTimers

end Reads

end Machine

namespace Processor

/-- A cycle reads the memory at the program counter, behind it, and in the sixteen cells from the index
register on. From machines whose memories agree there it ends alike, with the same error if there is one, and
leads to machines that differ in nothing but their memories. Cells that were the same are the same again, and
where they differed each machine has kept its byte. -/
theorem memory_unread (p : Processor) (s : Session) (memory : Memory memorySize)
    (h : ∀ a, s.machine.Reads a → memory.cells[a]? = s.machine.memory.cells[a]?) :
    let t := { s with machine := { s.machine with memory } }
    p.error? t = p.error? s ∧
    ∃ after, p.act .cycle t = { p.act .cycle s with
        machine := { (p.act .cycle s).machine with memory := after } } ∧
      Memory.KeptApart s.machine.memory memory (p.act .cycle s).machine.memory after := by
  intro t
  obtain ⟨after, hm, hk⟩ := Machine.cycled_withMemory h (p.random s.draws)
  have hd : t.machine.draws = s.machine.draws := Machine.draws_withMemory h
  have hl : t.machine.line? = s.machine.line? := Machine.line?_withMemory h
  have ht : t.machine.cycled (p.random t.draws) = (s.machine.cycled (p.random s.draws)).withMemory after := hm
  rw [error?_eq, error?_eq, act_cycle, act_cycle, cycled, cycled, hd, hl, ht]
  exact ⟨Machine.error?_withMemory h, after, rfl, hk⟩

theorem memory_unread_behind_block :
    let p : Processor := ⟨fun _ => -1, false⟩
    let s := Session.start { Machine.initial with
      memory := (Memory.zero _).overlay 0x200 [0xFF, 0x55], i := 0x300 }
    let memory := s.machine.memory.overlay 0x310 [7]
    (∀ a, s.machine.Reads a → memory.cells[a]? = s.machine.memory.cells[a]?) ∧
    ∃ after, (p.act .cycle { s with machine := { s.machine with memory } }).machine =
        { (p.act .cycle s).machine with memory := after } ∧
      (p.act .cycle s).machine.memory.cells[0x310]? = some 0 ∧ after.cells[0x310]? = some 7 := by
  intro p s memory
  have h : ∀ a, s.machine.Reads a → memory.cells[a]? = s.machine.memory.cells[a]? := by
    intro a ha
    have hp : s.machine.pc = 0x200 := rfl
    have hi : s.machine.i = 0x300 := rfl
    have ho : a < 0x310 ∨ 0x310 + [(7 : UInt8)].length ≤ a := by
      unfold Machine.Reads at ha
      rw [List.length_singleton]
      omega
    exact Memory.getElem?_overlay_of_outside s.machine.memory 0x310 [7] ho
  have hs : s.machine.memory.cells[0x310]? = some 0 := by
    rw [Vector.getElem?_eq_getElem (show 0x310 < memorySize by decide)]
    simp [s, Session.start]
  have hm : memory.cells[0x310]? = some 7 := by
    rw [Vector.getElem?_eq_getElem (show 0x310 < memorySize by decide)]
    simp [memory]
  obtain ⟨-, after, ha, hk⟩ := memory_unread p s memory h
  have hb := hk.kept 0x310 (by rw [hs, hm]; decide)
  exact ⟨h, after, by rw [ha], hb.1.trans hs, hb.2.trans hm⟩

end Processor

end Chip8
