import Chip8.Proofs.Cycle.Fault
import Chip8.Proofs.Cycle.History
import Chip8.Proofs.Machine.Load

namespace Chip8

namespace Machine

/-- What the registers and the stack can hold once a program runs. -/
structure Bounded (m : Machine) : Prop where
  delay : 0 ≤ m.delay ∧ m.delay ≤ 0xFF
  sound : 0 ≤ m.sound ∧ m.sound ≤ 0xFF
  i : 0 ≤ m.i ∧ m.i ≤ 0xFFFF
  pc : 0 ≤ m.pc ∧ m.pc ≤ 0x10FE
  stack_le : m.stack.pointer ≤ 16
  stack_range : ∀ address ∈ m.stack.addresses, 2 ≤ address ∧ address ≤ 0x1000

/-- A machine that waits for a key is running and stands at the instruction that waits. -/
def WaitsAtKey (m : Machine) : Prop :=
  m.awaitingKey = true → m.halted = false ∧ ∃ x, m.Executes (.waitKey x)

variable {m m' : Machine} {i : Instruction}

theorem Bounded.valid (h : m.Bounded) : m.Valid :=
  ⟨h.delay, h.sound, h.i.1, h.pc.1, h.stack_le⟩

theorem Executes.pc_le (h : m.Executes i) (hp : 0 ≤ m.pc) : m.pc ≤ 0xFFE := by
  obtain ⟨word, hf, -⟩ := h
  exact (fetch_eq_ok_iff hp).mp ⟨word, hf⟩

theorem Executes.congr (h : m.Executes i) (hm : m'.memory = m.memory) (hp : m'.pc = m.pc) :
    m'.Executes i := by
  simp only [Executes, fetch] at h ⊢
  rw [hm, hp]
  exact h

theorem advance_pc (hp : 0 ≤ m.pc ∧ m.pc ≤ 0x10FE) : m.advance.pc = m.pc + 2 := by
  simp only [advance]
  omega

theorem Bounded.of_eq (h : m.Bounded) (hd : m'.delay = m.delay) (hs : m'.sound = m.sound)
    (hi : m'.i = m.i) (hp : m'.pc = m.pc) (ht : m'.stack = m.stack) : m'.Bounded :=
  ⟨hd ▸ h.delay, hs ▸ h.sound, hi ▸ h.i, hp ▸ h.pc, ht ▸ h.stack_le, ht ▸ h.stack_range⟩

theorem Bounded.advance (h : m.Bounded) (hp : m.pc ≤ 0x1000) : m.advance.Bounded := by
  refine ⟨h.delay, h.sound, h.i, ?_, h.stack_le, h.stack_range⟩
  rw [advance_pc h.pc]
  have := h.pc
  omega

theorem Bounded.skipWhen (h : m.Bounded) (hp : m.pc ≤ 0x1000) (condition : Bool) :
    (m.skipWhen condition).Bounded := by
  cases condition with
  | false => exact h
  | true => exact h.advance hp

theorem byte_range (b : UInt8) : 0 ≤ (b.toNat : Int) ∧ (b.toNat : Int) ≤ 0xFF := by
  have := b.toNat_lt
  omega

theorem countDown_range {timer : Int} (h : 0 ≤ timer ∧ timer ≤ 0xFF) :
    0 ≤ countDown timer ∧ countDown timer ≤ 0xFF := by
  rw [countDown]
  split <;> omega

theorem Bounded.tickTimers (h : m.Bounded) : m.tickTimers.Bounded :=
  ⟨countDown_range h.delay, countDown_range h.sound, h.i, h.pc, h.stack_le, h.stack_range⟩

theorem Bounded.withPc (h : m.Bounded) {pc : Int} (hp : 0 ≤ pc ∧ pc ≤ 0x10FE) :
    ({ m with pc } : Machine).Bounded :=
  ⟨h.delay, h.sound, h.i, hp, h.stack_le, h.stack_range⟩

theorem Bounded.withI (h : m.Bounded) {i : Int} (hi : 0 ≤ i ∧ i ≤ 0xFFFF) :
    ({ m with i } : Machine).Bounded :=
  ⟨h.delay, h.sound, hi, h.pc, h.stack_le, h.stack_range⟩

theorem Bounded.ret (h : m.Bounded) (hs : m.stack.addresses ≠ []) :
    ({ m with
      pc := m.stack.addresses.headD 0, stack := ⟨m.stack.addresses.tail⟩ } : Machine).Bounded := by
  obtain ⟨address, rest, hs⟩ := List.exists_cons_of_ne_nil hs
  have hl := h.stack_le
  have ha := h.stack_range address (by rw [hs]; exact List.mem_cons_self)
  rw [CallStack.pointer, hs, List.length_cons] at hl
  simp only [hs, List.headD_cons, List.tail_cons]
  refine ⟨h.delay, h.sound, h.i, by simp only; omega, ?_, ?_⟩
  · simp only [CallStack.pointer]
    omega
  · intro a hr
    exact h.stack_range a (by rw [hs]; exact List.mem_cons_of_mem _ hr)

theorem Bounded.call (h : m.Bounded) (hp : 2 ≤ m.pc ∧ m.pc ≤ 0x1000) (target : Address)
    (hs : (m.stack.pointer : Int) ≠ stackDepth) :
    ({ m with pc := target.val, stack := ⟨m.pc :: m.stack.addresses⟩ } : Machine).Bounded := by
  have ht := target.isLt
  have hl := h.stack_le
  simp only [CallStack.pointer, stackDepth] at hs hl
  refine ⟨h.delay, h.sound, h.i, by simp only; omega, ?_, ?_⟩
  · simp only [CallStack.pointer, List.length_cons]
    omega
  · intro a hr
    obtain rfl | hr := List.mem_cons.mp hr
    · -- the address pushed is the one behind the word that was fetched
      exact hp
    · exact h.stack_range a hr

theorem Bounded.result (h : m.Bounded) (hp : 2 ≤ m.pc ∧ m.pc ≤ 0x1000) (n : Int)
    (hx : i.fault? m = none) : (i.result n m).Bounded := by
  cases i with
  | ret => exact h.ret fun hs => by simp [Instruction.fault?, hs] at hx
  | call target => exact h.call hp target fun hs => by simp [Instruction.fault?, hs] at hx
  | jump target =>
    have ht := target.isLt
    exact h.withPc (by omega)
  | jumpFromV0 target =>
    have ht := target.isLt
    have hv := (m.v.get 0).toNat_lt
    exact h.withPc (by omega)
  | skipIfByte x byte => exact h.skipWhen hp.2 _
  | skipUnlessByte x byte => exact h.skipWhen hp.2 _
  | skipIfSame x y => exact h.skipWhen hp.2 _
  | skipUnlessSame x y => exact h.skipWhen hp.2 _
  | skipIfKey x => exact h.skipWhen hp.2 _
  | skipUnlessKey x => exact h.skipWhen hp.2 _
  | waitKey x =>
    simp only [Instruction.result]
    cases m.keypad.firstPressed with
    | none =>
      have hb : m.stepBack.Bounded := h.withPc (by omega)
      exact hb.of_eq rfl rfl rfl rfl rfl
    | some key => exact h.of_eq rfl rfl rfl rfl rfl
  | setDelay x => exact ⟨byte_range _, h.sound, h.i, h.pc, h.stack_le, h.stack_range⟩
  | setSound x => exact ⟨h.delay, byte_range _, h.i, h.pc, h.stack_le, h.stack_range⟩
  | loadIndex target =>
    have ht := target.isLt
    exact h.withI (by omega)
  | addIndex x => exact h.withI (by omega)
  | loadGlyph x =>
    have ha : Font.address (m.v.get x).toNat ≤ 0xFF := by
      simp only [Font.address, Font.location, Font.glyphSize]
      omega
    exact h.withI (by omega)
  | _ =>
    simp only [Instruction.result]
    exact h.of_eq rfl rfl rfl rfl rfl

theorem Bounded.crashed (h : m.Bounded) : m.crashed.Bounded := by
  cases hf : m.fetch with
  | error e =>
    simp only [Machine.crashed, hf]
    exact h.of_eq rfl rfl rfl rfl rfl
  | ok word =>
    have hp := (fetch_eq_ok_iff h.pc.1).mp ⟨word, hf⟩
    simp only [Machine.crashed, hf]
    exact (h.advance (by omega)).of_eq rfl rfl rfl rfl rfl

theorem Bounded.completed (h : m.Bounded) (hi : m.Executes i) (hx : i.fault? m = none) (n : Int) :
    (i.result n m.advance).tickTimers.Bounded := by
  have hp := hi.pc_le h.pc.1
  have hpc := h.pc
  have ha := advance_pc h.pc
  have hb : m.advance.Bounded := h.advance (by omega)
  exact (hb.result (by omega) n (by rw [Instruction.fault?_advance, hx])).tickTimers

theorem result_awaitingKey (i : Instruction) (n : Int) (m : Machine) :
    (i.result n m).awaitingKey = m.awaitingKey ∨ ∃ x, i = .waitKey x := by
  cases i with
  | waitKey x => exact .inr ⟨x, rfl⟩
  | skipIfByte | skipUnlessByte | skipIfSame | skipUnlessSame | skipIfKey | skipUnlessKey =>
    refine .inl ?_
    simp only [Instruction.result, skipWhen]
    split <;> rfl
  | _ => exact .inl (by simp only [Instruction.result, setV, setFlag])

theorem result_waitKey (x : Register) (n : Int) (h : m.Bounded) :
    ((Instruction.waitKey x).result n m.advance).awaitingKey = true →
      ((Instruction.waitKey x).result n m.advance).halted = m.halted ∧
      ((Instruction.waitKey x).result n m.advance).memory = m.memory ∧
      ((Instruction.waitKey x).result n m.advance).pc = m.pc := by
  have hpc := h.pc
  simp only [Instruction.result]
  cases m.advance.keypad.firstPressed with
  | none =>
    intro _
    refine ⟨rfl, rfl, ?_⟩
    simp only [stepBack, advance_pc hpc]
    omega
  | some key =>
    intro ha
    cases ha

theorem WaitsAtKey.of_eq (h : m.WaitsAtKey) (ha : m'.awaitingKey = m.awaitingKey)
    (hh : m'.halted = m.halted) (hm : m'.memory = m.memory) (hp : m'.pc = m.pc) :
    m'.WaitsAtKey := by
  intro ht
  obtain ⟨hh', x, hx⟩ := h (ha ▸ ht)
  exact ⟨hh ▸ hh', x, hx.congr hm hp⟩

theorem WaitsAtKey.crashed (h : m.WaitsAtKey) {fault : Fault} (hx : m.fault? = some fault) :
    m.crashed.WaitsAtKey := by
  intro ht
  have ha : m.awaitingKey = true := by
    rw [Machine.crashed] at ht
    split at ht <;> exact ht
  obtain ⟨-, x, hw⟩ := h ha
  rw [hw.fault?_eq] at hx
  cases hx

theorem WaitsAtKey.completed (h : m.WaitsAtKey) (hb : m.Bounded) (hh : m.halted = false)
    (hi : m.Executes i) (n : Int) : (i.result n m.advance).tickTimers.WaitsAtKey := by
  intro ht
  have ha : (i.result n m.advance).awaitingKey = true := ht
  obtain hr | ⟨x, rfl⟩ := result_awaitingKey i n m.advance
  · -- another instruction does not touch the flag, so it would be one that waits
    obtain ⟨-, x, hw⟩ := h (hr ▸ ha)
    obtain rfl := hi.unique hw
    obtain ⟨hh', hm, hp⟩ := result_waitKey x n hb ha
    exact ⟨hh'.trans hh, x, hw.congr hm hp⟩
  · obtain ⟨hh', hm, hp⟩ := result_waitKey x n hb ha
    exact ⟨hh'.trans hh, x, hi.congr hm hp⟩

theorem loadProgram_of_length_le (m : Machine) {program : List UInt8}
    (h : program.length ≤ 0xE00) : ∃ m', m.loadProgram program = .ok m' :=
  ⟨_, m.loadProgram_eq h⟩

theorem bounded_initial : initial.Bounded where
  delay := by decide
  sound := by decide
  i := by decide
  pc := by decide
  stack_le := by decide
  stack_range := by
    intro address ha
    cases ha

theorem bounded_loadProgram {program : List UInt8} (h : initial.loadProgram program = .ok m) :
    m.Bounded ∧ m.WaitsAtKey := by
  obtain ⟨-, rfl⟩ := eq_of_loadProgram h
  refine ⟨bounded_initial.of_eq rfl rfl rfl rfl rfl, ?_⟩
  intro ha
  cases ha

end Machine

namespace Processor

variable {p : Processor} {s : Session}

theorem act_bounded (p : Processor) (a : Act) (h : s.machine.Bounded ∧ s.machine.WaitsAtKey) :
    (p.act a s).machine.Bounded ∧ (p.act a s).machine.WaitsAtKey := by
  cases a with
  | keys snapshot =>
    simp only [act]
    cases s.machine.keypad.setKeys snapshot with
    | error e => exact h
    | ok keypad => exact ⟨h.1.of_eq rfl rfl rfl rfl rfl, h.2.of_eq rfl rfl rfl rfl⟩
  | cycle =>
    cases hh : s.machine.halted with
    | true =>
      simp only [act, cycle_of_halted hh]
      exact h
    | false =>
      obtain ⟨fault, trace, hx, hc⟩ | ⟨i, trace, hi, hx, hc⟩ := p.cycle_cases h.1.valid hh
      · simp only [act, hc]
        exact ⟨h.1.crashed, h.2.crashed hx⟩
      · simp only [act, hc]
        exact ⟨h.1.completed hi hx _, h.2.completed h.1 hh hi _⟩

theorem play_bounded (p : Processor) (h : s.machine.Bounded ∧ s.machine.WaitsAtKey)
    (acts : List Act) :
    (p.play acts s).machine.Bounded ∧ (p.play acts s).machine.WaitsAtKey :=
  -- waiting takes the program counter back, which stays in range only at the instruction that waits
  play_induction (P := fun s => s.machine.Bounded ∧ s.machine.WaitsAtKey) h
    (fun a _ => p.act_bounded a) acts

/-- Whatever program a new machine runs, whatever keys are pressed between its cycles and whatever
numbers the random source returns, the machine keeps to its ranges, also when a fault stops it. The program
counter stays so far below its sixteen bits that stepping, skipping, stepping back and jumping never
wrap. A machine that waits for a key is running and stands at the instruction that waits. -/
theorem reached_bounded (p : Processor) (program : List UInt8) (h : program.length ≤ 0xE00) :
    ∃ m, Machine.initial.loadProgram program = .ok m ∧ ∀ acts,
      let r := (p.play acts (Session.start m)).machine
      r.Bounded ∧ r.WaitsAtKey ∧
      (r.advance.pc = r.pc + 2 ∧ r.advance.advance.pc = r.pc + 4 ∧ r.advance.stepBack.pc = r.pc ∧
        ∀ n target, ((Instruction.jumpFromV0 target).result n r).pc = (r.v.get 0).toNat + target.val) ∧
      (r.memory.toList.length = 0x1000 ∧ ∀ b ∈ r.memory.toList, b.toNat ≤ 0xFF) ∧
      (r.v.toList.length = 16 ∧ ∀ b ∈ r.v.toList, b.toNat ≤ 0xFF) ∧
      (r.screen.cells.toList.length = 2048 ∧ ∀ on ∈ r.screen.cells.toList, on.toNat ≤ 1) ∧
      r.keypad.keys.toList.length = 16 ∧ ∀ down ∈ r.keypad.keys.toList, down.toNat ≤ 1 := by
  obtain ⟨m, hm⟩ := Machine.initial.loadProgram_of_length_le h
  refine ⟨m, hm, fun acts => ?_⟩
  intro r
  have hr : r.Bounded ∧ r.WaitsAtKey := p.play_bounded (Machine.bounded_loadProgram hm) acts
  clear_value r
  have hb : ∀ b : UInt8, b.toNat ≤ 0xFF := fun b => Nat.le_of_lt_succ b.toNat_lt
  have hpc := hr.1.pc
  refine ⟨hr.1, hr.2, ⟨?_, ?_, ?_, fun n target => ?_⟩, ⟨Vector.length_toList, fun b _ => hb b⟩,
    ⟨Vector.length_toList, fun b _ => hb b⟩, ⟨?_, fun on _ => on.toNat_le⟩,
    Vector.length_toList, fun down _ => down.toNat_le⟩
  · exact Machine.advance_pc hpc
  · simp only [Machine.advance]
    omega
  · simp only [Machine.advance, Machine.stepBack]
    omega
  · have ht := target.isLt
    have hv := (r.v.get 0).toNat_lt
    simp only [Instruction.result]
    omega
  · rw [Vector.length_toList]
    rfl

theorem reached_bounded_waiting :
    [0xF0, 0x0A, 0x12, 0x00].length ≤ 0xE00 ∧
    ∃ m, Machine.initial.loadProgram [0xF0, 0x0A, 0x12, 0x00] = .ok m ∧ ∀ acts,
      ((⟨fun _ => -1, false⟩ : Processor).play acts (Session.start m)).machine.Bounded ∧
      ((⟨fun _ => -1, false⟩ : Processor).play acts (Session.start m)).machine.WaitsAtKey := by
  have hl : [0xF0, 0x0A, 0x12, 0x00].length ≤ 0xE00 := by decide
  obtain ⟨m, hm, hr⟩ := reached_bounded ⟨fun _ => -1, false⟩ [0xF0, 0x0A, 0x12, 0x00] hl
  exact ⟨hl, m, hm, fun acts => ⟨(hr acts).1, (hr acts).2.1⟩⟩

end Processor

end Chip8
