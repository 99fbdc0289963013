import Chip8.Proofs.Cycle.Outcome
import Chip8.Proofs.Instruction.Pattern
import Chip8.Proofs.Machine.Valid

namespace Chip8

namespace Machine

theorem blockFault?_eq_some_iff {m : Machine} {count : Int} {fault : Fault} :
    m.blockFault? count = some fault ↔
      ¬ Memory.InRange memorySize m.i count ∧ fault = .memory ⟨m.i, count, memorySize⟩ := by
  rw [blockFault?]
  split <;> simp [*, eq_comm]

theorem keyFault?_eq_some_iff {m : Machine} {x : Register} {fault : Fault} :
    m.keyFault? x = some fault ↔
      15 < (m.v.get x).toNat ∧ fault = .keypad (.noSuchKey (m.v.get x).toNat) := by
  rw [keyFault?]
  split
  · simp
    omega
  · simp [eq_comm]
    omega

end Machine

namespace Instruction

variable {m : Machine} {i : Instruction}

theorem fault?_memory_iff (hi : 0 ≤ m.i) :
    (∃ e, i.fault? m = some (.memory e)) ↔
      (∃ x y n, i = .draw x y n ∧ 0 < n.val ∧ 0x1000 < m.i + n.val) ∨
      (∃ x, i = .storeDecimal x ∧ 0x1000 < m.i + 3) ∨
      ∃ x, (i = .storeRegisters x ∨ i = .loadRegisters x) ∧ 0x1000 < m.i + x.val + 1 := by
  cases i with
  | draw x y rows =>
    by_cases h0 : rows = 0
    · subst h0
      simp [fault?]
    · have hn : 0 < rows.val := Fin.pos_iff_ne_zero.mpr h0
      have hr := Machine.inRange_iff hi (show (1 : Int) ≤ rows.val by omega)
      simp only [fault?, if_neg h0, Machine.blockFault?_eq_some_iff, hr]
      constructor
      · rintro ⟨e, hb, -⟩
        exact .inl ⟨x, y, rows, rfl, hn, by omega⟩
      · rintro (⟨_, _, _, h, -, hb⟩ | ⟨_, h, -⟩ | ⟨_, h | h, -⟩)
        all_goals cases h
        exact ⟨_, by omega, rfl⟩
  | storeDecimal x =>
    have hr := Machine.inRange_iff hi (show (1 : Int) ≤ 3 by decide)
    simp [fault?, Machine.blockFault?_eq_some_iff, hr]
  | storeRegisters x | loadRegisters x =>
    have hr := Machine.inRange_iff hi (show (1 : Int) ≤ x.val + 1 by omega)
    simp [fault?, Machine.blockFault?_eq_some_iff, hr, Int.add_assoc]
  | _ => simp [fault?, Machine.keyFault?_eq_some_iff]

theorem fault?_stack_iff :
    (∃ e, i.fault? m = some (.stack e)) ↔
      (∃ target, i = .call target ∧ m.stack.pointer = 16) ∨ i = .ret ∧ m.stack.pointer = 0 := by
  cases i with
  | ret => simp [fault?, CallStack.pointer]
  | call target =>
    simp [fault?, stackDepth]
    omega
  | _ => simp [fault?, Machine.blockFault?_eq_some_iff, Machine.keyFault?_eq_some_iff]

theorem fault?_keypad_iff :
    (∃ e, i.fault? m = some (.keypad e)) ↔
      ∃ x, (i = .skipIfKey x ∨ i = .skipUnlessKey x) ∧ 15 < (m.v.get x).toNat := by
  cases i <;> simp [fault?, Machine.blockFault?_eq_some_iff, Machine.keyFault?_eq_some_iff]

theorem fault?_ne_unknown {e : Unknown} : i.fault? m ≠ some (.unknown e) := by
  cases i <;> simp [fault?, Machine.blockFault?_eq_some_iff, Machine.keyFault?_eq_some_iff]

theorem fault?_ne_timer (hv : m.Valid) {value : Int} : i.fault? m ≠ some (.timerTooWide value) := by
  cases i with
  | readDelay x => simp [fault?, hv.delay]
  | _ => simp [fault?, Machine.blockFault?_eq_some_iff, Machine.keyFault?_eq_some_iff]

theorem halts_of_fault? (hv : m.Valid) {fault : Fault} (h : i.fault? m = some fault) :
    fault.halts = true := by
  cases fault with
  | timerTooWide value => exact absurd h (fault?_ne_timer hv)
  | memory | unknown | stack | keypad => rfl

end Instruction

namespace Machine

variable {m : Machine}

theorem fault?_cases (m : Machine) :
    (∃ e, m.fetch = .error e ∧ m.fault? = some (.memory e) ∧ ∀ i, ¬ m.Executes i) ∨
      (∃ word e, m.fetch = .ok word ∧ Instruction.decode word = .error e ∧
        m.fault? = some (.unknown e) ∧ ∀ i, ¬ m.Executes i) ∨
      ∃ i, m.Executes i ∧ m.fault? = i.fault? m := by
  cases hf : m.fetch with
  | error e => exact .inl ⟨e, rfl, by simp [fault?, hf], by simp [Executes, hf]⟩
  | ok word =>
    cases hd : Instruction.decode word with
    | error e =>
      exact .inr (.inl ⟨word, e, rfl, hd, by simp [fault?, hf, hd], by simp [Executes, hf, hd]⟩)
    | ok i =>
      have hi : m.Executes i := ⟨word, hf, hd⟩
      exact .inr (.inr ⟨i, hi, hi.fault?_eq⟩)

theorem fault?_memory_iff (hv : m.Valid) :
    (∃ e, m.fault? = some (.memory e)) ↔
      0xFFE < m.pc ∨
      (∃ x y n, m.Executes (.draw x y n) ∧ 0 < n.val ∧ 0x1000 < m.i + n.val) ∨
      (∃ x, m.Executes (.storeDecimal x) ∧ 0x1000 < m.i + 3) ∨
      ∃ x, (m.Executes (.storeRegisters x) ∨ m.Executes (.loadRegisters x)) ∧
        0x1000 < m.i + x.val + 1 := by
  have hpc := fetch_eq_error_iff hv.pc_nonneg
  obtain ⟨e, hf, hx, -⟩ | ⟨word, e, hf, -, hx, hn⟩ | ⟨i, hi, hx⟩ := m.fault?_cases
  · exact ⟨fun _ => .inl (hpc.mp ⟨e, hf⟩), fun _ => ⟨e, hx⟩⟩
  · have hp : ¬ 0xFFE < m.pc := by simp [← hpc, hf]
    simp [hx, hn, hp]
  · obtain ⟨word, hf, -⟩ := id hi
    have hp : ¬ 0xFFE < m.pc := by simp [← hpc, hf]
    simp only [hx, executes_iff hi, Instruction.fault?_memory_iff hv.i_nonneg, hp, false_or]

theorem fault?_unknown_iff :
    (∃ e, m.fault? = some (.unknown e)) ↔
      ∃ word, m.fetch = .ok word ∧
        ∀ tag ∈ Instruction.tags, ¬ (Word.ofInt word).Matches tag := by
  obtain ⟨e, hf, hx, -⟩ | ⟨word, e, hf, hd, hx, -⟩ | ⟨i, hi, hx⟩ := m.fault?_cases
  · simp [hx, hf]
  · refine ⟨fun _ => ⟨word, hf, ?_⟩, fun _ => ⟨e, hx⟩⟩
    exact (Instruction.decode_eq_error_iff.mp ⟨e, hd⟩)
  · obtain ⟨word, hf, hd⟩ := id hi
    have hm : ¬ ∀ tag ∈ Instruction.tags, ¬ (Word.ofInt word).Matches tag := by
      simp [← Instruction.decode_eq_error_iff, hd]
    simp [hx, hf, hm, Instruction.fault?_ne_unknown]

theorem fault?_stack_iff :
    (∃ e, m.fault? = some (.stack e)) ↔
      (∃ target, m.Executes (.call target) ∧ m.stack.pointer = 16) ∨
        m.Executes .ret ∧ m.stack.pointer = 0 := by
  obtain ⟨e, -, hx, hn⟩ | ⟨word, e, -, -, hx, hn⟩ | ⟨i, hi, hx⟩ := m.fault?_cases
  · simp [hx, hn]
  · simp [hx, hn]
  · simp only [hx, executes_iff hi, Instruction.fault?_stack_iff]

theorem fault?_keypad_iff :
    (∃ e, m.fault? = some (.keypad e)) ↔
      ∃ x, (m.Executes (.skipIfKey x) ∨ m.Executes (.skipUnlessKey x)) ∧
        15 < (m.v.get x).toNat := by
  obtain ⟨e, -, hx, hn⟩ | ⟨word, e, -, -, hx, hn⟩ | ⟨i, hi, hx⟩ := m.fault?_cases
  · simp [hx, hn]
  · simp [hx, hn]
  · simp only [hx, executes_iff hi, Instruction.fault?_keypad_iff]

theorem fault?_ne_timer (hv : m.Valid) {value : Int} : m.fault? ≠ some (.timerTooWide value) := by
  obtain ⟨e, -, hx, -⟩ | ⟨word, e, -, -, hx, -⟩ | ⟨i, -, hx⟩ := m.fault?_cases
  · simp [hx]
  · simp [hx]
  · rw [hx]
    exact Instruction.fault?_ne_timer hv

end Machine

namespace Processor

variable {p : Processor} {s : Session}

/-- The cycle stops the machine with this fault. -/
def Raises (p : Processor) (s : Session) (fault : Fault) : Prop :=
  ∃ report t, p.cycle s = .error (.crashed fault report) t

theorem cycle_cases (p : Processor) (hv : s.machine.Valid) (hh : s.machine.halted = false) :
    (∃ fault trace, s.machine.fault? = some fault ∧
        p.cycle s = .error (.crashed fault (s.machine.report fault))
          { s with machine := s.machine.crashed, trace }) ∨
      ∃ i trace, s.machine.Executes i ∧ i.fault? s.machine = none ∧
        p.cycle s = .ok ()
          { machine := (i.result (p.random s.draws) s.machine.advance).tickTimers,
            draws := s.draws + i.draws, trace } := by
  have ho := p.cycle_outcome s
  generalize p.cycle s = r at ho ⊢
  cases ho with
  | halted hh' =>
    rw [hh] at hh'
    cases hh'
  | @unfetched e _ hf =>
    refine .inl ⟨.memory e, s.trace, ?_, ?_⟩
    · simp only [Machine.fault?, hf]
    · simp only [Machine.report, Machine.crashed, hf, Except.toOption]
  | @unknown word e _ hf hd =>
    refine .inl ⟨.unknown e, s.trace, ?_, ?_⟩
    · simp only [Machine.fault?, hf, hd]
    · simp only [Machine.report, Machine.crashed, hf, Except.toOption]
  | @faulted word i fault _ hf hd hx _ =>
    refine .inl ⟨fault, p.traced s word i, ?_, ?_⟩
    · simp only [Machine.fault?, hf, hd, hx]
    · simp only [Machine.report, Machine.crashed, hf, Except.toOption]
  | aborted _ _ _ hx ht =>
    rw [Instruction.halts_of_fault? hv hx] at ht
    cases ht
  | @completed word i _ hf hd hx => exact .inr ⟨i, p.traced s word i, ⟨word, hf, hd⟩, hx, rfl⟩

theorem raises_iff (hv : s.machine.Valid) (hh : s.machine.halted = false) {fault : Fault} :
    p.Raises s fault ↔ s.machine.fault? = some fault := by
  simp only [Raises]
  obtain ⟨fault', trace, hx, hc⟩ | ⟨i, trace, hi, hx, hc⟩ := p.cycle_cases hv hh
  · simp [hx, hc]
  · simp [hi.fault?_eq, hx, hc]

/-- A running machine within its ranges fails in these cases only: the program counter or a block of
memory lies beyond the end of the memory, the word is no instruction, a call finds the stack full or a
return finds it empty, or a skip asks for a key that does not exist. -/
theorem cycle_fails_iff (hv : s.machine.Valid) (hh : s.machine.halted = false) :
    ((∃ e, p.Raises s (.memory e)) ↔
      0xFFE < s.machine.pc ∨
      (∃ x y n, s.machine.Executes (.draw x y n) ∧ 0 < n.val ∧ 0x1000 < s.machine.i + n.val) ∨
      (∃ x, s.machine.Executes (.storeDecimal x) ∧ 0x1000 < s.machine.i + 3) ∨
      ∃ x, (s.machine.Executes (.storeRegisters x) ∨ s.machine.Executes (.loadRegisters x)) ∧
        0x1000 < s.machine.i + x.val + 1) ∧
    ((∃ e, p.Raises s (.unknown e)) ↔
      ∃ word, s.machine.fetch = .ok word ∧
        ∀ tag ∈ Instruction.tags, ¬ (Word.ofInt word).Matches tag) ∧
    ((∃ e, p.Raises s (.stack e)) ↔
      (∃ target, s.machine.Executes (.call target) ∧ s.machine.stack.pointer = 16) ∨
        s.machine.Executes .ret ∧ s.machine.stack.pointer = 0) ∧
    ((∃ e, p.Raises s (.keypad e)) ↔
      ∃ x, (s.machine.Executes (.skipIfKey x) ∨ s.machine.Executes (.skipUnlessKey x)) ∧
        15 < (s.machine.v.get x).toNat) ∧
    ∀ e t, p.cycle s = .error e t → ∃ fault report, e = .crashed fault report ∧
      ((∃ e, fault = .memory e) ∨ (∃ e, fault = .unknown e) ∨ (∃ e, fault = .stack e) ∨
        ∃ e, fault = .keypad e) := by
  simp only [raises_iff hv hh]
  refine ⟨Machine.fault?_memory_iff hv, Machine.fault?_unknown_iff, Machine.fault?_stack_iff,
    Machine.fault?_keypad_iff, ?_⟩
  intro e t hc
  obtain ⟨fault, trace, hx, hc'⟩ | ⟨i, trace, -, -, hc'⟩ := p.cycle_cases hv hh
  · rw [hc'] at hc
    cases hc
    refine ⟨fault, _, rfl, ?_⟩
    cases fault with
    | timerTooWide value => exact absurd hx (Machine.fault?_ne_timer hv)
    | memory e | unknown e | stack e | keypad e => simp
  · rw [hc'] at hc
    cases hc

theorem cycle_fails_iff_of_long_sprite :
    let s := Session.start { Machine.initial with
      memory := (Memory.zero _).overlay 0x200 [0xD0, 0x15], i := 0xFFC }
    s.machine.Valid ∧ s.machine.halted = false ∧
      ∃ e, (⟨fun _ => -1, false⟩ : Processor).Raises s (.memory e) := by
  intro s
  have hv : s.machine.Valid := ⟨by decide, by decide, by decide, by decide, by decide⟩
  have hf : s.machine.fetch = .ok 0xD015 := by
    rw [Machine.fetch_eq (a := 0x200) rfl (by decide)]
    simp [s, Session.start]
  have hx : s.machine.Executes (.draw 0 1 5) := ⟨0xD015, hf, by rfl⟩
  exact ⟨hv, rfl, (cycle_fails_iff hv rfl).1.mpr (.inr (.inl ⟨0, 1, 5, hx, by decide, by decide⟩))⟩

end Processor

end Chip8
