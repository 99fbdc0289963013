import Chip8.Proofs.Cycle.Footprint
import Chip8.Proofs.Cycle.History

namespace Chip8

namespace Machine

def instruction? (m : Machine) : Option Instruction :=
  match m.fetch with
  | .error _ => none
  | .ok word =>
    match Instruction.decode word with
    | .error _ => none
    | .ok i => some i

def error? (m : Machine) : Option CycleError :=
  if m.halted then some .halted
  else m.fault?.map fun fault =>
    if fault.halts then .crashed fault (m.report fault) else .aborted fault

/-- The machine after a cycle, completed or not, where `n` is the random number at hand. -/
def cycled (n : Int) (m : Machine) : Machine :=
  if m.halted then m
  else match m.instruction? with
    | none => m.crashed
    | some i =>
      match i.fault? m with
      | some fault => if fault.halts then m.crashed else m.advance
      | none => (i.result n m.advance).tickTimers

def draws (m : Machine) : Nat :=
  if m.halted then 0
  else match m.instruction? with
    | none => 0
    | some i => i.draws

/-- The line that is printed in a cycle, with the machine as it stands before the cycle. -/
def line? (m : Machine) : Option String :=
  if m.halted then none
  else match m.fetch with
    | .error _ => none
    | .ok word =>
      match Instruction.decode word with
      | .error _ => none
      | .ok i => some (m.dumpLine m.pc word i.mnemonic)

variable {m : Machine} {i : Instruction}

theorem instruction?_eq_some_iff : m.instruction? = some i ↔ m.Executes i := by
  rw [instruction?, Executes]
  cases hf : m.fetch with
  | error e => simp
  | ok word => cases hd : Instruction.decode word <;> simp [hd]

theorem Executes.instruction?_eq (h : m.Executes i) : m.instruction? = some i :=
  instruction?_eq_some_iff.mpr h

theorem Executes.error?_eq_none (h : m.Executes i) (hh : m.halted = false) (hx : i.fault? m = none) :
    m.error? = none := by
  simp only [error?, hh, h.fault?_eq, hx, Bool.false_eq_true, if_false, Option.map_none]

theorem Executes.cycled_eq (h : m.Executes i) (hh : m.halted = false) (hx : i.fault? m = none) (n : Int) :
    m.cycled n = (i.result n m.advance).tickTimers := by
  simp only [cycled, hh, h.instruction?_eq, hx, Bool.false_eq_true, if_false]

theorem Executes.stepBack_advance (h : m.Executes i) : m.advance.stepBack = m := by
  have hp := h.pc_range
  have hb : ((m.pc + 2) % 0x10000 - 2) % 0x10000 = m.pc := by omega
  simp only [advance, stepBack, hb]

/-- Two machines at the same instruction that meet the same fault there stay related in a cycle if the
instruction keeps them related. -/
theorem cycled_related {R : Machine → Machine → Prop} {m' : Machine} (n : Int) (h : R m m')
    (hh : m'.halted = m.halted) (hi : m'.instruction? = m.instruction?)
    (hx : ∀ i : Instruction, i.fault? m' = i.fault? m) (hcrashed : R m.crashed m'.crashed)
    (hadvance : R m.advance m'.advance)
    (hresult : ∀ i : Instruction, m.halted = false → m.Executes i → i.fault? m = none →
      R (i.result n m.advance).tickTimers (i.result n m'.advance).tickTimers) :
    R (m.cycled n) (m'.cycled n) := by
  rw [cycled, cycled, hh, hi]
  cases hm : m.halted with
  | true => exact h
  | false =>
    cases hj : m.instruction? with
    | none => exact hcrashed
    | some i =>
      simp only [hx, Bool.false_eq_true, if_false]
      cases hf : i.fault? m with
      | none => exact hresult i hm (instruction?_eq_some_iff.mp hj) hf
      | some fault =>
        simp only
        cases fault.halts with
        | true => exact hcrashed
        | false => exact hadvance

end Machine

theorem Instruction.draws_of_fault? {i : Instruction} {m : Machine} {fault : Fault}
    (h : i.fault? m = some fault) : i.draws = 0 := by
  cases i with
  | random x mask => cases h
  | _ => rfl

namespace Processor

variable {p : Processor} {s : Session}

def error? (p : Processor) (s : Session) : Option CycleError :=
  match p.cycle s with
  | .ok _ _ => none
  | .error e _ => some e

def cycled (p : Processor) (s : Session) : Session where
  machine := s.machine.cycled (p.random s.draws)
  draws := s.draws + s.machine.draws
  trace := if p.live then s.trace ++ s.machine.line?.toArray else s.trace

theorem traced_eq {word : Int} {i : Instruction} (hf : s.machine.fetch = .ok word)
    (hd : Instruction.decode word = .ok i) :
    p.traced s word i = if p.live then
      s.trace ++ #[s.machine.dumpLine s.machine.pc word i.mnemonic] else s.trace := by
  have hi : s.machine.Executes i := ⟨word, hf, hd⟩
  rw [traced, hi.stepBack_advance, Array.push_eq_append]
  rfl

theorem cycle_eq (p : Processor) (s : Session) :
    p.cycle s = match s.machine.error? with
      | none => .ok () (p.cycled s)
      | some e => .error e (p.cycled s) := by
  have ho := p.cycle_outcome s
  generalize p.cycle s = r at ho ⊢
  simp only [cycled, Machine.error?, Machine.fault?, Machine.cycled, Machine.instruction?, Machine.draws,
    Machine.line?]
  cases ho with
  | halted hh => simp [hh]
  | unfetched hh hf => simp [hh, hf, Machine.report, Machine.crashed, Fault.halts, Except.toOption]
  | unknown hh hf hd => simp [hh, hf, hd, Machine.report, Machine.crashed, Fault.halts, Except.toOption]
  | faulted hh hf hd hx ht =>
    simp [hh, hf, hd, hx, ht, Machine.report, Machine.crashed, Except.toOption, traced_eq hf hd,
      Instruction.draws_of_fault? hx]
  | aborted hh hf hd hx ht =>
    simp [hh, hf, hd, hx, ht, traced_eq hf hd, Instruction.draws_of_fault? hx]
  | completed hh hf hd hx => simp [hh, hf, hd, hx, traced_eq hf hd]

theorem error?_eq (p : Processor) (s : Session) : p.error? s = s.machine.error? := by
  rw [error?, cycle_eq]
  cases s.machine.error? <;> rfl

theorem cycle_of_error?_eq_none (h : s.machine.error? = none) : p.cycle s = .ok () (p.cycled s) := by
  rw [cycle_eq, h]

theorem act_cycle (p : Processor) (s : Session) : p.act .cycle s = p.cycled s := by
  rw [act, cycle_eq]
  cases s.machine.error? <;> rfl

end Processor

end Chip8
