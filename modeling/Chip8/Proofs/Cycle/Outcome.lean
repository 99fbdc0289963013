import Chip8.Processor.Cycle
import Chip8.Proofs.Instruction.Effect

namespace Chip8

namespace Machine

def Executes (m : Machine) (i : Instruction) : Prop :=
  ∃ word, m.fetch = .ok word ∧ Instruction.decode word = .ok i

def fault? (m : Machine) : Option Fault :=
  match m.fetch with
  | .error e => some (.memory e)
  | .ok word =>
    match Instruction.decode word with
    | .error e => some (.unknown e)
    | .ok i => i.fault? m

def crashed (m : Machine) : Machine :=
  match m.fetch with
  | .error _ => { m with halted := true }
  | .ok _ => { m.advance with halted := true }

def report (m : Machine) (fault : Fault) : String :=
  m.crashReport m.pc m.fetch.toOption fault

theorem Executes.unique {m : Machine} {i j : Instruction} (hi : m.Executes i) (hj : m.Executes j) :
    i = j := by
  obtain ⟨word, hf, hd⟩ := hi
  obtain ⟨word', hf', hd'⟩ := hj
  rw [hf] at hf'
  obtain rfl := Except.ok.inj hf'
  rw [hd] at hd'
  exact Except.ok.inj hd'

theorem executes_iff {m : Machine} {i j : Instruction} (h : m.Executes i) :
    m.Executes j ↔ i = j :=
  ⟨h.unique, fun he => he ▸ h⟩

theorem Executes.fault?_eq {m : Machine} {i : Instruction} (h : m.Executes i) :
    m.fault? = i.fault? m := by
  obtain ⟨word, hf, hd⟩ := h
  simp only [fault?, hf, hd]

end Machine

theorem Instruction.fault?_advance (i : Instruction) (m : Machine) :
    i.fault? m.advance = i.fault? m := by
  cases i <;> rfl

namespace Processor

def traced (p : Processor) (s : Session) (word : Int) (i : Instruction) : Array String :=
  if p.live then
    s.trace.push (s.machine.advance.dumpLine s.machine.advance.stepBack.pc word i.mnemonic)
  else s.trace

/-- How a cycle can end, and with what. -/
inductive Outcome (p : Processor) (s : Session) :
    EStateM.Result CycleError Session Unit → Prop where
  | halted (hh : s.machine.halted = true) : Outcome p s (.error .halted s)
  | unfetched {e : Memory.OutOfRange} (hh : s.machine.halted = false)
      (hf : s.machine.fetch = .error e) :
      Outcome p s (.error
        (.crashed (.memory e) (s.machine.crashReport s.machine.pc none (.memory e)))
        { s with machine := { s.machine with halted := true } })
  | unknown {word : Int} {e : Instruction.Unknown} (hh : s.machine.halted = false)
      (hf : s.machine.fetch = .ok word) (hd : Instruction.decode word = .error e) :
      Outcome p s (.error
        (.crashed (.unknown e) (s.machine.crashReport s.machine.pc (some word) (.unknown e)))
        { s with machine := { s.machine.advance with halted := true } })
  | faulted {word : Int} {i : Instruction} {fault : Fault} (hh : s.machine.halted = false)
      (hf : s.machine.fetch = .ok word) (hd : Instruction.decode word = .ok i)
      (hx : i.fault? s.machine = some fault) (ht : fault.halts = true) :
      Outcome p s (.error
        (.crashed fault (s.machine.crashReport s.machine.pc (some word) fault))
        { s with machine := { s.machine.advance with halted := true }, trace := p.traced s word i })
  | aborted {word : Int} {i : Instruction} {fault : Fault} (hh : s.machine.halted = false)
      (hf : s.machine.fetch = .ok word) (hd : Instruction.decode word = .ok i)
      (hx : i.fault? s.machine = some fault) (ht : fault.halts = false) :
      Outcome p s (.error (.aborted fault)
        { s with machine := s.machine.advance, trace := p.traced s word i })
  | completed {word : Int} {i : Instruction} (hh : s.machine.halted = false)
      (hf : s.machine.fetch = .ok word) (hd : Instruction.decode word = .ok i)
      (hx : i.fault? s.machine = none) :
      Outcome p s (.ok ()
        { machine := (i.result (p.random s.draws) s.machine.advance).tickTimers,
          draws := s.draws + i.draws, trace := p.traced s word i })

theorem decodeExecute_of_error (p : Processor) (s : Session) {word : Int} {e : Instruction.Unknown}
    (h : Instruction.decode word = .error e) : p.decodeExecute word s = .error (.unknown e) s := by
  rw [decodeExecute, h]
  rfl

theorem decodeExecute_of_ok (p : Processor) (s : Session) {word : Int} {i : Instruction}
    (h : Instruction.decode word = .ok i) :
    p.decodeExecute word { s with machine := s.machine.advance } =
      p.execute i { s with machine := s.machine.advance, trace := p.traced s word i } := by
  rw [decodeExecute, h]
  rw [traced]
  cases p.live <;> rfl

theorem cycle_outcome (p : Processor) (s : Session) : Outcome p s (p.cycle s) := by
  rw [cycle]
  cases hh : s.machine.halted with
  | true => exact .halted hh
  | false =>
    cases hf : s.machine.fetch with
    | error e => exact .unfetched hh hf
    | ok word =>
      cases hd : Instruction.decode word with
      | error e =>
        simp only [decodeExecute_of_error p _ hd]
        exact .unknown hh hf hd
      | ok i =>
        simp only [decodeExecute_of_ok p s hd, execute_eq, Instruction.fault?_advance]
        cases hx : i.fault? s.machine with
        | none => exact .completed hh hf hd hx
        | some fault =>
          cases ht : fault.halts with
          | true =>
            simp only [fail, ht, if_true]
            exact .faulted hh hf hd hx ht
          | false =>
            simp only [fail, ht, Bool.false_eq_true, if_false]
            exact .aborted hh hf hd hx ht

theorem cycle_eq_ok_iff {p : Processor} {s t : Session} :
    p.cycle s = .ok () t ↔ s.machine.halted = false ∧ ∃ word i, s.machine.fetch = .ok word ∧
      Instruction.decode word = .ok i ∧ i.fault? s.machine = none ∧
      t = { machine := (i.result (p.random s.draws) s.machine.advance).tickTimers,
            draws := s.draws + i.draws, trace := p.traced s word i } := by
  constructor
  · intro hc
    have ho := p.cycle_outcome s
    rw [hc] at ho
    cases ho with
    | @completed word i hh hf hd hx => exact ⟨hh, word, i, hf, hd, hx, rfl⟩
  · rintro ⟨hh, word, i, hf, hd, hx, rfl⟩
    have hr : i.fault? s.machine.advance = none := by rw [Instruction.fault?_advance, hx]
    rw [cycle]
    simp only [hh, Bool.false_eq_true, if_false, hf, decodeExecute_of_ok p s hd, execute_eq, hr]

end Processor

end Chip8
