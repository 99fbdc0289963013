import Chip8.Proofs.Cycle.Outcome

namespace Chip8

structure Step where
  machine : Machine
  instruction : Instruction

namespace Processor

inductive Completes (p : Processor) : Session → List Step → Session → Prop where
  | done {s : Session} : Completes p s [] s
  | keys {s t : Session} {steps : List Step} (keypad : Keypad)
      (h : Completes p { s with machine := { s.machine with keypad } } steps t) : Completes p s steps t
  | cycle {s t u : Session} {i : Instruction} {steps : List Step} (hi : s.machine.Executes i)
      (hc : p.cycle s = .ok () t) (h : Completes p t steps u) :
      Completes p s (⟨s.machine, i⟩ :: steps) u

variable {p : Processor} {s t u : Session} {c : Step} {steps more : List Step}

theorem Completes.uncons (h : p.Completes s (c :: steps) u) :
    ∃ keypad t, c.machine = { s.machine with keypad } ∧ c.machine.Executes c.instruction ∧
      p.cycle { s with machine := c.machine } = .ok () t ∧ p.Completes t steps u := by
  generalize hl : c :: steps = l at h
  induction h with
  | done => cases hl
  | keys keypad _ ih =>
    obtain ⟨keypad', t, hm, hi, hc, hr⟩ := ih hl
    exact ⟨keypad', t, hm, hi, hc, hr⟩
  | @cycle s t u i rest hi hc hr =>
    obtain ⟨rfl, rfl⟩ := List.cons.inj hl
    exact ⟨s.machine.keypad, t, rfl, hi, hc, hr⟩

theorem Completes.of_nil (h : p.Completes s [] t) :
    ∃ keypad, t.machine = { s.machine with keypad } := by
  generalize hl : [] = l at h
  induction h with
  | @done s => exact ⟨s.machine.keypad, rfl⟩
  | keys keypad _ ih => exact ih hl
  | cycle => cases hl

theorem Completes.split (h : p.Completes s (steps ++ more) u) :
    ∃ t, p.Completes s steps t ∧ p.Completes t more u := by
  induction steps generalizing s with
  | nil => exact ⟨s, .done, h⟩
  | cons c steps ih =>
    obtain ⟨keypad, t, hm, hi, hc, hr⟩ := h.uncons
    obtain ⟨v, hs, hv⟩ := ih hr
    refine ⟨v, .keys keypad ?_, hv⟩
    obtain ⟨m, i⟩ := c
    obtain rfl : m = { s.machine with keypad } := hm
    exact .cycle hi hc hs

end Processor

end Chip8
