import Chip8.Proofs.Cycle.Completes
import Chip8.Proofs.Cycle.Footprint
import Chip8.Proofs.LastOf

namespace Chip8

inductive Timer where
  | delay
  | sound

namespace Timer

def get : Timer → Machine → Int
  | delay, m => m.delay
  | sound, m => m.sound

def load : Timer → Register → Instruction
  | delay, x => .setDelay x
  | sound, x => .setSound x

variable {timer : Timer}

theorem get_withKeypad (timer : Timer) (m : Machine) (keypad : Keypad) :
    timer.get { m with keypad } = timer.get m := by
  cases timer <;> rfl

theorem get_next (timer : Timer) (m : Machine) : timer.get m.next = Machine.countDown (timer.get m) := by
  cases timer <;> rfl

theorem get_load (timer : Timer) (x : Register) (n : Int) (m : Machine) :
    timer.get ((timer.load x).result n m).tickTimers = Machine.countDown (m.v.get x).toNat := by
  cases timer <;> rfl

theorem get_eq_of_confined {i : Instruction} {m m' : Machine} (h : i.Confined m m')
    (hl : ∀ x, i ≠ timer.load x) : timer.get m' = timer.get m := by
  cases timer with
  | delay => exact h.delay.resolve_right fun ⟨x, hx⟩ => hl x hx
  | sound => exact h.sound.resolve_right fun ⟨x, hx⟩ => hl x hx

end Timer

namespace Processor

variable {p : Processor} {s t : Session} {timer : Timer} {steps : List Step}

theorem cycle_timer {i : Instruction} (hc : p.cycle s = .ok () t) (hi : s.machine.Executes i)
    (hl : ∀ x, i ≠ timer.load x) : timer.get t.machine = Machine.countDown (timer.get s.machine) := by
  rw [Timer.get_eq_of_confined (cycle_within hc hi).1 hl, Timer.get_next]

theorem cycle_load {x : Register} (hc : p.cycle s = .ok () t) (hi : s.machine.Executes (timer.load x)) :
    timer.get t.machine = Machine.countDown (s.machine.v.get x).toNat := by
  obtain ⟨-, word, i, hf, hd, -, rfl⟩ := cycle_eq_ok_iff.mp hc
  obtain rfl := hi.unique ⟨word, hf, hd⟩
  exact Timer.get_load timer x _ _

theorem cycle_readDelay {x : Register} (hc : p.cycle s = .ok () t) (hi : s.machine.Executes (.readDelay x)) :
    ((t.machine.v.get x).toNat : Int) = s.machine.delay := by
  obtain ⟨-, word, i, hf, hd, hx, rfl⟩ := cycle_eq_ok_iff.mp hc
  obtain rfl := hi.unique ⟨word, hf, hd⟩
  have hr : 0 ≤ s.machine.delay ∧ s.machine.delay ≤ 255 := by
    simp only [Instruction.fault?] at hx
    split at hx
    · assumption
    · cases hx
  have hv : ((Instruction.readDelay x).result (p.random s.draws) s.machine.advance).tickTimers.v.get x =
      Byte.low s.machine.delay := Machine.get_setV_self x _ _
  rw [hv, Byte.low, UInt8.toNat_ofNat']
  omega

/-- A timer that is not set runs down by one a cycle until it stands at zero. -/
theorem Completes.runs_down (h : p.Completes s steps t) (h0 : 0 ≤ timer.get s.machine)
    (hl : ∀ c ∈ steps, ∀ x, c.instruction ≠ timer.load x) :
    timer.get t.machine = max (timer.get s.machine - steps.length) 0 := by
  induction h with
  | done =>
    rw [List.length_nil]
    omega
  | @keys s t steps keypad _ ih =>
    rw [Timer.get_withKeypad] at ih
    exact ih h0 hl
  | @cycle s t u i steps hi hc _ ih =>
    have ht := cycle_timer hc hi (hl _ List.mem_cons_self)
    rw [Machine.countDown_eq_max h0] at ht
    rw [ih (by omega) fun c hc => hl c (List.mem_cons_of_mem _ hc), ht, List.length_cons]
    omega

theorem Completes.runs_down_of_load {m : Machine} {x : Register}
    (h : p.Completes s (⟨m, timer.load x⟩ :: steps) t)
    (hl : ∀ c ∈ steps, ∀ x, c.instruction ≠ timer.load x) :
    timer.get t.machine = max ((m.v.get x).toNat - (steps.length + 1) : Int) 0 := by
  obtain ⟨keypad, u, -, hi, hc, hr⟩ := h.uncons
  have hu := cycle_load hc hi
  rw [Machine.countDown_eq_max (Int.natCast_nonneg _)] at hu
  simp only at hu
  rw [hr.runs_down (by omega) hl, hu]
  omega

theorem exists_last_load (steps : List Step) (h : ∃ c ∈ steps, ∃ x, c.instruction = timer.load x) :
    ∃ before m x after, steps = before ++ ⟨m, timer.load x⟩ :: after ∧
      ∀ c ∈ after, ∀ x, c.instruction ≠ timer.load x := by
  obtain ⟨before, ⟨m, i⟩, after, rfl, ⟨x, hx⟩, -, hl⟩ := exists_last h
  obtain rfl : i = timer.load x := hx
  exact ⟨before, m, x, after, rfl, fun c hc y hy => hl c hc ⟨y, hy⟩⟩

/-- In every run a timer that is not set runs down by one a cycle, and stops at zero. If it is set, it runs
down from the number that the register held when it was set last, and the cycle that set it counts as well. An
instruction that reads the delay timer gets the number from before its own cycle's tick. -/
theorem timers_run_down (h : p.Completes s steps t) (timer : Timer) (h0 : 0 ≤ timer.get s.machine) :
    ((∀ c ∈ steps, ∀ x, c.instruction ≠ timer.load x) →
      timer.get t.machine = max (timer.get s.machine - steps.length) 0) ∧
    ((∃ c ∈ steps, ∃ x, c.instruction = timer.load x) →
      ∃ before m x after, steps = before ++ ⟨m, timer.load x⟩ :: after ∧
        (∀ c ∈ after, ∀ x, c.instruction ≠ timer.load x) ∧
        timer.get t.machine = max ((m.v.get x).toNat - (after.length + 1) : Int) 0) ∧
    ∀ before m x after, steps = before ++ ⟨m, .readDelay x⟩ :: after →
      ∃ u w, p.Completes s before u ∧ p.Completes w after t ∧ m.delay = u.machine.delay ∧
        p.cycle { u with machine := m } = .ok () w ∧
        ((w.machine.v.get x).toNat : Int) = m.delay := by
  refine ⟨fun hl => h.runs_down h0 hl, fun hl => ?_, fun before m x after hs => ?_⟩
  · obtain ⟨before, m, x, after, rfl, ha⟩ := exists_last_load steps hl
    obtain ⟨u, -, hr⟩ := h.split
    exact ⟨before, m, x, after, rfl, ha, hr.runs_down_of_load ha⟩
  · subst hs
    obtain ⟨u, hb, hr⟩ := h.split
    obtain ⟨keypad, w, rfl, hi, hc, ha⟩ := hr.uncons
    exact ⟨u, w, hb, ha, rfl, hc, cycle_readDelay (s := { u with machine := _ }) hc hi⟩

def timed (pc delay : Int) (v : Vector UInt8 16) : Session :=
  Session.start { Machine.initial with
    memory := (Memory.zero _).overlay 0x200 [0xF1, 0x15, 0xF2, 0x07], pc, delay, v }

theorem timers_run_down_timed :
    let p : Processor := ⟨fun _ => -1, false⟩
    let v := (Machine.initial.setV 1 3).v
    let steps := [(⟨(timed 0x200 9 v).machine, .setDelay 1⟩ : Step),
      ⟨(timed 0x202 2 v).machine, .readDelay 2⟩]
    0 ≤ Timer.delay.get (timed 0x200 9 v).machine ∧
    (∃ v', p.Completes (timed 0x200 9 v) steps (timed 0x204 1 v')) ∧
    (∃ before m x after, steps = before ++ (⟨m, .setDelay x⟩ : Step) :: after ∧
      1 = max ((m.v.get x).toNat - (after.length + 1) : Int) 0) ∧
    ∃ u w, p.Completes (timed 0x200 9 v) [⟨(timed 0x200 9 v).machine, .setDelay 1⟩] u ∧
      p.cycle { u with machine := (timed 0x202 2 v).machine } = .ok () w ∧
      ((w.machine.v.get 2).toNat : Int) = 2 := by
  intro p v steps
  have hf (delay : Int) (v : Vector UInt8 16) : (timed 0x200 delay v).machine.fetch = .ok 0xF115 := by
    rw [Machine.fetch_eq (a := 0x200) rfl (by decide)]
    simp [timed, Session.start]
  have hf' (delay : Int) (v : Vector UInt8 16) : (timed 0x202 delay v).machine.fetch = .ok 0xF207 := by
    rw [Machine.fetch_eq (a := 0x202) rfl (by decide)]
    simp [timed, Session.start]
  have hc : p.cycle (timed 0x200 9 v) = .ok () (timed 0x202 2 v) :=
    cycle_eq_ok_iff.mpr ⟨rfl, _, .setDelay 1, hf _ _, by rfl, by decide, rfl⟩
  have hc' (v : Vector UInt8 16) : ∃ v', p.cycle (timed 0x202 2 v) = .ok () (timed 0x204 1 v') :=
    ⟨_, cycle_eq_ok_iff.mpr ⟨rfl, _, .readDelay 2, hf' _ _, by rfl, rfl, rfl⟩⟩
  obtain ⟨v', hc'⟩ := hc' v
  have h : p.Completes (timed 0x200 9 v) steps (timed 0x204 1 v') :=
    .cycle ⟨_, hf _ _, by rfl⟩ hc (.cycle ⟨_, hf' _ _, by rfl⟩ hc' .done)
  have h0 : 0 ≤ Timer.delay.get (timed 0x200 9 v).machine := by decide
  obtain ⟨-, hl, hr⟩ := timers_run_down h .delay h0
  obtain ⟨before, m, x, after, hs, -, ht⟩ := hl ⟨_, List.mem_cons_self, 1, rfl⟩
  obtain ⟨u, w, hb, -, -, hw, hv⟩ := hr [⟨_, .setDelay 1⟩] _ 2 [] rfl
  exact ⟨h0, ⟨v', h⟩, ⟨before, m, x, after, hs, ht⟩, u, w, hb, hw, hv⟩

end Processor

end Chip8
