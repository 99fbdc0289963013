import Chip8.Proofs.Cycle.Completes
import Chip8.Proofs.Cycle.Footprint

namespace Chip8

def Instruction.isCall : Instruction → Bool
  | call _ => true
  | _ => false

namespace Processor

variable {p : Processor} {s t : Session} {i : Instruction} {steps : List Step}

theorem cycle_pointer (hc : p.cycle s = .ok () t) (hi : s.machine.Executes i) :
    t.machine.stack.pointer + (if i = .ret then 1 else 0) =
      s.machine.stack.pointer + if i.isCall then 1 else 0 := by
  have hs := (cycle_within hc hi).2
  simp only [CallStack.pointer]
  cases hs with
  | push h =>
    have hr (target : Address) : Instruction.call target ≠ .ret := by simp
    simp only [h, hr, if_false, Instruction.isCall, if_true, List.length_cons, Nat.add_zero]
    rfl
  | pop h =>
    have ha : s.machine.stack.addresses = t.machine.pc :: t.machine.stack.addresses := h
    simp [ha, Instruction.isCall]
  | keep hc hr h =>
    have hn : i.isCall = false := by
      cases i with
      | call target => exact absurd rfl (hc target)
      | _ => rfl
    have ha : t.machine.stack = s.machine.stack := h
    simp [ha, hr, hn]

/-- The depth at the end is the depth at the start with the calls added and the returns taken off. -/
theorem Completes.pointer_add (h : p.Completes s steps t) :
    t.machine.stack.pointer + steps.countP (·.instruction == .ret) =
      s.machine.stack.pointer + steps.countP (·.instruction.isCall) := by
  induction h with
  | done => rfl
  | keys keypad _ ih => exact ih
  | cycle hi hc _ ih =>
    have hp := cycle_pointer hc hi
    simp only [List.countP_cons, beq_iff_eq]
    omega

theorem cycle_bottom {bottom : List Int} (hc : p.cycle s = .ok () t) (hi : s.machine.Executes i)
    (hb : bottom <:+ s.machine.stack.addresses) (hd : bottom.length ≤ t.machine.stack.pointer) :
    bottom <:+ t.machine.stack.addresses := by
  cases (cycle_within hc hi).2 with
  | push h =>
    rw [h]
    exact hb.trans (List.suffix_cons _ _)
  | pop h =>
    have ha : s.machine.stack.addresses = t.machine.pc :: t.machine.stack.addresses := h
    rw [ha, List.suffix_cons_iff] at hb
    obtain rfl | hb := hb
    · simp only [CallStack.pointer, List.length_cons] at hd
      omega
    · exact hb
  | keep _ _ h =>
    rw [h]
    exact hb

/-- The bottom of the stack stays while no session of the run has a lower stack. -/
theorem Completes.bottom {bottom : List Int} (h : p.Completes s steps t)
    (hs : ∀ c ∈ steps, bottom.length ≤ c.machine.stack.pointer)
    (ht : bottom.length ≤ t.machine.stack.pointer) :
    bottom.length ≤ s.machine.stack.pointer ∧
      (bottom <:+ s.machine.stack.addresses → bottom <:+ t.machine.stack.addresses) := by
  -- the depth at the start comes along for the cycle that leads there
  induction h with
  | done => exact ⟨ht, id⟩
  | keys keypad _ ih => exact ih hs ht
  | @cycle s t u i steps hi hc _ ih =>
    obtain ⟨hp, hr⟩ := ih (fun c hc => hs c (List.mem_cons_of_mem _ hc)) ht
    exact ⟨hs _ List.mem_cons_self, fun hb => hr (cycle_bottom hc hi hb hp)⟩

theorem Completes.call_ret {m m' : Machine} {target : Address} {middle : List Step}
    (h : p.Completes s (⟨m, .call target⟩ :: (middle ++ [⟨m', .ret⟩])) t)
    (hd : ∀ c ∈ middle ++ [⟨m', .ret⟩], m.stack.pointer < c.machine.stack.pointer)
    (ht : t.machine.stack.pointer = m.stack.pointer) :
    t.machine.stack = m.stack ∧ t.machine.pc = m.pc + 2 := by
  obtain ⟨-, a, -, hi, hc, hr⟩ := h.uncons
  obtain ⟨b, hmiddle, hlast⟩ := hr.split
  obtain ⟨keypad, d, rfl, hi', hc', hdone⟩ := hlast.uncons
  obtain ⟨keypad', hm⟩ := hdone.of_nil
  have hdepth : ((m.pc + 2) :: m.stack.addresses).length ≤ b.machine.stack.pointer :=
    hd ⟨{ b.machine with keypad }, .ret⟩ (by simp)
  have hpush : a.machine.stack.addresses = (m.pc + 2) :: m.stack.addresses := by
    cases (cycle_within hc hi).2 with
    | push h => exact h
    | keep hn => exact absurd rfl (hn target)
  have hpop : b.machine.stack.addresses = d.machine.pc :: d.machine.stack.addresses := by
    cases (cycle_within hc' hi').2 with
    | pop h => exact h
    | keep _ hn => exact absurd rfl hn
  -- the address that the call has pushed is still the last but the old stack
  have hb : (m.pc + 2) :: m.stack.addresses <:+ b.machine.stack.addresses := by
    refine (hmiddle.bottom ?_ hdepth).2 (hpush ▸ List.suffix_rfl)
    intro c hc
    exact hd c (List.mem_append_left _ hc)
  have hl : d.machine.stack.addresses.length = m.stack.addresses.length := by
    rw [hm] at ht
    exact ht
  rw [hpop] at hb
  have he := hb.eq_of_length (by rw [List.length_cons, List.length_cons, hl])
  obtain ⟨hpc, ha⟩ := List.cons.inj he
  rw [hm]
  exact ⟨congrArg CallStack.mk ha.symm, hpc.symm⟩

/-- In every run the depth of the stack is balanced between calls and returns. A run that begins with a call,
stays deeper than before the call, and ends with a return to the depth before the call, ends with the
stack as it was and behind the call, whatever the instructions in between did. -/
theorem calls_return (h : p.Completes s steps t) :
    t.machine.stack.pointer + steps.countP (·.instruction == .ret) =
      s.machine.stack.pointer + steps.countP (·.instruction.isCall) ∧
    ∀ m target middle m', steps = ⟨m, .call target⟩ :: (middle ++ [⟨m', .ret⟩]) →
      (∀ c ∈ middle ++ [⟨m', .ret⟩], s.machine.stack.pointer < c.machine.stack.pointer) →
      t.machine.stack.pointer = s.machine.stack.pointer →
      t.machine.stack = s.machine.stack ∧ t.machine.pc = s.machine.pc + 2 := by
  refine ⟨h.pointer_add, ?_⟩
  rintro m target middle m' rfl hd ht
  obtain ⟨keypad, -, hm, -⟩ := h.uncons
  obtain rfl : m = { s.machine with keypad } := hm
  exact h.call_ret hd ht

def nestedCalls (pc : Int) (addresses : List Int) : Session :=
  Session.start { Machine.initial with
    memory := (Memory.zero _).overlay 0x200 [0x22, 0x04, 0x00, 0x00, 0x22, 0x06, 0x00, 0xEE]
    pc, stack := ⟨addresses⟩ }

theorem calls_return_nested :
    let p : Processor := ⟨fun _ => -1, false⟩
    p.Completes (nestedCalls 0x200 [0x300])
      [⟨(nestedCalls 0x200 [0x300]).machine, .call 0x204⟩,
        ⟨(nestedCalls 0x204 [0x202, 0x300]).machine, .call 0x206⟩,
        ⟨(nestedCalls 0x206 [0x206, 0x202, 0x300]).machine, .ret⟩,
        ⟨(nestedCalls 0x206 [0x202, 0x300]).machine, .ret⟩]
      (nestedCalls 0x202 [0x300]) ∧
    (nestedCalls 0x202 [0x300]).machine.stack = (nestedCalls 0x200 [0x300]).machine.stack ∧
    (nestedCalls 0x202 [0x300]).machine.pc = (nestedCalls 0x200 [0x300]).machine.pc + 2 := by
  intro p
  have hcall (addresses : List Int) :
      (nestedCalls 0x200 addresses).machine.fetch = .ok 0x2204 := by
    rw [Machine.fetch_eq (a := 0x200) rfl (by decide)]
    simp [nestedCalls, Session.start]
  have hcall' (addresses : List Int) :
      (nestedCalls 0x204 addresses).machine.fetch = .ok 0x2206 := by
    rw [Machine.fetch_eq (a := 0x204) rfl (by decide)]
    simp [nestedCalls, Session.start]
  have hret (addresses : List Int) :
      (nestedCalls 0x206 addresses).machine.fetch = .ok 0x00EE := by
    rw [Machine.fetch_eq (a := 0x206) rfl (by decide)]
    simp [nestedCalls, Session.start]
  have h1 : p.cycle (nestedCalls 0x200 [0x300]) = .ok () (nestedCalls 0x204 [0x202, 0x300]) :=
    cycle_eq_ok_iff.mpr ⟨rfl, _, .call 0x204, hcall _, by rfl, by decide, rfl⟩
  have h2 : p.cycle (nestedCalls 0x204 [0x202, 0x300]) =
      .ok () (nestedCalls 0x206 [0x206, 0x202, 0x300]) :=
    cycle_eq_ok_iff.mpr ⟨rfl, _, .call 0x206, hcall' _, by rfl, by decide, rfl⟩
  have h3 : p.cycle (nestedCalls 0x206 [0x206, 0x202, 0x300]) =
      .ok () (nestedCalls 0x206 [0x202, 0x300]) :=
    cycle_eq_ok_iff.mpr ⟨rfl, _, .ret, hret _, by rfl, by decide, rfl⟩
  have h4 : p.cycle (nestedCalls 0x206 [0x202, 0x300]) = .ok () (nestedCalls 0x202 [0x300]) :=
    cycle_eq_ok_iff.mpr ⟨rfl, _, .ret, hret _, by rfl, by decide, rfl⟩
  have h : p.Completes (nestedCalls 0x200 [0x300])
      [⟨_, .call 0x204⟩, ⟨_, .call 0x206⟩, ⟨_, .ret⟩, ⟨_, .ret⟩] (nestedCalls 0x202 [0x300]) :=
    .cycle ⟨_, hcall _, by rfl⟩ h1 (.cycle ⟨_, hcall' _, by rfl⟩ h2
      (.cycle ⟨_, hret _, by rfl⟩ h3 (.cycle ⟨_, hret _, by rfl⟩ h4 .done)))
  refine ⟨h, (calls_return h).2 _ _ [⟨_, .call 0x206⟩, ⟨_, .ret⟩] _ rfl ?_ rfl⟩
  simp [nestedCalls, Session.start, CallStack.pointer]

end Processor

end Chip8
