import Chip8.Proofs.Cycle.Record

namespace Chip8

namespace Machine

/-- The machine once it has waited in vain for `n` cycles. -/
def waited (m : Machine) (n : Nat) : Machine :=
  { m with
    delay := max (m.delay - n) 0
    sound := max (m.sound - n) 0
    keypad := .released
    awaitingKey := true }

variable {m : Machine} {x : Register}

theorem waited_waited (m : Machine) (n : Nat) : (m.waited n).waited 1 = m.waited (n + 1) := by
  have ht (timer : Int) : max (max (timer - n) 0 - (1 : Nat)) 0 = max (timer - (n + 1 : Nat)) 0 := by omega
  simp only [waited, ht]

theorem cycled_unanswered (n : Int) (hh : m.halted = false) (hi : m.Executes (.waitKey x))
    (hd : 0 ≤ m.delay) (hs : 0 ≤ m.sound) (hk : m.keypad = .released) :
    m.cycled n = m.waited 1 := by
  have hp : m.advance.keypad.firstPressed = none := hk ▸ Keypad.firstPressed_released
  rw [hi.cycled_eq hh rfl, Instruction.result, hp]
  simp only [hi.stepBack_advance]
  simp only [tickTimers, waited, countDown_eq_max hd, countDown_eq_max hs, hk, Int.natCast_one]

theorem cycled_answered (n : Int) (hh : m.halted = false) (hi : m.Executes (.waitKey x))
    {key : Fin 16} (hk : m.keypad.firstPressed = some key) :
    m.cycled n = { m.next.setV x (UInt8.ofNat key.val) with awaitingKey := false } := by
  have hp : m.advance.keypad.firstPressed = some key := hk
  rw [hi.cycled_eq hh rfl, Instruction.result, hp, ← hi.tickTimers_advance]
  rfl

end Machine

namespace Processor

variable {p : Processor} {s : Session} {x : Register} {snapshot : List Keypad.Reading}

theorem turn_unanswered (p : Processor) (hh : s.machine.halted = false)
    (hi : s.machine.Executes (.waitKey x)) (hd : 0 ≤ s.machine.delay) (hs : 0 ≤ s.machine.sound)
    (hk : snapshot.length = 16 ∧ ∀ r ∈ snapshot, r.pressed = false) :
    p.error? (p.act (.keys snapshot) s) = none ∧
      (p.act .cycle (p.act (.keys snapshot) s)).machine = s.machine.waited 1 := by
  have ho := Keypad.offered_of_unpressed (k := s.machine.keypad) hk.1 hk.2
  rw [act_keys, ho, error?_eq, act_cycle]
  exact ⟨Machine.Executes.error?_eq_none hi hh rfl, Machine.cycled_unanswered _ hh hi hd hs rfl⟩

theorem turn_answered (p : Processor) (hh : s.machine.halted = false)
    (hi : s.machine.Executes (.waitKey x)) (hl : snapshot.length = 16)
    (hp : ∃ r ∈ snapshot, r.pressed = true) :
    ∃ (key : Fin 16) (t : Session), snapshot.findIdx? Keypad.Reading.pressed = some key.val ∧
      p.cycle (p.act (.keys snapshot) s) = .ok () t ∧
      t.machine = { s.machine.next.setV x (UInt8.ofNat key.val) with
        keypad := s.machine.keypad.offered snapshot
        awaitingKey := false } := by
  obtain ⟨key, hf, ho⟩ := Keypad.exists_firstPressed_offered (k := s.machine.keypad) hl hp
  rw [act_keys]
  generalize s.machine.keypad.offered snapshot = keypad at ho
  refine ⟨key, p.cycled { s with machine := { s.machine with keypad } }, hf, ?_, ?_⟩
  · exact cycle_of_error?_eq_none (Machine.Executes.error?_eq_none hi hh rfl)
  · exact Machine.cycled_answered (m := { s.machine with keypad }) _ hh hi ho

theorem play_unanswered (p : Processor) (hh : s.machine.halted = false)
    (hi : s.machine.Executes (.waitKey x)) (hd : 0 ≤ s.machine.delay) (hs : 0 ≤ s.machine.sound)
    (keys : Nat → List Keypad.Reading) {n : Nat} (hn : 1 ≤ n)
    (hk : ∀ k < n, (keys k).length = 16 ∧ ∀ r ∈ keys k, r.pressed = false) :
    p.errors (feed keys n) s = List.replicate n none ∧
      (p.play (feed keys n) s).machine = s.machine.waited n := by
  induction hn with
  | refl =>
    obtain ⟨he, hm⟩ := p.turn_unanswered hh hi hd hs (hk 0 (by omega))
    exact ⟨congrArg ([·]) he, hm⟩
  | @step n hn ih =>
    obtain ⟨he, hm⟩ := ih fun k h => hk k (by omega)
    generalize ht : p.play (feed keys n) s = t at hm
    -- the waiting machine has the same word at the same program counter
    have hw : t.machine.Executes (.waitKey x) := by rw [hm]; exact hi
    obtain ⟨he', hm'⟩ := p.turn_unanswered (s := t) (by rw [hm]; exact hh) hw
      (by rw [hm]; exact Int.le_max_right _ _) (by rw [hm]; exact Int.le_max_right _ _) (hk n (by omega))
    rw [errors_feed_succ, play_feed_succ, he, ht, he', hm', hm, Machine.waited_waited,
      List.replicate_succ']
    exact ⟨rfl, rfl⟩

/-- A program that waits for a key completes every cycle while no key is held down, and stays as it is but
for its timers, which run down to zero. The first snapshot with a key held down ends the wait: the lowest
such key is put into the register, and the program goes on behind the instruction. -/
theorem waits_for_key (p : Processor) (s : Session) (x : Register) (hh : s.machine.halted = false)
    (hi : s.machine.Executes (.waitKey x)) (hd : 0 ≤ s.machine.delay) (hs : 0 ≤ s.machine.sound)
    (keys : Nat → List Keypad.Reading) {n : Nat} (hn : 1 ≤ n)
    (hk : ∀ k < n, (keys k).length = 16 ∧ ∀ r ∈ keys k, r.pressed = false) :
    p.errors (feed keys n) s = List.replicate n none ∧
    (p.play (feed keys n) s).machine = { s.machine with
      delay := max (s.machine.delay - n) 0
      sound := max (s.machine.sound - n) 0
      keypad := .released
      awaitingKey := true } ∧
    ∀ snapshot, snapshot.length = 16 → (∃ r ∈ snapshot, r.pressed = true) →
      ∃ (key : Fin 16) (t : Session), snapshot.findIdx? Keypad.Reading.pressed = some key.val ∧
        p.cycle (p.act (.keys snapshot) (p.play (feed keys n) s)) = .ok () t ∧
        t.machine = { s.machine.setV x (UInt8.ofNat key.val) with
          pc := s.machine.pc + 2
          delay := max (s.machine.delay - (n + 1)) 0
          sound := max (s.machine.sound - (n + 1)) 0
          keypad := Keypad.released.offered snapshot
          awaitingKey := false } := by
  obtain ⟨he, hm⟩ := p.play_unanswered hh hi hd hs keys hn hk
  refine ⟨he, hm, fun snapshot hl hp => ?_⟩
  generalize p.play (feed keys n) s = t at hm
  have hw : t.machine.Executes (.waitKey x) := by rw [hm]; exact hi
  obtain ⟨key, u, hf, hc, hu⟩ := p.turn_answered (s := t) (by rw [hm]; exact hh) hw hl hp
  have ht (timer : Int) : Machine.countDown (max (timer - n) 0) = max (timer - (n + 1)) 0 := by
    rw [Machine.countDown_eq_max (by omega)]
    omega
  refine ⟨key, u, hf, hc, ?_⟩
  simp only [hu, hm, Machine.next, Machine.waited, Machine.setV, ht]

def resting : Session :=
  Session.start { Machine.initial with
    memory := (Memory.zero _).overlay 0x200 [0xF1, 0x0A], delay := 3, sound := 1 }

theorem waits_for_key_resting :
    let p : Processor := ⟨fun _ => -1, false⟩
    let keys := fun _ => List.replicate 16 (Keypad.Reading.level 0)
    let held := List.replicate 5 Keypad.Reading.absent ++ List.replicate 11 (.flag true)
    resting.machine.halted = false ∧ resting.machine.Executes (.waitKey 1) ∧
    0 ≤ resting.machine.delay ∧ 0 ≤ resting.machine.sound ∧
    (∀ k < 2, (keys k).length = 16 ∧ ∀ r ∈ keys k, r.pressed = false) ∧
    p.errors (feed keys 2) resting = [none, none] ∧
    (p.play (feed keys 2) resting).machine = { resting.machine with
      delay := 1, sound := 0, keypad := .released, awaitingKey := true } ∧
    ∃ t, p.cycle (p.act (.keys held) (p.play (feed keys 2) resting)) = .ok () t ∧
      t.machine.v.get 1 = 5 ∧ t.machine.pc = 0x202 ∧ t.machine.delay = 0 ∧
      t.machine.awaitingKey = false := by
  intro p keys held
  have hf : resting.machine.fetch = .ok 0xF10A := by
    rw [Machine.fetch_eq (a := 0x200) rfl (by decide)]
    simp [resting, Session.start]
  have hi : resting.machine.Executes (.waitKey 1) := ⟨_, hf, by rfl⟩
  have hk : ∀ k < 2, (keys k).length = 16 ∧ ∀ r ∈ keys k, r.pressed = false := by
    intro k _
    refine ⟨rfl, fun r hr => ?_⟩
    rw [List.eq_of_mem_replicate hr]
    rfl
  obtain ⟨he, hm, ht⟩ := waits_for_key p resting 1 rfl hi (by decide) (by decide) keys (by decide) hk
  obtain ⟨key, t, hl, hc, hu⟩ := ht held rfl ⟨.flag true, by simp [held], rfl⟩
  have hl : key = 5 := by
    have h5 : held.findIdx? Keypad.Reading.pressed = some 5 := by decide
    rw [h5] at hl
    exact (Fin.ext (Option.some.inj hl)).symm
  subst hl
  exact ⟨rfl, hi, by decide, by decide, hk, he, hm, t, hc, by rw [hu]; rfl, by rw [hu]; rfl,
    by rw [hu]; rfl, by rw [hu]⟩

end Processor

end Chip8
