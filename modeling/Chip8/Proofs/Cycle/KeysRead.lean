import Chip8.Proofs.Cycle.Record

namespace Chip8

namespace Machine

def withKeypad (m : Machine) (keypad : Keypad) : Machine :=
  { m with keypad }

/-- The snapshots say the same of whatever the machine asks the keypad in its next cycle. -/
structure SameAnswers (m : Machine) (a b : List Keypad.Reading) : Prop where
  skip : ∀ x, m.Executes (.skipIfKey x) ∨ m.Executes (.skipUnlessKey x) → (m.v.get x).toNat ≤ 15 →
    a[(m.v.get x).toNat]?.map Keypad.Reading.pressed = b[(m.v.get x).toNat]?.map Keypad.Reading.pressed
  wait : ∀ x, m.Executes (.waitKey x) →
    a.findIdx? Keypad.Reading.pressed = b.findIdx? Keypad.Reading.pressed

variable {m : Machine} {keypad keypad' : Keypad} {a b : List Keypad.Reading}

theorem keyDown_eq (m : Machine) (x : Register) :
    m.keyDown x = if h : (m.v.get x).toNat < 16 then m.keypad.keys.get ⟨_, h⟩ else false := by
  unfold keyDown
  rw [Processor.isPressed_byte]
  by_cases h : (m.v.get x).toNat < 16
  · simp only [dif_pos h]
    rfl
  · simp only [dif_neg h]

theorem keyDown_withKeypad {x : Register}
    (h : ∀ key : Fin 16, key.val = (m.v.get x).toNat → keypad.keys.get key = m.keypad.keys.get key) :
    (m.withKeypad keypad).keyDown x = m.keyDown x := by
  simp only [keyDown_eq, withKeypad]
  by_cases hx : (m.v.get x).toNat < 16
  · simp only [dif_pos hx, h ⟨_, hx⟩ rfl]
  · simp only [dif_neg hx]

theorem skipWhen_withKeypad (m : Machine) (keypad : Keypad) (condition : Bool) :
    (m.withKeypad keypad).skipWhen condition = (m.skipWhen condition).withKeypad keypad := by
  cases condition <;> rfl

theorem fault?_withKeypad (i : Instruction) (m : Machine) (keypad : Keypad) :
    i.fault? (m.withKeypad keypad) = i.fault? m := by
  cases i <;> rfl

theorem crashed_withKeypad (m : Machine) (keypad : Keypad) :
    (m.withKeypad keypad).crashed = m.crashed.withKeypad keypad := by
  have hf : (m.withKeypad keypad).fetch = m.fetch := rfl
  rw [crashed, crashed, hf]
  cases m.fetch <;> rfl

theorem error?_withKeypad (m : Machine) (keypad : Keypad) :
    (m.withKeypad keypad).error? = m.error? := by
  have hf : (m.withKeypad keypad).fault? = m.fault? := by
    rw [Machine.fault?, Machine.fault?]
    simp only [fault?_withKeypad]
    rfl
  rw [error?, error?, hf]
  rfl

theorem result_withKeypad {i : Instruction} (n : Int)
    (hd : ∀ x, i = .skipIfKey x ∨ i = .skipUnlessKey x →
      (m.withKeypad keypad).keyDown x = m.keyDown x)
    (hp : ∀ x, i = .waitKey x → keypad.firstPressed = m.keypad.firstPressed) :
    i.result n (m.withKeypad keypad) = (i.result n m).withKeypad keypad := by
  cases i with
  | skipIfKey x => simp only [Instruction.result, hd x (.inl rfl), skipWhen_withKeypad]
  | skipUnlessKey x => simp only [Instruction.result, hd x (.inr rfl), skipWhen_withKeypad]
  | waitKey x =>
    simp only [Instruction.result, withKeypad, hp x rfl]
    cases m.keypad.firstPressed <;> rfl
  | skipIfByte | skipUnlessByte | skipIfSame | skipUnlessSame => exact m.skipWhen_withKeypad keypad _
  | loadRegisters x => simp only [Instruction.result, withKeypad]
  | _ => rfl

theorem cycled_withKeypad (n : Int)
    (hd : m.halted = false → ∀ x, m.Executes (.skipIfKey x) ∨ m.Executes (.skipUnlessKey x) →
      (m.withKeypad keypad).keyDown x = m.keyDown x)
    (hp : m.halted = false → ∀ x, m.Executes (.waitKey x) →
      keypad.firstPressed = m.keypad.firstPressed) :
    (m.withKeypad keypad).cycled n = (m.cycled n).withKeypad keypad := by
  refine cycled_related (R := fun m m' => m' = m.withKeypad keypad) n rfl rfl rfl
    (fun i => fault?_withKeypad i m keypad) (crashed_withKeypad m keypad) rfl ?_
  intro i hh hx _
  refine congrArg tickTimers (result_withKeypad (m := m.advance) n ?_ ?_)
  · rintro x (rfl | rfl)
    · exact hd hh x (.inl hx)
    · exact hd hh x (.inr hx)
  · rintro x rfl
    exact hp hh x hx

theorem cycled_offered (n : Int) (ha : a.length = 16) (hb : b.length = 16)
    (h : m.halted = false → m.SameAnswers a b) :
    (m.withKeypad (keypad'.offered b)).cycled n =
      ((m.withKeypad (keypad.offered a)).cycled n).withKeypad (keypad'.offered b) := by
  refine cycled_withKeypad (m := m.withKeypad (keypad.offered a)) n ?_ ?_
  · intro hh x hx
    refine keyDown_withKeypad fun key hk => ?_
    have hk : key.val = (m.v.get x).toNat := hk
    -- a key that exists is asked for, so the snapshots agree on it
    have hs := (h hh).skip x hx (by omega)
    rw [← hk, ← Keypad.get_offered (k := keypad) ha, ← Keypad.get_offered (k := keypad') hb] at hs
    exact (Option.some.inj hs).symm
  · intro hh x hx
    exact Keypad.firstPressed_offered_congr hb ha ((h hh).wait x hx).symm

end Machine

namespace Processor

variable {p : Processor} {s : Session} {keypad : Keypad} {a b : List Keypad.Reading}

theorem turn_offered (p : Processor) (s : Session) (keypad : Keypad) (ha : a.length = 16)
    (hb : b.length = 16) (h : s.machine.halted = false → s.machine.SameAnswers a b) :
    let t := p.act (.keys a) s
    let u := p.act (.keys b) { s with machine := s.machine.withKeypad keypad }
    p.error? u = p.error? t ∧
      p.act .cycle u =
        { p.act .cycle t with machine := (p.act .cycle t).machine.withKeypad (keypad.offered b) } := by
  intro t u
  have ht : t = { s with machine := s.machine.withKeypad (s.machine.keypad.offered a) } := p.act_keys a s
  have hu : u = { s with machine := s.machine.withKeypad (keypad.offered b) } := p.act_keys b _
  rw [ht, hu, act_cycle, act_cycle, error?_eq, error?_eq]
  constructor
  · rw [Machine.error?_withKeypad, Machine.error?_withKeypad]
  · rw [cycled, cycled, Machine.cycled_offered _ ha hb h]
    rfl

/-- The keypad matters to a program only where it reads it. If at each cycle of a run the snapshots of two
histories agree on the key that a skip asks for, and on the lowest key held down where the program waits
for one, then the two raise the same errors and reach sessions that differ in nothing but the keypad. -/
theorem keys_read (p : Processor) (s : Session) (a b : Nat → List Keypad.Reading) (n : Nat)
    (hl : ∀ k < n, (a k).length = 16 ∧ (b k).length = 16)
    (hr : ∀ k < n, (p.play (feed a k) s).machine.halted = false →
      (p.play (feed a k) s).machine.SameAnswers (a k) (b k)) :
    p.errors (feed b n) s = p.errors (feed a n) s ∧
    ∃ keypad, p.play (feed b n) s =
      { p.play (feed a n) s with machine := { (p.play (feed a n) s).machine with keypad } } := by
  induction n with
  | zero => exact ⟨rfl, s.machine.keypad, rfl⟩
  | succ n ih =>
    obtain ⟨he, keypad, hs⟩ := ih (fun k hk => hl k (by omega)) fun k hk => hr k (by omega)
    obtain ⟨ha, hb⟩ := hl n (by omega)
    -- the sessions differ in their keypads alone, and both keypads are about to be replaced
    obtain ⟨ht, hc⟩ := p.turn_offered (p.play (feed a n) s) keypad ha hb (hr n (by omega))
    have hw : p.play (feed b n) s = { p.play (feed a n) s with
      machine := (p.play (feed a n) s).machine.withKeypad keypad } := hs
    rw [errors_feed_succ, errors_feed_succ, play_feed_succ, play_feed_succ, he, hw, ht]
    exact ⟨rfl, _, hc⟩

def asking (pc : Int) (keypad : Keypad) : Session :=
  Session.start { Machine.initial with
    memory := (Memory.zero _).overlay 0x200 [0xE0, 0x9E, 0x00, 0x00, 0xF1, 0x0A], pc, keypad }

def holding (keys : List Nat) : List Keypad.Reading :=
  (List.range 16).map fun key => .flag (keys.contains key)

theorem keys_read_asking :
    let p : Processor := ⟨fun _ => -1, false⟩
    let s := asking 0x200 Keypad.released
    let a := fun k => holding [3 * k]
    let b := fun k => holding [9, 3 * k]
    (∀ k < 2, (a k).length = 16 ∧ (b k).length = 16) ∧
    (∀ k < 2, (p.play (feed a k) s).machine.halted = false →
      (p.play (feed a k) s).machine.SameAnswers (a k) (b k)) ∧
    p.errors (feed b 2) s = p.errors (feed a 2) s ∧
    ∃ keypad, p.play (feed b 2) s =
      { p.play (feed a 2) s with machine := { (p.play (feed a 2) s).machine with keypad } } := by
  intro p s a b
  have hf (keypad : Keypad) : (asking 0x200 keypad).machine.fetch = .ok 0xE09E := by
    rw [Machine.fetch_eq (a := 0x200) rfl (by decide)]
    simp [asking, Session.start]
  have hf' (keypad : Keypad) : (asking 0x204 keypad).machine.fetch = .ok 0xF10A := by
    rw [Machine.fetch_eq (a := 0x204) rfl (by decide)]
    simp [asking, Session.start]
  have h1 : p.play (feed a 1) s = asking 0x204 (Keypad.released.offered (a 0)) := by
    have hk : p.act (.keys (a 0)) s = asking 0x200 (Keypad.released.offered (a 0)) := p.act_keys _ _
    have hc : p.cycle (asking 0x200 (Keypad.released.offered (a 0))) =
        .ok () (asking 0x204 (Keypad.released.offered (a 0))) :=
      cycle_eq_ok_iff.mpr ⟨rfl, 0xE09E, .skipIfKey 0, hf _, by rfl, by decide, rfl⟩
    rw [play_feed_succ, feed, play, hk, act, hc]
  have hl : ∀ k < 2, (a k).length = 16 ∧ (b k).length = 16 :=
    fun k _ => by simp [a, b, holding]
  have hr : ∀ k < 2, (p.play (feed a k) s).machine.halted = false →
      (p.play (feed a k) s).machine.SameAnswers (a k) (b k) := by
    intro k hk _
    obtain rfl | rfl : k = 0 ∨ k = 1 := by omega
    · have hi : s.machine.Executes (.skipIfKey 0) := ⟨_, hf _, by rfl⟩
      refine ⟨fun x hx _ => ?_, fun x hx => ?_⟩
      · obtain hx | hx := hx
        · cases hi.unique hx
          rfl
        · cases hi.unique hx
      · cases hi.unique hx
    · rw [h1]
      have hi : (asking 0x204 (Keypad.released.offered (a 0))).machine.Executes (.waitKey 1) :=
        ⟨_, hf' _, by rfl⟩
      refine ⟨fun x hx _ => ?_, fun x _ => by rfl⟩
      obtain hx | hx := hx
      · cases hi.unique hx
      · cases hi.unique hx
  obtain ⟨he, hm⟩ := keys_read p s a b 2 hl hr
  exact ⟨hl, hr, he, hm⟩

end Processor

end Chip8
