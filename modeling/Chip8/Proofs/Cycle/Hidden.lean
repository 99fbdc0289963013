import Chip8.Proofs.Cycle.Record

namespace Chip8

def CycleError.fault? : CycleError → Option Fault
  | .halted => none
  | .crashed fault _ => some fault
  | .aborted fault => some fault

namespace Machine

/-- The machines agree on all that a program can find out, with the screen if it may draw. -/
def Alike (drawing : Bool) (m m' : Machine) : Prop :=
  ∃ sound awaitingKey screen, m' = { m with sound, awaitingKey, screen } ∧
    (drawing = true → screen = m.screen)

variable {drawing : Bool} {m m' : Machine} {i : Instruction}

theorem Alike.fault?_eq (h : Alike drawing m m') (i : Instruction) : i.fault? m' = i.fault? m := by
  obtain ⟨sound, awaitingKey, screen, rfl, -⟩ := h
  cases i <;> rfl

theorem Alike.fetch_eq (h : Alike drawing m m') : m'.fetch = m.fetch := by
  obtain ⟨sound, awaitingKey, screen, rfl, -⟩ := h
  rfl

theorem Alike.halted_eq (h : Alike drawing m m') : m'.halted = m.halted := by
  obtain ⟨sound, awaitingKey, screen, rfl, -⟩ := h
  rfl

theorem Alike.advance (h : Alike drawing m m') : Alike drawing m.advance m'.advance := by
  obtain ⟨sound, awaitingKey, screen, rfl, hs⟩ := h
  exact ⟨sound, awaitingKey, screen, rfl, hs⟩

theorem Alike.crashed (h : Alike drawing m m') : Alike drawing m.crashed m'.crashed := by
  have hf := h.fetch_eq
  obtain ⟨sound, awaitingKey, screen, rfl, hs⟩ := h
  rw [Machine.crashed, Machine.crashed, hf]
  cases m.fetch <;> exact ⟨sound, awaitingKey, screen, rfl, hs⟩

theorem Alike.tickTimers (h : Alike drawing m m') : Alike drawing m.tickTimers m'.tickTimers := by
  obtain ⟨sound, awaitingKey, screen, rfl, hs⟩ := h
  exact ⟨countDown sound, awaitingKey, screen, rfl, hs⟩

theorem Alike.skipWhen (h : Alike drawing m m') (condition : Bool) :
    Alike drawing (m.skipWhen condition) (m'.skipWhen condition) := by
  cases condition with
  | false => exact h
  | true => exact h.advance

theorem Alike.result (h : Alike drawing m m') (n : Int)
    (hd : drawing = true ∨ ∀ x y rows, i ≠ .draw x y rows) :
    Alike drawing (i.result n m) (i.result n m') := by
  cases i with
  | skipIfByte | skipUnlessByte | skipIfSame | skipUnlessSame | skipIfKey | skipUnlessKey =>
    have hs := h.skipWhen
    obtain ⟨sound, awaitingKey, screen, rfl, -⟩ := h
    exact hs _
  | clearScreen =>
    obtain ⟨sound, awaitingKey, screen, rfl, -⟩ := h
    exact ⟨sound, awaitingKey, .blank _ _, rfl, fun _ => rfl⟩
  | draw x y rows =>
    obtain ⟨sound, awaitingKey, screen, rfl, hs⟩ := h
    obtain hd | hd := hd
    · obtain rfl := hs hd
      exact ⟨sound, awaitingKey, ((Instruction.draw x y rows).result n m).screen, rfl, fun _ => rfl⟩
    · exact absurd rfl (hd x y rows)
  | setSound x =>
    obtain ⟨sound, awaitingKey, screen, rfl, hs⟩ := h
    exact ⟨(m.v.get x).toNat, awaitingKey, screen, rfl, hs⟩
  | waitKey x =>
    obtain ⟨sound, awaitingKey, screen, rfl, hs⟩ := h
    simp only [Instruction.result]
    cases m.keypad.firstPressed with
    | none => exact ⟨sound, true, screen, rfl, hs⟩
    | some key => exact ⟨sound, false, screen, rfl, hs⟩
  | _ =>
    obtain ⟨sound, awaitingKey, screen, rfl, hs⟩ := h
    simp only [Instruction.result]
    exact ⟨sound, awaitingKey, screen, rfl, hs⟩

theorem Alike.machineFault?_eq (h : Alike drawing m m') : m'.fault? = m.fault? := by
  simp only [Machine.fault?, h.fetch_eq, h.fault?_eq]

theorem Alike.instruction?_eq (h : Alike drawing m m') : m'.instruction? = m.instruction? := by
  rw [instruction?, instruction?, h.fetch_eq]

theorem Alike.draws_eq (h : Alike drawing m m') : m'.draws = m.draws := by
  rw [draws, draws, h.halted_eq, h.instruction?_eq]

theorem Alike.offered (h : Alike drawing m m') (snapshot : List Keypad.Reading) :
    Alike drawing { m with keypad := m.keypad.offered snapshot }
      { m' with keypad := m'.keypad.offered snapshot } := by
  obtain ⟨sound, awaitingKey, screen, rfl, hs⟩ := h
  exact ⟨sound, awaitingKey, screen, rfl, hs⟩

theorem Alike.cycled (h : Alike drawing m m') (n : Int)
    (hd : drawing = true ∨ (m.error? = none → ∀ x y rows, ¬ m.Executes (.draw x y rows))) :
    Alike drawing (m.cycled n) (m'.cycled n) := by
  refine cycled_related n h h.halted_eq h.instruction?_eq h.fault?_eq h.crashed h.advance ?_
  intro i hh hx hf
  refine (h.advance.result n (hd.imp_right ?_)).tickTimers
  rintro hd x y rows rfl
  exact hd (hx.error?_eq_none hh hf) x y rows hx

theorem map_fault?_error? (m : Machine) :
    m.error?.map CycleError.fault? = if m.halted then some none else m.fault?.map some := by
  rw [error?]
  cases m.halted with
  | true => rfl
  | false =>
    cases m.fault? with
    | none => rfl
    | some fault =>
      simp only [Bool.false_eq_true, if_false, Option.map_some]
      cases fault.halts <;> rfl

theorem Alike.error?_eq (h : Alike drawing m m') :
    m'.error?.map CycleError.fault? = m.error?.map CycleError.fault? := by
  rw [map_fault?_error?, map_fault?_error?, h.halted_eq, h.machineFault?_eq]

end Machine

namespace Processor

variable {p : Processor} {s t : Session} {drawing : Bool}

theorem play_alike (p : Processor) (acts : List Act) (hm : s.machine.Alike drawing t.machine)
    (hd : t.draws = s.draws)
    (hC : ∀ c ∈ p.starts acts s, drawing = true ∨
      (p.error? c = none → ∀ x y rows, ¬ c.machine.Executes (.draw x y rows))) :
    ((p.play acts s).machine.Alike drawing (p.play acts t).machine ∧
      (p.play acts t).draws = (p.play acts s).draws) ∧
    (p.errors acts s).map (Option.map CycleError.fault?) =
      (p.errors acts t).map (Option.map CycleError.fault?) := by
  refine play_related CycleError.fault?
    (R := fun s t => s.machine.Alike drawing t.machine ∧ t.draws = s.draws) ?_ ?_ acts hC ⟨hm, hd⟩
  · intro snapshot s t ⟨hm, hd⟩
    rw [act_keys, act_keys]
    exact ⟨hm.offered snapshot, hd⟩
  · intro s t hC ⟨hm, hd⟩
    simp only [error?_eq] at hC ⊢
    rw [act_cycle, act_cycle, cycled, cycled, hd, hm.draws_eq]
    exact ⟨⟨hm.cycled _ hC, rfl⟩, hm.error?_eq.symm⟩

/-- Nothing that a program does depends on the sound timer or on whether the machine waits for a key: from
machines that differ in these alone, the same cycles are completed, the others end with the same faults, and
the machines reached differ in these alone. What is on the screen does not matter either unless a sprite is
drawn. -/
theorem hidden_unseen (p : Processor) (acts : List Act) (s : Session) (sound : Int)
    (awaitingKey : Bool) :
    (let t := { s with machine := { s.machine with sound, awaitingKey } }
     (p.errors acts s).map (Option.map CycleError.fault?) =
        (p.errors acts t).map (Option.map CycleError.fault?) ∧
      (p.play acts t).draws = (p.play acts s).draws ∧
      ∃ sound awaitingKey,
        (p.play acts t).machine = { (p.play acts s).machine with sound, awaitingKey }) ∧
    ∀ screen,
      (∀ c ∈ p.starts acts s, p.error? c = none → ∀ x y rows, ¬ c.machine.Executes (.draw x y rows)) →
      let t := { s with machine := { s.machine with sound, awaitingKey, screen } }
      (p.errors acts s).map (Option.map CycleError.fault?) =
        (p.errors acts t).map (Option.map CycleError.fault?) ∧
      (p.play acts t).draws = (p.play acts s).draws ∧
      ∃ sound awaitingKey screen,
        (p.play acts t).machine = { (p.play acts s).machine with sound, awaitingKey, screen } := by
  constructor
  · intro t
    have hm : s.machine.Alike true t.machine :=
      ⟨sound, awaitingKey, s.machine.screen, rfl, fun _ => rfl⟩
    obtain ⟨⟨⟨sound', awaitingKey', screen', he, hs⟩, hd⟩, hf⟩ :=
      p.play_alike acts hm rfl fun _ _ => .inl rfl
    rw [hs rfl] at he
    exact ⟨hf, hd, sound', awaitingKey', he⟩
  · intro screen hC t
    have hm : s.machine.Alike false t.machine := ⟨sound, awaitingKey, screen, rfl, by simp⟩
    obtain ⟨⟨⟨sound', awaitingKey', screen', he, -⟩, hd⟩, hf⟩ :=
      p.play_alike acts hm rfl fun c hc => .inr (hC c hc)
    exact ⟨hf, hd, sound', awaitingKey', screen', he⟩

def beeping (pc : Int) : Session :=
  Session.start { Machine.initial with
    memory := (Memory.zero _).overlay 0x200 [0xF0, 0x18, 0x00, 0xE0], pc }

theorem hidden_unseen_of_beep :
    let p : Processor := ⟨fun _ => -1, false⟩
    let s := beeping 0x200
    let t := { s with machine := { s.machine with
      sound := 60, awaitingKey := true, screen := ⟨Vector.replicate _ true⟩ } }
    (∀ c ∈ p.starts [.cycle, .cycle] s, p.error? c = none →
      ∀ x y rows, ¬ c.machine.Executes (.draw x y rows)) ∧
    (p.errors [.cycle, .cycle] s).map (Option.map CycleError.fault?) =
      (p.errors [.cycle, .cycle] t).map (Option.map CycleError.fault?) ∧
    ∃ sound awaitingKey screen, (p.play [.cycle, .cycle] t).machine =
      { (p.play [.cycle, .cycle] s).machine with sound, awaitingKey, screen } := by
  intro p s t
  have hf : s.machine.fetch = .ok 0xF018 := by
    rw [Machine.fetch_eq (a := 0x200) rfl (by decide)]
    simp [s, beeping, Session.start]
  have hf' : (beeping 0x202).machine.fetch = .ok 0x00E0 := by
    rw [Machine.fetch_eq (a := 0x202) rfl (by decide)]
    simp [beeping, Session.start]
  have hc : p.cycle s = .ok () (beeping 0x202) :=
    cycle_eq_ok_iff.mpr ⟨rfl, 0xF018, .setSound 0, hf, by rfl, by decide, rfl⟩
  have ha : p.act .cycle s = beeping 0x202 := by rw [act, hc]
  have hi : s.machine.Executes (.setSound 0) := ⟨_, hf, by rfl⟩
  have hi' : (beeping 0x202).machine.Executes .clearScreen := ⟨_, hf', by rfl⟩
  have hn : ∀ c ∈ p.starts [.cycle, .cycle] s, p.error? c = none →
      ∀ x y rows, ¬ c.machine.Executes (.draw x y rows) := by
    simp only [starts, ha, List.forall_mem_cons]
    refine ⟨fun _ x y rows hd => ?_, fun _ x y rows hd => ?_, fun c hc => ?_⟩
    · cases hi.unique hd
    · cases hi'.unique hd
    · cases hc
  obtain ⟨he, -, hm⟩ := (hidden_unseen p [.cycle, .cycle] s 60 true).2 ⟨Vector.replicate _ true⟩ hn
  exact ⟨hn, he, hm⟩

end Processor

end Chip8
