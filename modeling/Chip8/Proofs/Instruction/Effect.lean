import Chip8.Processor
import Chip8.Proofs.Screen.Sprite

namespace Chip8

namespace Machine

def blockFault? (m : Machine) (count : Int) : Option Fault :=
  if Memory.InRange memorySize m.i count then none else some (.memory ⟨m.i, count, memorySize⟩)

def keyFault? (m : Machine) (x : Register) : Option Fault :=
  if (m.v.get x).toNat < 16 then none else some (.keypad (.noSuchKey (m.v.get x).toNat))

def sprite (m : Machine) (rows : Fin 16) : List UInt8 :=
  if rows = 0 then [] else m.memory.slice m.i (m.i + rows.val)

def skipWhen (m : Machine) (condition : Bool) : Machine :=
  if condition then m.advance else m

def keyDown (m : Machine) (x : Register) : Bool :=
  match m.keypad.isPressed (m.v.get x).toNat with
  | .ok down => down
  | .error _ => false

end Machine

namespace Instruction

def fault? (m : Machine) : Instruction → Option Fault
  | ret => if m.stack.addresses = [] then some (.stack .underflow) else none
  | call _ => if (m.stack.pointer : Int) = stackDepth then some (.stack (.overflow stackDepth)) else none
  | draw _ _ rows => if rows = 0 then none else m.blockFault? rows.val
  | skipIfKey x => m.keyFault? x
  | skipUnlessKey x => m.keyFault? x
  | readDelay _ => if 0 ≤ m.delay ∧ m.delay ≤ 255 then none else some (.timerTooWide m.delay)
  | storeDecimal _ => m.blockFault? 3
  | storeRegisters x => m.blockFault? (x.val + 1)
  | loadRegisters x => m.blockFault? (x.val + 1)
  | _ => none

/-- The machine after an instruction that meets no fault, where `n` is the random number drawn. -/
def result (n : Int) (m : Machine) : Instruction → Machine
  | clearScreen => { m with screen := .blank _ _ }
  | ret => { m with pc := m.stack.addresses.headD 0, stack := ⟨m.stack.addresses.tail⟩ }
  | jump target => { m with pc := target.val }
  | call target => { m with pc := target.val, stack := ⟨m.pc :: m.stack.addresses⟩ }
  | skipIfByte x byte => m.skipWhen (m.v.get x == byte)
  | skipUnlessByte x byte => m.skipWhen (m.v.get x != byte)
  | skipIfSame x y => m.skipWhen (m.v.get x == m.v.get y)
  | loadByte x byte => m.setV x byte
  | addByte x byte => m.setV x (m.v.get x + byte)
  | copy x y => m.setV x (m.v.get y)
  | or x y => m.setV x (m.v.get x ||| m.v.get y)
  | and x y => m.setV x (m.v.get x &&& m.v.get y)
  | xor x y => m.setV x (m.v.get x ^^^ m.v.get y)
  | add x y =>
    (m.setV x (m.v.get x + m.v.get y)).setFlag (255 < (m.v.get x).toNat + (m.v.get y).toNat)
  | sub x y => (m.setV x (m.v.get x - m.v.get y)).setFlag (m.v.get y ≤ m.v.get x)
  | shiftRight x =>
    let flagged := m.setV 0xF (m.v.get x &&& 1)
    flagged.setV x (flagged.v.get x >>> 1)
  | subFrom x y =>
    let flagged := m.setFlag (m.v.get x < m.v.get y)
    flagged.setV x (flagged.v.get y - flagged.v.get x)
  | shiftLeft x =>
    let flagged := m.setV 0xF (m.v.get x >>> 7)
    flagged.setV x (flagged.v.get x <<< 1)
  | skipUnlessSame x y => m.skipWhen (m.v.get x != m.v.get y)
  | loadIndex target => { m with i := target.val }
  | jumpFromV0 target => { m with pc := ((m.v.get 0).toNat + target.val : Int) % 0x10000 }
  | random x mask => m.setV x (Byte.low n &&& mask)
  | draw x y rows =>
    { m with
      screen := m.screen.drawn (m.v.get x).toNat (m.v.get y).toNat (m.sprite rows) }.setFlag
        (m.screen.collides (m.v.get x).toNat (m.v.get y).toNat (m.sprite rows))
  | skipIfKey x => m.skipWhen (m.keyDown x)
  | skipUnlessKey x => m.skipWhen (!m.keyDown x)
  | readDelay x => m.setV x (Byte.low m.delay)
  | waitKey x =>
    match m.keypad.firstPressed with
    | none => { m.stepBack with awaitingKey := true }
    | some key => { m.setV x (UInt8.ofNat key.val) with awaitingKey := false }
  | setDelay x => { m with delay := (m.v.get x).toNat }
  | setSound x => { m with sound := (m.v.get x).toNat }
  | addIndex x => { m with i := (m.i + (m.v.get x).toNat) % 0x10000 }
  | loadGlyph x => { m with i := Font.address (m.v.get x).toNat }
  | storeDecimal x => { m with memory := m.memory.overlay m.i.toNat (Byte.decimalDigits (m.v.get x)) }
  | storeRegisters x => { m with memory := m.memory.overlay m.i.toNat (m.v.toList.take (x.val + 1)) }
  | loadRegisters x =>
    { m with
      v := Vector.ofFn fun r => (m.memory.slice m.i (m.i + (x.val + 1))).getD r.val (m.v.get r) }

def draws : Instruction → Nat
  | random _ _ => 1
  | _ => 0

end Instruction

namespace Processor

open Effect

theorem skipWhen_apply (condition : Bool) (s : Session) :
    skipWhen condition s = .ok () { s with machine := s.machine.skipWhen condition } := by
  cases condition <;> rfl

theorem attempt_of_ok {ε : Type} {fault : ε → Fault} {f : Machine → Except ε Machine} {s : Session}
    {m : Machine} (h : f s.machine = .ok m) : attempt fault f s = .ok () { s with machine := m } := by
  rw [attempt, h]

theorem attempt_of_error {ε : Type} {fault : ε → Fault} {f : Machine → Except ε Machine}
    {s : Session} {e : ε} (h : f s.machine = .error e) : attempt fault f s = .error (fault e) s := by
  rw [attempt, h]

/-- The coordinates of a sprite come from registers, so they are not negative and the drawing never
fails. -/
theorem drawSprite_apply (x y : UInt8) (sprite : List UInt8) (s : Session) :
    drawSprite x.toNat y.toNat sprite s =
      .ok (s.machine.screen.collides x.toNat y.toNat sprite)
        { s with machine :=
          { s.machine with screen := s.machine.screen.drawn x.toNat y.toNat sprite } } := by
  have h := Screen.drawSprite_eq s.machine.screen (Int.natCast_nonneg x.toNat)
    (Int.natCast_nonneg y.toNat) sprite
  rw [drawSprite, Machine.drawSprite, h]

theorem isPressed_byte (k : Keypad) (b : UInt8) :
    k.isPressed b.toNat =
      if h : b.toNat < 16 then .ok k.keys[b.toNat] else .error (.noSuchKey b.toNat) := by
  rw [Keypad.isPressed, Keypad.checkKey]
  by_cases h : b.toNat < 16
  · rw [dif_pos h, dif_pos (by omega)]
    rfl
  · rw [dif_neg h, dif_neg (by omega)]
    rfl

theorem isPressed_cases (m : Machine) (x : Register) :
    (m.keyFault? x = none ∧ m.keypad.isPressed (m.v.get x).toNat = .ok (m.keyDown x)) ∨
      ∃ e, m.keyFault? x = some (.keypad e) ∧ m.keypad.isPressed (m.v.get x).toNat = .error e := by
  unfold Machine.keyFault? Machine.keyDown
  rw [isPressed_byte]
  by_cases h : (m.v.get x).toNat < 16
  · exact .inl (by simp only [if_pos h, dif_pos h, and_self])
  · exact .inr ⟨_, by rw [if_neg h], by rw [dif_neg h]⟩

theorem readBlock_cases (m : Machine) (count : Int) :
    (m.blockFault? count = none ∧
        m.memory.readBlock m.i count = .ok (m.memory.slice m.i (m.i + count))) ∨
      ∃ e, m.blockFault? count = some (.memory e) ∧ m.memory.readBlock m.i count = .error e := by
  rw [Machine.blockFault?, Memory.readBlock]
  by_cases h : Memory.InRange memorySize m.i count
  · exact .inl ⟨if_pos h, if_pos h⟩
  · exact .inr ⟨_, if_neg h, if_neg h⟩

theorem attempt_writeBlock (block : Machine → List UInt8) {count : Int} (s : Session)
    (hc : ((block s.machine).length : Int) = count) :
    attempt .memory (fun m => (m.memory.writeBlock m.i (block m)).map fun memory => { m with memory })
        s = match s.machine.blockFault? count with
      | some fault => .error fault s
      | none => .ok () { s with machine :=
        { s.machine with memory := s.machine.memory.overlay s.machine.i.toNat (block s.machine) } } := by
  rw [attempt, Memory.writeBlock, Machine.blockFault?, hc]
  by_cases h : Memory.InRange memorySize s.machine.i count
  · rw [if_pos h, if_pos h]
    rfl
  · rw [if_neg h, if_neg h]
    rfl

theorem length_firstRegisters (m : Machine) (x : Register) :
    ((m.v.toList.take (x.val + 1)).length : Int) = x.val + 1 := by
  rw [List.length_take, Vector.length_toList]
  omega

theorem machine_bind {α : Type} (f : Machine → Effect α) (s : Session) :
    (machine >>= f) s = f s.machine s := rfl

/-- An instruction either meets its fault, with the session left alone, or does all that it has
to do. -/
theorem execute_eq (p : Processor) (i : Instruction) (s : Session) :
    p.execute i s = match i.fault? s.machine with
      | some fault => .error fault s
      | none => .ok () { s with
          machine := i.result (p.random s.draws) s.machine, draws := s.draws + i.draws } := by
  cases i with
  | ret =>
    cases h : s.machine.stack.addresses with
    | nil =>
      rw [execute, attempt_of_error (e := .underflow) (by simp [CallStack.pop, h, Except.map])]
      simp only [Instruction.fault?, h, ↓reduceIte]
    | cons address rest =>
      rw [execute, attempt_of_ok (m := Instruction.ret.result 0 s.machine)
        (by simp [CallStack.pop, Instruction.result, h, Except.map])]
      simp only [Instruction.fault?, h, reduceCtorEq, ↓reduceIte]
      rfl
  | call target =>
    by_cases h : (s.machine.stack.pointer : Int) = stackDepth
    · simp only [execute, Instruction.fault?, bind, EStateM.bind, attempt, CallStack.push, if_pos h,
        Except.map]
    · simp only [execute, Instruction.fault?, bind, EStateM.bind, attempt, CallStack.push, if_neg h,
        Except.map]
      rfl
  | draw x y rows =>
    have hd := drawSprite_apply (s.machine.v.get x) (s.machine.v.get y) (s.machine.sprite rows) s
    by_cases h0 : rows = 0
    · simp only [Machine.sprite, if_pos h0] at hd
      simp only [execute, Instruction.fault?, machine_bind, if_pos h0, pure_bind]
      simp only [bind, EStateM.bind, hd]
      simp only [Instruction.result, Machine.sprite, if_pos h0]
      rfl
    · simp only [Machine.sprite, if_neg h0] at hd
      obtain ⟨hf, hr⟩ | ⟨e, hf, hr⟩ := readBlock_cases s.machine rows.val
      · simp only [execute, Instruction.fault?, machine_bind, if_neg h0, hf, hr, pure_bind]
        simp only [bind, EStateM.bind, hd]
        simp only [Instruction.result, Machine.sprite, if_neg h0]
        rfl
      · simp only [execute, Instruction.fault?, machine_bind, if_neg h0, hf, hr]
        rfl
  | skipIfKey x =>
    obtain ⟨hf, hk⟩ | ⟨e, hf, hk⟩ := isPressed_cases s.machine x
    · simp only [execute, machine_bind, hk, Instruction.fault?, hf]
      exact skipWhen_apply _ s
    · simp only [execute, machine_bind, hk, Instruction.fault?, hf]
      rfl
  | skipUnlessKey x =>
    obtain ⟨hf, hk⟩ | ⟨e, hf, hk⟩ := isPressed_cases s.machine x
    · simp only [execute, machine_bind, hk, Instruction.fault?, hf]
      exact skipWhen_apply _ s
    · simp only [execute, machine_bind, hk, Instruction.fault?, hf]
      rfl
  | readDelay x =>
    by_cases h : 0 ≤ s.machine.delay ∧ s.machine.delay ≤ 255
    · simp only [execute, machine_bind, Instruction.fault?, if_pos h]
      rfl
    · simp only [execute, machine_bind, Instruction.fault?, if_neg h]
      rfl
  | storeDecimal x => exact attempt_writeBlock (fun m => Byte.decimalDigits (m.v.get x)) s rfl
  | storeRegisters x =>
    exact attempt_writeBlock (fun m => m.v.toList.take (x.val + 1)) s (length_firstRegisters _ x)
  | loadRegisters x =>
    obtain ⟨hf, hr⟩ | ⟨e, hf, hr⟩ := readBlock_cases s.machine (x.val + 1)
    · rw [execute, attempt_of_ok (m := (Instruction.loadRegisters x).result 0 s.machine)
        (by rw [hr]; rfl), Instruction.fault?, hf]
      rfl
    · rw [execute, attempt_of_error (e := e) (by rw [hr]; rfl), Instruction.fault?, hf]
  | skipIfByte x byte => exact skipWhen_apply _ s
  | skipUnlessByte x byte => exact skipWhen_apply _ s
  | skipIfSame x y => exact skipWhen_apply _ s
  | skipUnlessSame x y => exact skipWhen_apply _ s
  | _ => rfl

end Processor

end Chip8
