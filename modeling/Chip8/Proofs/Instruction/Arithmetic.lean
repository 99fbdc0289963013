import Chip8.Proofs.Instruction.Footprint

namespace Chip8

namespace Byte

theorem toNat_sub (a b : UInt8) : ((a - b).toNat : Int) = (a.toNat - b.toNat : Int) % 256 := by
  have ha := a.toNat_lt
  have hb := b.toNat_lt
  rw [UInt8.toNat_sub]
  omega

theorem toNat_and_one (a : UInt8) : (a &&& 1).toNat = a.toNat % 2 := by
  rw [UInt8.toNat_and]
  exact Nat.and_one_is_mod _

theorem toNat_shiftRight_one (a : UInt8) : (a >>> 1).toNat = a.toNat / 2 := by
  rw [UInt8.toNat_shiftRight]
  exact Nat.shiftRight_eq_div_pow _ 1

theorem toNat_shiftRight_seven (a : UInt8) : (a >>> 7).toNat = a.toNat / 128 := by
  rw [UInt8.toNat_shiftRight]
  exact Nat.shiftRight_eq_div_pow _ 7

theorem toNat_shiftLeft_one (a : UInt8) : (a <<< 1).toNat = 2 * a.toNat % 256 := by
  rw [UInt8.toNat_shiftLeft, Nat.mul_comm]
  exact congrArg (· % 256) (Nat.shiftLeft_eq _ 1)

end Byte

namespace Machine

def number (m : Machine) (r : Register) : Nat :=
  (m.v.get r).toNat

theorem toNat_get (m : Machine) (r : Register) : (m.v.get r).toNat = m.number r :=
  rfl

theorem number_le (m : Machine) (r : Register) : m.number r ≤ 255 :=
  Nat.le_of_lt_succ (m.v.get r).toNat_lt

theorem number_setV (x r : Register) (value : UInt8) (m : Machine) :
    (m.setV x value).number r = if r = x then value.toNat else m.number r := by
  unfold number
  split
  case isTrue h => rw [h, get_setV_self]
  case isFalse h => rw [get_setV_of_ne h]

theorem number_setFlag (on : Bool) (r : Register) (m : Machine) :
    (m.setFlag on).number r = if r = 0xF then if on then 1 else 0 else m.number r := by
  rw [setFlag, number_setV]
  cases on <;> rfl

end Machine

namespace Instruction

variable (n : Int) (m : Machine) (x y r : Register)

theorem number_addByte (byte : UInt8) : ((addByte x byte).result n m).number r =
    if r = x then (m.number x + byte.toNat) % 256 else m.number r := by
  rw [result, Machine.number_setV, UInt8.toNat_add]
  rfl

theorem number_add : ((add x y).result n m).number r =
    if r = 0xF then if 255 < m.number x + m.number y then 1 else 0
    else if r = x then (m.number x + m.number y) % 256 else m.number r := by
  rw [result, Machine.number_setFlag, Machine.number_setV, UInt8.toNat_add]
  simp only [decide_eq_true_eq]
  rfl

theorem number_sub : (((sub x y).result n m).number r : Int) =
    if r = 0xF then if m.number y ≤ m.number x then 1 else 0
    else if r = x then (m.number x - m.number y : Int) % 256 else m.number r := by
  simp only [result, Machine.number_setFlag, Machine.number_setV, apply_ite Nat.cast, Byte.toNat_sub,
    Machine.toNat_get, decide_eq_true_eq, UInt8.le_iff_toNat_le]
  rfl

theorem number_shiftRight : ((shiftRight x).result n m).number r =
    let flagged := fun r => if r = 0xF then m.number x % 2 else m.number r
    if r = x then flagged x / 2 else flagged r := by
  simp only [result, Machine.number_setV, Byte.toNat_shiftRight_one, Machine.toNat_get,
    Byte.toNat_and_one]

theorem number_shiftLeft : ((shiftLeft x).result n m).number r =
    let flagged := fun r => if r = 0xF then m.number x / 128 else m.number r
    if r = x then 2 * flagged x % 256 else flagged r := by
  simp only [result, Machine.number_setV, Byte.toNat_shiftLeft_one, Machine.toNat_get,
    Byte.toNat_shiftRight_seven]

theorem number_subFrom : (((subFrom x y).result n m).number r : Int) =
    let flagged := fun r => if r = 0xF then if m.number x < m.number y then 1 else 0 else m.number r
    if r = x then (flagged y - flagged x : Int) % 256 else flagged r := by
  simp only [result, Machine.number_setV, apply_ite Nat.cast, Byte.toNat_sub, Machine.toNat_get,
    Machine.number_setFlag, decide_eq_true_eq, UInt8.lt_iff_toNat_lt]

def arithmetic (x y : Register) (byte : UInt8) : List Instruction :=
  [addByte x byte, add x y, sub x y, shiftRight x, subFrom x y, shiftLeft x]

/-- What the arithmetic instructions with these operands leave in the registers of the machine `m`, where
`after` gives the machine that each leads to. -/
structure ArithmeticLaws (m : Machine) (x y : Register) (byte : UInt8)
    (after : Instruction → Machine) : Prop where
  addByte_value : (after (addByte x byte)).number x = (m.number x + byte.toNat) % 256
  add_flag : (after (add x y)).number 0xF = if 255 < m.number x + m.number y then 1 else 0
  add_value : x ≠ 0xF →
    256 * (after (add x y)).number 0xF + (after (add x y)).number x = m.number x + m.number y
  sub_flag : (after (sub x y)).number 0xF = if m.number y ≤ m.number x then 1 else 0
  sub_value : x ≠ 0xF → ((after (sub x y)).number x : Int) =
    m.number x - m.number y + 256 * (1 - (after (sub x y)).number 0xF)
  shiftRight_value : x ≠ 0xF → (after (shiftRight x)).number 0xF ≤ 1 ∧
    2 * (after (shiftRight x)).number x + (after (shiftRight x)).number 0xF = m.number x
  shiftRight_flag : x = 0xF → (after (shiftRight x)).number 0xF = 0
  shiftLeft_value : x ≠ 0xF →
    256 * (after (shiftLeft x)).number 0xF + (after (shiftLeft x)).number x = 2 * m.number x
  shiftLeft_flag : x = 0xF → (after (shiftLeft x)).number 0xF = 2 * (m.number x / 128)
  /-- The flag goes first, so it is what VF counts for in the difference. -/
  subFrom : ∀ flag : Nat, flag = (if m.number x < m.number y then 1 else 0) →
    (x ≠ 0xF → (after (subFrom x y)).number 0xF = flag) ∧
    (x ≠ 0xF → y ≠ 0xF → ((after (subFrom x y)).number x : Int) = (m.number y - m.number x : Int) % 256) ∧
    (x = 0xF → y ≠ 0xF → ((after (subFrom x y)).number 0xF : Int) = (m.number y - flag : Int) % 256) ∧
    (x ≠ 0xF → y = 0xF → ((after (subFrom x y)).number x : Int) = (flag - m.number x : Int) % 256) ∧
    (x = 0xF → y = 0xF → (after (subFrom x y)).number 0xF = 0)

theorem laws_result (byte : UInt8) : ArithmeticLaws m x y byte (result n m) := by
  have hx := m.number_le x
  have hy := m.number_le y
  exact {
    addByte_value := by rw [number_addByte, if_pos rfl]
    add_flag := by rw [number_add, if_pos rfl]
    add_value := by
      intro h
      simp only [number_add, if_neg h, ↓reduceIte]
      split <;> omega
    sub_flag := by
      have hs := number_sub n m x y 0xF
      rw [if_pos rfl] at hs
      split
      case isTrue h => exact Int.ofNat_inj.mp (hs.trans (if_pos h))
      case isFalse h => exact Int.ofNat_inj.mp (hs.trans (if_neg h))
    sub_value := by
      intro h
      simp only [number_sub, if_neg h, ↓reduceIte]
      split <;> omega
    shiftRight_value := by
      intro h
      simp only [number_shiftRight, if_neg h, if_neg (Ne.symm h), ↓reduceIte]
      omega
    shiftRight_flag := by
      rintro rfl
      simp only [number_shiftRight, ↓reduceIte]
      omega
    shiftLeft_value := by
      intro h
      simp only [number_shiftLeft, if_neg h, if_neg (Ne.symm h), ↓reduceIte]
      omega
    shiftLeft_flag := by
      rintro rfl
      simp only [number_shiftLeft, ↓reduceIte]
      omega
    subFrom := by
      intro flag hf
      have hs := number_subFrom n m x y
      simp only [← hf] at hs
      refine ⟨fun h => ?_, fun h h' => ?_, fun h h' => ?_, fun h h' => ?_, fun h h' => ?_⟩
      · have := hs 0xF
        simp only [if_neg (Ne.symm h), ↓reduceIte] at this
        omega
      · rw [hs, if_pos rfl, if_neg h, if_neg h']
      · subst h
        rw [hs, if_pos rfl, if_pos rfl, if_neg h']
      · subst h'
        rw [hs, if_pos rfl, if_pos rfl, if_neg h]
      · subst h h'
        have := hs 0xF
        simp only [↓reduceIte] at this
        omega }

end Instruction

namespace Processor

open Instruction

/-- Each arithmetic instruction is completed, writes the registers that it names and VF if it has a flag, and
leaves in them what its law says, also where VF is an operand or both operands are the same. -/
theorem arithmetic_laws (p : Processor) (s : Session) (x y : Register) (byte : UInt8) :
    ∃ after : Instruction → Machine, ArithmeticLaws s.machine x y byte after ∧
      ∀ i ∈ arithmetic x y byte, p.execute i s = .ok () { s with machine := after i } ∧
        (∃ v, after i = { s.machine with v }) ∧
        ∀ r, (after i).number r ≤ 255 ∧
          (r ∉ i.destinations → (after i).number r = s.machine.number r) := by
  refine ⟨result 0 s.machine, laws_result 0 s.machine x y byte, fun i hi => ?_⟩
  have hx : i.fault? s.machine = none ∧ p.execute i s = .ok () { s with machine := i.result 0 s.machine } ∧
      ∃ v, i.result 0 s.machine = { s.machine with v } := by
    simp only [arithmetic, List.mem_cons, List.not_mem_nil, or_false] at hi
    obtain rfl | rfl | rfl | rfl | rfl | rfl := hi <;> exact ⟨rfl, execute_eq p _ s, _, rfl⟩
  refine ⟨hx.2.1, hx.2.2, fun r => ⟨Machine.number_le _ r, fun hr => ?_⟩⟩
  exact congrArg UInt8.toNat (((result_confined 0 hx.1).v r).resolve_right hr)

theorem arithmetic_laws_of_flag :
    let p : Processor := ⟨fun _ => -1, false⟩
    let s := Session.start ((Machine.initial.setV 0xF 3).setV 2 10)
    .subFrom 0xF 2 ∈ arithmetic 0xF 2 0 ∧
    ∃ after, p.execute (.subFrom 0xF 2) s = .ok () { s with machine := after } ∧
      after.number 0xF = 9 ∧ after.number 2 = 10 := by
  intro p s
  have hm : Instruction.subFrom 0xF 2 ∈ arithmetic 0xF 2 0 := by simp [arithmetic]
  obtain ⟨after, hl, hi⟩ := arithmetic_laws p s 0xF 2 0
  obtain ⟨he, -, hr⟩ := hi _ hm
  have h2 : s.machine.number 2 = 10 := by rfl
  have hF : s.machine.number 0xF = 3 := by rfl
  refine ⟨hm, _, he, ?_, ?_⟩
  · have h := (hl.subFrom 1 (by rw [h2, hF]; rfl)).2.2.1 rfl (by decide)
    rw [h2] at h
    omega
  · exact ((hr 2).2 (by decide)).trans h2

end Processor

end Chip8
