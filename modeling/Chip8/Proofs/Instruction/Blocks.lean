import Chip8.Proofs.Instruction.Footprint
import Chip8.Proofs.Machine.Valid

namespace Chip8

namespace Byte

theorem decimalDigits_sum (b : UInt8) :
    (b / 100).toNat ≤ 9 ∧ (b / 10 % 10).toNat ≤ 9 ∧ (b % 10).toNat ≤ 9 ∧
      100 * (b / 100).toNat + 10 * (b / 10 % 10).toNat + (b % 10).toNat = b.toNat := by
  have hb := b.toNat_lt
  have h100 : (b / 100).toNat = b.toNat / 100 := UInt8.toNat_div b 100
  have h10 : (b / 10 % 10).toNat = b.toNat / 10 % 10 := by
    rw [UInt8.toNat_mod, UInt8.toNat_div]
    rfl
  have h1 : (b % 10).toNat = b.toNat % 10 := UInt8.toNat_mod b 10
  omega

end Byte

namespace Machine

theorem blockFault?_eq_none {m : Machine} {count : Int} (h0 : 0 ≤ m.i) (hc : 1 ≤ count) (h : m.i + count ≤ 0x1000) :
    m.blockFault? count = none :=
  if_pos ((inRange_iff h0 hc).mpr h)

theorem getD_firstRegisters (m : Machine) (x r : Register) (other : UInt8) :
    (m.v.toList.take (x.val + 1)).getD r.val other = if r ≤ x then m.v.get r else other := by
  rw [List.getD_eq_getElem?_getD, List.getElem?_take]
  by_cases h : r ≤ x
  · rw [if_pos h, if_pos (Nat.lt_succ_of_le h), Vector.getElem?_toList, Vector.getElem?_eq_getElem r.isLt]
    rfl
  · rw [if_neg h, if_neg (Nat.not_lt.mpr (Nat.lt_of_not_le h)), Option.getD_none]

end Machine

namespace Processor

open Effect

variable {p : Processor} {s : Session} {x : Register}

theorem attempt_store (block : Machine → List UInt8) {s : Session} (hl : 1 ≤ (block s.machine).length)
    (h0 : 0 ≤ s.machine.i) (h : s.machine.i + (block s.machine).length ≤ 0x1000) :
    ∃ memory, attempt .memory
        (fun m => (m.memory.writeBlock m.i (block m)).map fun memory => { m with memory }) s =
          .ok () { s with machine := { s.machine with memory } } ∧
      (∀ k < (block s.machine).length, memory.cells[s.machine.i.toNat + k]? = (block s.machine)[k]?) ∧
      ∀ a : Nat, a < s.machine.i ∨ s.machine.i + (block s.machine).length ≤ a →
        memory.cells[a]? = s.machine.memory.cells[a]? := by
  refine ⟨s.machine.memory.overlay s.machine.i.toNat (block s.machine), ?_, fun k hk => ?_, fun a ha => ?_⟩
  · rw [attempt_writeBlock block s rfl, Machine.blockFault?_eq_none h0 (by omega) h]
  · refine s.machine.memory.getElem?_overlay ?_ hk
    simp only [memorySize]
    omega
  · exact s.machine.memory.getElem?_overlay_of_outside _ (block s.machine) (by omega)

theorem execute_loadRegisters {block : List UInt8} (h0 : 0 ≤ s.machine.i) (h : s.machine.i + x.val < 0x1000)
    (hl : block.length = x.val + 1)
    (hb : ∀ k < block.length, s.machine.memory.cells[s.machine.i.toNat + k]? = block[k]?) :
    ∃ v, p.execute (.loadRegisters x) s = .ok () { s with machine := { s.machine with v } } ∧
      ∀ r, v.get r = block.getD r.val (s.machine.v.get r) := by
  have hs : s.machine.memory.slice s.machine.i (s.machine.i + (x.val + 1)) = block :=
    s.machine.memory.slice_eq h0 (by omega) (by simp only [memorySize]; omega) hb
  refine ⟨Vector.ofFn fun r => block.getD r.val (s.machine.v.get r), ?_, fun r => Vector.getElem_ofFn r.isLt⟩
  rw [execute_eq, Instruction.fault?, Machine.blockFault?_eq_none h0 (by omega) (by omega)]
  simp only [Instruction.result, hs]
  rfl

/-- Storing the registers up to one and loading them again gives them back, although all registers and all cells
outside the block may have changed in between. Storing the decimal digits of a register and loading them gives three
digits that make up its number. The index register stays, storing changes nothing but the block, and loading nothing
but the registers that it names. -/
theorem stored_then_loaded (p : Processor) (s : Session) (x : Register) :
    (0 ≤ s.machine.i ∧ s.machine.i + x.val < 0x1000 → ∃ stored,
      p.execute (.storeRegisters x) s = .ok () { s with machine := { s.machine with memory := stored } } ∧
      ∀ (v : Vector UInt8 16) (memory : Memory memorySize),
        (∀ a : Nat, s.machine.i ≤ a → a ≤ s.machine.i + x.val → memory.cells[a]? = stored.cells[a]?) →
        ∃ v', p.execute (.loadRegisters x) { s with machine := { s.machine with memory, v } } =
            .ok () { s with machine := { s.machine with memory, v := v' } } ∧
          ∀ r, v'.get r = if r ≤ x then s.machine.v.get r else v.get r) ∧
    (0 ≤ s.machine.i ∧ s.machine.i + 2 < 0x1000 → ∃ stored v,
      p.execute (.storeDecimal x) s = .ok () { s with machine := { s.machine with memory := stored } } ∧
      p.execute (.loadRegisters 2) { s with machine := { s.machine with memory := stored } } =
        .ok () { s with machine := { s.machine with memory := stored, v } } ∧
      (∀ a : Nat, a < s.machine.i ∨ s.machine.i + 2 < a →
        stored.cells[a]? = s.machine.memory.cells[a]?) ∧
      ((v.get 0).toNat ≤ 9 ∧ (v.get 1).toNat ≤ 9 ∧ (v.get 2).toNat ≤ 9 ∧
        100 * (v.get 0).toNat + 10 * (v.get 1).toNat + (v.get 2).toNat = (s.machine.v.get x).toNat) ∧
      ∀ r, 2 < r → v.get r = s.machine.v.get r) := by
  constructor
  · rintro ⟨h0, h⟩
    have hl := length_firstRegisters s.machine x
    obtain ⟨stored, hstore, hin, -⟩ :=
      attempt_store (fun m => m.v.toList.take (x.val + 1)) (by omega) h0 (by omega)
    refine ⟨stored, hstore, fun v memory hm => ?_⟩
    have hb : ∀ k < (s.machine.v.toList.take (x.val + 1)).length,
        memory.cells[s.machine.i.toNat + k]? = (s.machine.v.toList.take (x.val + 1))[k]? :=
      fun k hk => (hm _ (by omega) (by omega)).trans (hin k hk)
    obtain ⟨v', hload, hv⟩ := execute_loadRegisters (p := p) (s := { s with machine := { s.machine with memory, v } })
      h0 h (by omega) hb
    exact ⟨v', hload, fun r => (hv r).trans (Machine.getD_firstRegisters s.machine x r _)⟩
  · rintro ⟨h0, h⟩
    have hl : (Byte.decimalDigits (s.machine.v.get x)).length = 3 := rfl
    obtain ⟨stored, hstore, hin, hout⟩ :=
      attempt_store (s := s) (fun m => Byte.decimalDigits (m.v.get x)) (Nat.succ_pos _) h0 (by omega)
    obtain ⟨v, hload, hv⟩ := execute_loadRegisters (p := p)
      (s := { s with machine := { s.machine with memory := stored } }) (x := 2) h0 h hl hin
    refine ⟨stored, v, hstore, hload, fun a ha => hout a (by omega), ?_, fun r hr => ?_⟩
    · rw [hv 0, hv 1, hv 2]
      exact Byte.decimalDigits_sum _
    · rw [hv r, List.getD_eq_getElem?_getD, List.getElem?_eq_none (by rw [hl]; omega), Option.getD_none]

theorem stored_then_loaded_at_end :
    let p : Processor := ⟨fun _ => -1, false⟩
    let s := Session.start { Machine.initial.setV 2 254 with i := 0xFFD }
    (0 ≤ s.machine.i ∧ s.machine.i + (2 : Register).val < 0x1000) ∧
    (∃ stored v, p.execute (.storeRegisters 2) s =
        .ok () { s with machine := { s.machine with memory := stored } } ∧
      p.execute (.loadRegisters 2)
          { s with machine := { s.machine with memory := stored, v := Vector.replicate 16 9 } } =
        .ok () { s with machine := { s.machine with memory := stored, v } } ∧
      v.get 2 = 254 ∧ v.get 3 = 9) ∧
    ∃ stored v, p.execute (.storeDecimal 2) s =
        .ok () { s with machine := { s.machine with memory := stored } } ∧
      p.execute (.loadRegisters 2) { s with machine := { s.machine with memory := stored } } =
        .ok () { s with machine := { s.machine with memory := stored, v } } ∧
      (v.get 0).toNat = 2 ∧ (v.get 1).toNat = 5 ∧ (v.get 2).toNat = 4 := by
  intro p s
  have hi : 0 ≤ s.machine.i ∧ s.machine.i + (2 : Register).val < 0x1000 := by decide
  obtain ⟨registers, digits⟩ := stored_then_loaded p s 2
  refine ⟨hi, ?_, ?_⟩
  · obtain ⟨stored, hstore, hload⟩ := registers hi
    obtain ⟨v, hv, hr⟩ := hload (Vector.replicate 16 9) stored fun _ _ _ => rfl
    exact ⟨stored, v, hstore, hv, hr 2, hr 3⟩
  · obtain ⟨stored, v, hstore, hload, -, hv, -⟩ := digits hi
    have hx : (s.machine.v.get 2).toNat = 254 := rfl
    exact ⟨stored, v, hstore, hload, by omega, by omega, by omega⟩

end Processor

end Chip8
