import Chip8.Proofs.Instruction.Effect

namespace Chip8

namespace Screen

variable {width height : Nat}

/-- The screen `t` is `s` after a sprite has been drawn with its upper left corner at a column and a row,
where `collided` tells whether some cell was switched off. -/
structure Blitted (s : Screen width height) (x y : Int) (sprite : List UInt8) (collided : Bool)
    (t : Screen width height) : Prop where
  pixel : ∀ px py, OnScreen width height px py → ∃ old, s.pixel px py = .ok old ∧
    t.pixel px py = .ok (old ^^ spriteBit sprite (px - x) (py - y))
  collision : collided = true ↔ ∃ px py, OnScreen width height px py ∧
    s.pixel px py = .ok true ∧ spriteBit sprite (px - x) (py - y) = true

theorem blitted_drawn (s : Screen width height) (x y : Int) (sprite : List UInt8) :
    s.Blitted x y sprite (s.collides x y sprite) (s.drawn x y sprite) where
  pixel px py h := by
    refine ⟨s.lit px py, pixel_of_onScreen s h, ?_⟩
    rw [pixel_of_onScreen _ h, drawn, lit_xor s _ h, spritePicture]
  collision := by
    rw [collides_iff]
    constructor
    · rintro ⟨px, py, hl, hb⟩
      have h := onScreen_of_lit hl
      exact ⟨px, py, h, by rw [pixel_of_onScreen s h, hl], hb⟩
    · rintro ⟨px, py, h, hp, hb⟩
      rw [pixel_of_onScreen s h] at hp
      exact ⟨px, py, Except.ok.inj hp, hb⟩

end Screen

namespace Machine

variable {m : Machine} {rows : Fin 16}

theorem draw_fault?_eq (x y : Register) :
    (Instruction.draw x y rows).fault? m =
      if rows = 0 ∨ 0 ≤ m.i ∧ m.i + rows.val ≤ 0x1000 then none
      else some (.memory ⟨m.i, rows.val, memorySize⟩) := by
  by_cases h0 : rows = 0
  · simp only [Instruction.fault?, h0, true_or, if_true]
  · have hn : 0 < rows.val := Fin.pos_iff_ne_zero.mpr h0
    have hr : Memory.InRange memorySize m.i rows.val ↔ 0 ≤ m.i ∧ m.i + rows.val ≤ 0x1000 := by
      simp only [Memory.InRange, memorySize]
      omega
    simp only [Instruction.fault?, h0, if_false, blockFault?, hr, false_or]

end Machine

namespace Processor

end Processor

end Chip8
