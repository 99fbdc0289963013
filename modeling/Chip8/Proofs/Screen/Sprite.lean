import Mathlib.Data.List.Nodup
import Chip8.Proofs.Screen.Picture

namespace Chip8.Screen

variable {width height : Nat}

def rowBit (byte : UInt8) (column : Int) : Bool :=
  decide (0 ≤ column ∧ column < 8) && byte.toNat.testBit (7 - column.toNat)

/-- Columns and rows count from the sprite's upper left corner. -/
def spriteBit (sprite : List UInt8) (column row : Int) : Bool :=
  if 0 ≤ row then
    match sprite[row.toNat]? with
    | some byte => rowBit byte column
    | none => false
  else false

def spritePicture (x y : Int) (sprite : List UInt8) : Picture := fun px py =>
  spriteBit sprite (px - x) (py - y)

def drawn (s : Screen width height) (x y : Int) (sprite : List UInt8) : Screen width height :=
  s.xor (spritePicture x y sprite)

def collides (s : Screen width height) (x y : Int) (sprite : List UInt8) : Bool :=
  (spriteCells x y sprite).any fun cell => s.lit cell.1 cell.2

def dot (x y : Int) : Picture := fun px py => decide ((px, py) = (x, y))

/-- The cell lies left of the screen or above it and is not clipped for another reason. -/
def Astray (width height : Nat) (x y : Int) : Prop :=
  (x < 0 ∨ y < 0) ∧ x < width ∧ y < height

instance (width height : Nat) (x y : Int) : Decidable (Astray width height x y) :=
  inferInstanceAs (Decidable (_ ∧ _))

/-- Where the array has a cell. Columns left of the screen are those at the right of an earlier row. -/
def landing (width : Nat) (x y : Int) : Int × Int :=
  (x % width, y + x / width)

/-- What is switched over for these cells, in turn; nothing is for those past the right or the bottom edge. -/
def landings (width height : Nat) (cells : List (Int × Int)) : List (Int × Int) :=
  (cells.filter fun cell : Int × Int => cell.1 < width ∧ cell.2 < height).map fun cell =>
    landing width cell.1 cell.2

def parity (cells : List (Int × Int)) : Picture := fun px py =>
  decide (cells.count (px, py) % 2 = 1)

theorem mem_columns {byte : UInt8} {c : Nat} :
    c ∈ columns byte ↔ rowBit byte c = true := by
  simp only [columns, rowBit, List.mem_filter, List.mem_range, Bool.and_eq_true, decide_eq_true_eq,
    Int.toNat_natCast]
  constructor
  · rintro ⟨hc, hb⟩
    exact ⟨by omega, hb⟩
  · rintro ⟨hc, hb⟩
    exact ⟨by omega, hb⟩

theorem spriteBit_nil (column row : Int) : spriteBit [] column row = false := by
  simp [spriteBit]

theorem spriteBit_cons (byte : UInt8) (rest : List UInt8) (column row : Int) :
    spriteBit (byte :: rest) column row =
      if row = 0 then rowBit byte column else spriteBit rest column (row - 1) := by
  simp only [spriteBit]
  obtain hr | rfl | hr := Int.lt_trichotomy row 0
  · rw [if_neg (by omega), if_neg (by omega), if_neg (by omega)]
  · rfl
  · have hs : row.toNat = (row - 1).toNat + 1 := by omega
    rw [if_pos (by omega), if_neg (by omega), if_pos (by omega), hs, List.getElem?_cons_succ]

theorem mem_spriteCells {x y px py : Int} {sprite : List UInt8} :
    (px, py) ∈ spriteCells x y sprite ↔ spritePicture x y sprite px py = true := by
  simp only [spritePicture]
  induction sprite generalizing y with
  | nil => simp [spriteCells, spriteBit_nil]
  | cons byte rest ih =>
    rw [spriteCells, List.mem_append, ih, spriteBit_cons, List.mem_map]
    have hrow : py - (y + 1) = py - y - 1 := by omega
    rw [hrow]
    constructor
    · rintro (⟨c, hc, he⟩ | hr)
      · obtain ⟨rfl, rfl⟩ := Prod.mk.inj he
        rw [if_pos (by omega)]
        have hcol : x + (c : Int) - x = c := by omega
        rw [hcol]
        exact mem_columns.mp hc
      · have hne : py - y ≠ 0 := by
          intro h0
          rw [h0] at hr
          simp [spriteBit] at hr
        rw [if_neg hne]
        exact hr
    · intro h
      by_cases h0 : py - y = 0
      · rw [if_pos h0] at h
        have hb := h
        simp only [rowBit, Bool.and_eq_true, decide_eq_true_eq] at hb
        refine .inl ⟨(px - x).toNat, mem_columns.mpr ?_,
          Prod.ext (by simp only; omega) (by simp only; omega)⟩
        rw [Int.toNat_of_nonneg hb.1.1]
        exact h
      · rw [if_neg h0] at h
        exact .inr h

theorem collides_iff (s : Screen width height) (x y : Int) (sprite : List UInt8) :
    s.collides x y sprite = true ↔
      ∃ px py, s.lit px py = true ∧ spriteBit sprite (px - x) (py - y) = true := by
  rw [collides, List.any_eq_true]
  constructor
  · rintro ⟨⟨px, py⟩, hc, hl⟩
    exact ⟨px, py, hl, mem_spriteCells.mp hc⟩
  · rintro ⟨px, py, hl, hb⟩
    exact ⟨(px, py), mem_spriteCells.mpr hb, hl⟩

theorem spritePicture_bounds {x y px py : Int} {sprite : List UInt8}
    (h : spritePicture x y sprite px py = true) : (x ≤ px ∧ px < x + 8) ∧ y ≤ py := by
  simp only [spritePicture, spriteBit] at h
  split at h
  · split at h
    · simp only [rowBit, Bool.and_eq_true, decide_eq_true_eq] at h
      omega
    · exact Bool.noConfusion h
  · exact Bool.noConfusion h

theorem nodup_columns (byte : UInt8) : (columns byte).Nodup :=
  List.nodup_range.filter _

theorem nodup_spriteCells (x y : Int) (sprite : List UInt8) : (spriteCells x y sprite).Nodup := by
  induction sprite generalizing y with
  | nil => exact List.nodup_nil
  | cons byte rest ih =>
    rw [spriteCells, List.nodup_append]
    refine ⟨?_, ih (y + 1), ?_⟩
    · refine List.Pairwise.map _ ?_ (nodup_columns byte)
      intro c d hne he
      have hcd : (c : Int) = d := by simpa using he
      exact hne (Int.ofNat.inj hcd)
    · -- later rows lie further down
      rintro cell hc cell' hc' rfl
      obtain ⟨c, -, rfl⟩ := List.mem_map.mp hc
      rw [mem_spriteCells, spritePicture, spriteBit, if_neg (by omega)] at hc'
      exact Bool.noConfusion hc'

theorem address_toNat_inj {x y px py : Int} (h : OnScreen width height x y)
    (hp : OnScreen width height px py)
    (he : (address width x y).toNat = (address width px py).toNat) : (px, py) = (x, y) := by
  have hx := hp.address_mod
  have hy := hp.address_div
  rw [← he, h.address_mod] at hx
  rw [← he, h.address_div] at hy
  rw [hx, hy]

theorem set_eq_xor_dot (s : Screen width height) {x y : Int} (h : OnScreen width height x y) :
    (⟨s.cells.set (address width x y).toNat (!s.lit x y) h.address_lt⟩ : Screen width height) =
      s.xor (dot x y) := by
  apply ext_lit
  intro px py hp
  rw [lit_xor s _ hp, lit_eq_getElem _ hp.address_lt hp rfl, Vector.getElem_set]
  by_cases he : (px, py) = (x, y)
  · obtain ⟨rfl, rfl⟩ := Prod.mk.inj he
    simp [dot]
  · have hne : (address width x y).toNat ≠ (address width px py).toNat := fun ha =>
      he (address_toNat_inj h hp ha)
    simp only [if_neg hne, dot, he, decide_false, Bool.xor_false]
    rw [lit_eq_getElem s hp.address_lt hp rfl]

theorem flip_of_onScreen (s : Screen width height) {x y : Int} (h : OnScreen width height x y) :
    s.flip x y = .ok (if s.lit x y then .switchedOff else .switchedOn, s.xor (dot x y)) := by
  have hc : ¬ ((width : Int) ≤ x ∨ (height : Int) ≤ y) := by
    simp only [OnScreen] at h
    omega
  rw [flip, if_neg hc, dif_pos (inRange_address h.1 h.2), ← set_eq_xor_dot s h,
    lit_eq_getElem s h.address_lt h rfl]

theorem lit_xor_dot_of_ne (s : Screen width height) {x y px py : Int} (h : (px, py) ≠ (x, y)) :
    (s.xor (dot x y)).lit px py = s.lit px py := by
  by_cases hp : OnScreen width height px py
  · rw [lit_xor s _ hp, dot, decide_eq_false h, Bool.xor_false]
  · rw [lit_of_not_onScreen _ hp, lit_of_not_onScreen _ hp]

section Landing

variable {x y : Int}

theorem address_landing (width : Nat) (x y : Int) :
    address width (landing width x y).1 (landing width x y).2 = address width x y := by
  have h := Int.emod_add_mul_ediv x width
  rw [Int.mul_comm] at h
  simp only [landing, address, Int.add_mul]
  omega

theorem landing_of_onScreen (h : OnScreen width height x y) : landing width x y = (x, y) := by
  rw [landing, Int.emod_eq_of_lt h.1.1 h.1.2, Int.ediv_eq_zero_of_lt h.1.1 h.1.2, Int.add_zero]

theorem landing_not_clipped (hx : x < width) (hy : y < height) :
    ¬ ((width : Int) ≤ (landing width x y).1 ∨ (height : Int) ≤ (landing width x y).2) := by
  simp only [landing]
  obtain rfl | hw := Nat.eq_zero_or_pos width
  · simp
    omega
  · have hcolumn := Int.emod_lt_of_pos x (show (0 : Int) < width by omega)
    have hrow : x / width < 1 := Int.ediv_lt_of_lt_mul (by omega) (by omega)
    omega

theorem inRange_iff_landing (hx : x < width) (hy : y < height) :
    Memory.InRange (width * height) (address width x y) 1 ↔
      OnScreen width height (landing width x y).1 (landing width x y).2 := by
  have hclip := landing_not_clipped hx hy
  have he := address_landing width x y
  constructor
  · intro h
    have hn : 0 ≤ address width x y := h.1
    have hw : 0 < (width : Int) := by
      obtain rfl | hw := Nat.eq_zero_or_pos width
      · simp [address] at hn hx
        omega
      · omega
    have hcolumn := Int.emod_nonneg x (show (width : Int) ≠ 0 by omega)
    have hcolumn' : (landing width x y).1 < width := by omega
    obtain hrow | hrow := Int.lt_or_le (landing width x y).2 0
    · have := Int.mul_le_mul_of_nonneg_right (show (landing width x y).2 ≤ -1 by omega) (Int.le_of_lt hw)
      rw [← he, address] at hn
      omega
    · exact ⟨⟨hcolumn, hcolumn'⟩, hrow, by omega⟩
  · intro h
    rw [← he]
    exact inRange_address h.1 h.2

/-- A cell that is not clipped is switched over where it lands. -/
theorem flip_landing (s : Screen width height) (hx : x < width) (hy : y < height) :
    s.flip (landing width x y).1 (landing width x y).2 = s.flip x y := by
  have hclip : ¬ ((width : Int) ≤ x ∨ (height : Int) ≤ y) := by omega
  simp only [flip, if_neg (landing_not_clipped hx hy), if_neg hclip, address_landing]

theorem onScreen_of_not_astray (h : ¬ Astray width height x y) (hx : x < width) (hy : y < height) :
    OnScreen width height x y := by
  simp only [Astray] at h
  simp only [OnScreen]
  omega

end Landing

section Run

variable {cells : List (Int × Int)}

theorem flipAll_cons_eq (s : Screen width height) (x y : Int) (cells : List (Int × Int)) (collided : Bool) :
    flipAll ((x, y) :: cells) collided s = match s.flip x y with
      | .error e => .error e s
      | .ok (outcome, t) => flipAll cells (collided || decide (outcome = .switchedOff)) t := by
  have hg : (get : EStateM Memory.OutOfRange (Screen width height) _) s = .ok s s := rfl
  cases h : s.flip x y with
  | error e =>
    simp only [flipAll, bind, EStateM.bind, hg, h]
    rfl
  | ok r =>
    have ht : (set r.2 : EStateM Memory.OutOfRange (Screen width height) PUnit) s = .ok ⟨⟩ r.2 := rfl
    simp only [flipAll, bind, EStateM.bind, hg, h, ht]

theorem flipAll_landings (s : Screen width height) (cells : List (Int × Int)) (collided : Bool) :
    flipAll (landings width height cells) collided s = flipAll cells collided s := by
  -- a cell that is clipped is dropped on the left and passed over on the right
  induction cells generalizing s collided with
  | nil => rfl
  | cons cell cells ih =>
    obtain ⟨x, y⟩ := cell
    rw [flipAll_cons_eq s x y]
    by_cases h : x < width ∧ y < height
    · have hl : landings width height ((x, y) :: cells) =
          ((landing width x y).1, (landing width x y).2) :: landings width height cells := by
        rw [landings, List.filter_cons_of_pos (by simpa using h)]
        rfl
      rw [hl, flipAll_cons_eq, flip_landing s h.1 h.2]
      simp only [ih]
    · have hl : landings width height ((x, y) :: cells) = landings width height cells := by
        rw [landings, List.filter_cons_of_neg (by simpa using h)]
        rfl
      have hc : (width : Int) ≤ x ∨ (height : Int) ≤ y := by omega
      rw [hl, ih, flip, if_pos hc]
      simp

theorem parity_cons (x y : Int) (cells : List (Int × Int)) (px py : Int) :
    parity ((x, y) :: cells) px py = (dot x y px py ^^ parity cells px py) := by
  simp only [parity, dot, List.count_cons]
  by_cases he : (px, py) = (x, y)
  · obtain ⟨rfl, rfl⟩ := Prod.mk.inj he
    by_cases hc : cells.count (px, py) % 2 = 1
    · have hc' : ¬ (cells.count (px, py) + 1) % 2 = 1 := by omega
      simp [hc, hc']
    · have hc' : (cells.count (px, py) + 1) % 2 = 1 := by omega
      simp [hc, hc']
  · have hne : ¬ ((x, y) == (px, py)) = true := fun h => he (LawfulBEq.eq_of_beq h).symm
    simp [he, hne]

theorem parity_of_nodup (h : cells.Nodup) (px py : Int) : parity cells px py = decide ((px, py) ∈ cells) := by
  rw [parity, h.count]
  by_cases hm : (px, py) ∈ cells <;> simp [hm]

theorem collides_cons_iff (s : Screen width height) {x y : Int} (h : OnScreen width height x y) :
    s.lit x y = true ∨ (∃ cell ∈ cells, (s.xor (dot x y)).lit cell.1 cell.2 = true) ∨ ¬ cells.Nodup ↔
      (∃ cell ∈ (x, y) :: cells, s.lit cell.1 cell.2 = true) ∨ ¬ ((x, y) :: cells).Nodup := by
  have hself : (s.xor (dot x y)).lit x y = !s.lit x y := by
    rw [lit_xor s _ h]
    simp [dot]
  simp only [List.exists_mem_cons_iff, List.nodup_cons, not_and_or, not_not]
  by_cases hl : s.lit x y = true
  · simp [hl]
  · have hother : (∃ cell ∈ cells, (s.xor (dot x y)).lit cell.1 cell.2 = true) ↔
        (∃ cell ∈ cells, s.lit cell.1 cell.2 = true) ∨ (x, y) ∈ cells := by
      constructor
      · rintro ⟨cell, hm, hc⟩
        by_cases he : cell = (x, y)
        · exact .inr (he ▸ hm)
        · rw [lit_xor_dot_of_ne s he] at hc
          exact .inl ⟨cell, hm, hc⟩
      · rintro (⟨cell, hm, hc⟩ | hm)
        · have he : cell ≠ (x, y) := by
            rintro rfl
            exact hl hc
          exact ⟨cell, hm, by rwa [lit_xor_dot_of_ne s he]⟩
        · exact ⟨_, hm, by simpa [hself] using hl⟩
    rw [hother, or_assoc]
    simp [hl]

theorem flipAll_of_onScreen (s : Screen width height) (before : Bool)
    (h : ∀ cell ∈ cells, OnScreen width height cell.1 cell.2) :
    ∃ collided, flipAll cells before s = .ok collided (s.xor (parity cells)) ∧
      (collided = true ↔ before = true ∨ (∃ cell ∈ cells, s.lit cell.1 cell.2 = true) ∨ ¬ cells.Nodup) := by
  -- over any screen, as a cell that comes twice finds what it has left itself
  induction cells generalizing s before with
  | nil =>
    have hd : s.xor (parity []) = s := xor_dark s
    rw [hd]
    exact ⟨before, rfl, by simp⟩
  | cons cell cells ih =>
    obtain ⟨x, y⟩ := cell
    obtain ⟨hxy, hcells⟩ := List.forall_mem_cons.mp h
    obtain ⟨collided, hf, hc⟩ := ih (s.xor (dot x y)) (before || s.lit x y) hcells
    have hp : (s.xor (dot x y)).xor (parity cells) = s.xor (parity ((x, y) :: cells)) := by
      rw [xor_xor]
      congr 1
      funext px py
      rw [parity_cons]
    have hlit : decide ((if s.lit x y then Flip.switchedOff else Flip.switchedOn) = Flip.switchedOff) =
        s.lit x y := by
      cases s.lit x y <;> rfl
    refine ⟨collided, ?_, ?_⟩
    · rw [flipAll_cons_eq, flip_of_onScreen s hxy, ← hp, ← hf]
      simp only [hlit]
    · rw [hc, Bool.or_eq_true, or_assoc, collides_cons_iff s hxy]

theorem landings_of_not_astray (h : ∀ cell ∈ cells, ¬ Astray width height cell.1 cell.2) :
    landings width height cells = cells.filter fun cell : Int × Int => cell.1 < width ∧ cell.2 < height := by
  rw [landings]
  refine (List.map_congr_left fun cell hm => ?_).trans (List.map_id _)
  obtain ⟨hc, hclip⟩ := List.mem_filter.mp hm
  have hclip : cell.1 < width ∧ cell.2 < height := by simpa using hclip
  exact landing_of_onScreen (onScreen_of_not_astray (h cell hc) hclip.1 hclip.2)

theorem mem_landings_of_not_astray (h : ∀ cell ∈ cells, ¬ Astray width height cell.1 cell.2)
    (cell : Int × Int) :
    cell ∈ landings width height cells ↔ cell ∈ cells ∧ OnScreen width height cell.1 cell.2 := by
  rw [landings_of_not_astray h, List.mem_filter, decide_eq_true_iff]
  refine and_congr_right fun hm => ⟨fun hc => ?_, fun ho => ⟨ho.1.2, ho.2.2⟩⟩
  exact onScreen_of_not_astray (h cell hm) hc.1 hc.2

end Run

/-- A sprite is drawn as its picture if no lit cell of it is astray. -/
theorem drawSprite_of_not_astray (s : Screen width height) {x y : Int} {sprite : List UInt8}
    (h : ∀ px py, spritePicture x y sprite px py = true → ¬ Astray width height px py) :
    drawSprite x y sprite s = .ok (s.collides x y sprite) (s.drawn x y sprite) := by
  have ha : ∀ cell ∈ spriteCells x y sprite, ¬ Astray width height cell.1 cell.2 := fun cell hm =>
    h _ _ (mem_spriteCells.mp hm)
  have hm := mem_landings_of_not_astray ha
  have hn : (landings width height (spriteCells x y sprite)).Nodup :=
    landings_of_not_astray ha ▸ (nodup_spriteCells x y sprite).filter _
  obtain ⟨collided, hf, hc⟩ := s.flipAll_of_onScreen false fun cell hc => ((hm cell).mp hc).2
  have hd : s.xor (parity (landings width height (spriteCells x y sprite))) = s.drawn x y sprite := by
    apply xor_congr
    intro px py hp
    rw [parity_of_nodup hn, Bool.eq_iff_iff, decide_eq_true_iff, hm, and_iff_left hp]
    exact mem_spriteCells
  have hl : collided = s.collides x y sprite := by
    rw [Bool.eq_iff_iff, hc, collides, List.any_eq_true, or_iff_left (not_not_intro hn),
      or_iff_right Bool.false_ne_true]
    refine exists_congr fun cell => and_congr_left fun hlit => ?_
    rw [hm, and_iff_left (onScreen_of_lit hlit)]
  rw [drawSprite, ← flipAll_landings, hf, hd, hl]

theorem drawSprite_eq (s : Screen width height) {x y : Int} (hx : 0 ≤ x) (hy : 0 ≤ y)
    (sprite : List UInt8) :
    drawSprite x y sprite s = .ok (s.collides x y sprite) (s.drawn x y sprite) := by
  refine s.drawSprite_of_not_astray fun px py hp ha => ?_
  obtain ⟨⟨hpx, -⟩, hpy⟩ := spritePicture_bounds hp
  have := ha.1
  omega

end Chip8.Screen
