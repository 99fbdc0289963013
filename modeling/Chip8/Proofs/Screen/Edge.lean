import Chip8.Proofs.Instruction.Draw

namespace Chip8.Screen

variable {width height : Nat}

/-- The screen `t` is `s` after these cells have been switched over one by one, where `collided` tells whether
some cell was switched off. A cell that comes a second time collides with itself. -/
structure Switched (s : Screen width height) (cells : List (Int × Int)) (collided : Bool)
    (t : Screen width height) : Prop where
  onScreen : ∀ cell ∈ cells, OnScreen width height cell.1 cell.2
  pixel : ∀ px py, OnScreen width height px py → ∃ old, s.pixel px py = .ok old ∧
    t.pixel px py = .ok (old ^^ parity cells px py)
  collision : collided = true ↔ (∃ cell ∈ cells, s.pixel cell.1 cell.2 = .ok true) ∨ ¬ cells.Nodup

section Run

variable {cells : List (Int × Int)}

theorem flipAll_append {s t : Screen width height} {cells later : List (Int × Int)} {before collided : Bool}
    (h : flipAll cells before s = .ok collided t) :
    flipAll (cells ++ later) before s = flipAll later collided t := by
  induction cells generalizing s before with
  | nil =>
    cases h
    rfl
  | cons cell cells ih =>
    obtain ⟨x, y⟩ := cell
    rw [flipAll_cons_eq] at h
    rw [List.cons_append, flipAll_cons_eq]
    cases hf : s.flip x y with
    | error e =>
      rw [hf] at h
      cases h
    | ok r =>
      rw [hf] at h
      exact ih h

theorem switched_of_onScreen (s : Screen width height)
    (h : ∀ cell ∈ cells, OnScreen width height cell.1 cell.2) :
    ∃ collided t, flipAll cells false s = .ok collided t ∧ s.Switched cells collided t := by
  obtain ⟨collided, hf, hc⟩ := flipAll_of_onScreen s false h
  refine ⟨collided, _, hf, h, fun px py hp => ?_, ?_⟩
  · exact ⟨s.lit px py, pixel_of_onScreen s hp, by rw [pixel_of_onScreen _ hp, lit_xor s _ hp]⟩
  · rw [hc]
    simp only [Bool.false_eq_true, false_or]
    refine or_congr_left (exists_congr fun cell => and_congr_right fun hm => ?_)
    rw [pixel_of_onScreen s (h cell hm), Except.ok.injEq]

theorem Switched.unique {s t t' : Screen width height} {collided collided' : Bool}
    (h : s.Switched cells collided t) (h' : s.Switched cells collided' t') : collided = collided' ∧ t = t' := by
  refine ⟨Bool.eq_iff_iff.mpr (h.collision.trans h'.collision.symm), ext_lit fun px py hp => ?_⟩
  obtain ⟨old, ho, ht⟩ := h.pixel px py hp
  obtain ⟨old', ho', ht'⟩ := h'.pixel px py hp
  rw [pixel_of_onScreen _ hp, Except.ok.injEq] at ho ho' ht ht'
  rw [ht, ht', ← ho, ← ho']

theorem flip_of_refused (s : Screen width height) {cell : Int × Int} (hm : cell ∈ landings width height cells)
    (hn : ¬ OnScreen width height cell.1 cell.2) :
    s.flip cell.1 cell.2 = .error ⟨address width cell.1 cell.2, 1, width * height⟩ := by
  obtain ⟨⟨px, py⟩, hf, rfl⟩ := List.mem_map.mp hm
  have hc : px < width ∧ py < height := by simpa using (List.mem_filter.mp hf).2
  have hclip : ¬ ((width : Int) ≤ px ∨ (height : Int) ≤ py) := by omega
  rw [flip_landing s hc.1 hc.2, address_landing, flip, if_neg hclip,
    dif_neg fun h => hn ((inRange_iff_landing hc.1 hc.2).mp h)]

theorem flipAll_refused (s : Screen width height) {before after : List (Int × Int)} {cell : Int × Int}
    (he : landings width height cells = before ++ cell :: after)
    (hb : ∀ c ∈ before, OnScreen width height c.1 c.2) (hn : ¬ OnScreen width height cell.1 cell.2) :
    ∃ collided t, s.Switched before collided t ∧
      flipAll cells false s = .error ⟨address width cell.1 cell.2, 1, width * height⟩ t := by
  obtain ⟨collided, t, hf, ht⟩ := s.switched_of_onScreen hb
  have hm : cell ∈ landings width height cells := he ▸ List.mem_append_right _ List.mem_cons_self
  refine ⟨collided, t, ht, ?_⟩
  rw [← flipAll_landings, he, flipAll_append hf, flipAll_cons_eq, t.flip_of_refused hm hn]

theorem onScreen_or_refused (width height : Nat) (cells : List (Int × Int)) :
    (∀ cell ∈ cells, OnScreen width height cell.1 cell.2) ∨
      ∃ before cell after, cells = before ++ cell :: after ∧
        (∀ c ∈ before, OnScreen width height c.1 c.2) ∧ ¬ OnScreen width height cell.1 cell.2 := by
  cases h : cells.find? fun cell => !decide (OnScreen width height cell.1 cell.2) with
  | none => exact .inl fun cell hm => by simpa using List.find?_eq_none.mp h cell hm
  | some cell =>
    obtain ⟨hn, before, after, he, hb⟩ := List.find?_eq_some_iff_append.mp h
    exact .inr ⟨before, cell, after, he, fun c hc => by simpa using hb c hc, by simpa using hn⟩

theorem flipAll_eq_ok_iff (s : Screen width height) {collided : Bool} {t : Screen width height} :
    flipAll cells false s = .ok collided t ↔ s.Switched (landings width height cells) collided t := by
  obtain h | ⟨before, cell, after, he, hb, hn⟩ := onScreen_or_refused width height (landings width height cells)
  · obtain ⟨collided', t', hf, hs⟩ := s.switched_of_onScreen h
    rw [flipAll_landings] at hf
    constructor
    · intro h'
      rw [hf] at h'
      cases h'
      exact hs
    · intro hs'
      obtain ⟨rfl, rfl⟩ := hs.unique hs'
      exact hf
  · obtain ⟨_, t', -, hf⟩ := s.flipAll_refused he hb hn
    rw [hf]
    refine iff_of_false nofun fun hs => hn (hs.onScreen cell ?_)
    exact he ▸ List.mem_append_right _ List.mem_cons_self

theorem flipAll_eq_error_iff (s : Screen width height) {e : Memory.OutOfRange} {t : Screen width height} :
    flipAll cells false s = .error e t ↔ ∃ before cell after collided,
      landings width height cells = before ++ cell :: after ∧ s.Switched before collided t ∧
        ¬ OnScreen width height cell.1 cell.2 ∧ e = ⟨address width cell.1 cell.2, 1, width * height⟩ := by
  constructor
  · intro h
    obtain hon | ⟨before, cell, after, he, hb, hn⟩ :=
      onScreen_or_refused width height (landings width height cells)
    · obtain ⟨collided, t', hf, -⟩ := s.switched_of_onScreen hon
      rw [flipAll_landings, h] at hf
      cases hf
    · obtain ⟨collided, t', hs, hf⟩ := s.flipAll_refused he hb hn
      rw [h] at hf
      cases hf
      exact ⟨before, cell, after, collided, he, hs, hn, rfl⟩
  · rintro ⟨before, cell, after, collided, he, hs, hn, rfl⟩
    obtain ⟨collided', t', hs', hf⟩ := s.flipAll_refused he hs.onScreen hn
    obtain ⟨-, rfl⟩ := hs.unique hs'
    exact hf

end Run

section Sprite

variable {x y : Int} {sprite : List UInt8} {s t : Screen width height} {collided : Bool}

theorem landing_inj (hw : 8 ≤ width) {px py qx qy : Int} (hp : (px, py) ∈ spriteCells x y sprite)
    (hq : (qx, qy) ∈ spriteCells x y sprite) (h : landing width px py = landing width qx qy) :
    (px, py) = (qx, qy) := by
  obtain ⟨⟨hp0, hp8⟩, -⟩ := spritePicture_bounds (mem_spriteCells.mp hp)
  obtain ⟨⟨hq0, hq8⟩, -⟩ := spritePicture_bounds (mem_spriteCells.mp hq)
  obtain ⟨hcolumn, hrow⟩ := Prod.mk.inj h
  have hdvd := Int.dvd_of_emod_eq_zero (Int.emod_eq_emod_iff_emod_sub_eq_zero.mp hcolumn)
  have hx : px - qx = 0 := Int.eq_zero_of_dvd_of_natAbs_lt_natAbs hdvd (by omega)
  obtain rfl : px = qx := by omega
  exact Prod.ext rfl (by simpa using hrow)

theorem nodup_landings (hw : 8 ≤ width) : (landings width height (spriteCells x y sprite)).Nodup := by
  refine ((nodup_spriteCells x y sprite).filter _).map_on ?_
  rintro ⟨px, py⟩ hp ⟨qx, qy⟩ hq h
  exact landing_inj hw (List.mem_of_mem_filter hp) (List.mem_of_mem_filter hq) h

theorem not_astray_of_blitted (hw : 8 ≤ width)
    (hs : s.Switched (landings width height (spriteCells x y sprite)) collided t)
    (hb : s.Blitted x y sprite collided t) {px py : Int} (hbit : spriteBit sprite (px - x) (py - y) = true) :
    ¬ Astray width height px py := by
  rintro ⟨hleft, hx, hy⟩
  have hmem : (px, py) ∈ spriteCells x y sprite := mem_spriteCells.mpr hbit
  have hland : landing width px py ∈ landings width height (spriteCells x y sprite) :=
    List.mem_map.mpr ⟨(px, py), List.mem_filter.mpr ⟨hmem, by simpa using ⟨hx, hy⟩⟩, rfl⟩
  have hon := hs.onScreen _ hland
  -- the cell it lands on is switched over, so it is one of the sprite's own
  have hbit' : (landing width px py) ∈ spriteCells x y sprite := by
    obtain ⟨old, ho, ht⟩ := hs.pixel _ _ hon
    obtain ⟨old', ho', ht'⟩ := hb.pixel _ _ hon
    rw [ho, Except.ok.injEq] at ho'
    subst ho'
    rw [ht, Except.ok.injEq, Bool.xor_right_inj, parity_of_nodup (nodup_landings hw), decide_eq_true hland] at ht'
    exact mem_spriteCells.mpr ht'.symm
  have he : (px, py) = landing width px py := landing_inj hw hmem hbit' (landing_of_onScreen hon).symm
  rw [← he] at hon
  have := hon.1.1
  have := hon.2.1
  omega

end Sprite

/-- A sprite at any column and row is drawn as on a screen that clips on all sides if none of its lit cells is
astray, and only then on a screen as wide as a sprite or wider, where no two of them land on one cell. In any case
the cells that are not clipped at the right or at the bottom are switched over one by one where they land, which
for those left of the screen is in an earlier row. If one lands above the screen, the place that it is looked up at
is refused, and the cells before it stay switched over. -/
theorem clipped_unless_astray (s : Screen width height) (x y : Int) (sprite : List UInt8) :
    ((∀ px py, spriteBit sprite (px - x) (py - y) = true → ¬ Astray width height px py) →
      ∃ collided t, drawSprite x y sprite s = .ok collided t ∧ s.Blitted x y sprite collided t) ∧
    (8 ≤ width → (∃ collided t, drawSprite x y sprite s = .ok collided t ∧ s.Blitted x y sprite collided t) →
      ∀ px py, spriteBit sprite (px - x) (py - y) = true → ¬ Astray width height px py) ∧
    (∀ collided t, drawSprite x y sprite s = .ok collided t ↔
      s.Switched (landings width height (spriteCells x y sprite)) collided t) ∧
    ∀ e t, drawSprite x y sprite s = .error e t ↔ ∃ before cell after collided,
      landings width height (spriteCells x y sprite) = before ++ cell :: after ∧ s.Switched before collided t ∧
        ¬ OnScreen width height cell.1 cell.2 ∧ e = ⟨address width cell.1 cell.2, 1, width * height⟩ := by
  refine ⟨fun h => ?_, ?_, fun collided t => s.flipAll_eq_ok_iff, fun e t => s.flipAll_eq_error_iff⟩
  · exact ⟨_, _, s.drawSprite_of_not_astray h, s.blitted_drawn x y sprite⟩
  · rintro hw ⟨collided, t, hf, hb⟩ px py hbit
    exact not_astray_of_blitted hw (s.flipAll_eq_ok_iff.mp hf) hb hbit

theorem clipped_unless_astray_at_corner :
    (∀ px py, spriteBit [0x00, 0x1F] (px - -3) (py - -1) = true → ¬ Astray 8 2 px py) ∧
    (∃ collided t, drawSprite (-3) (-1) [0x00, 0x1F] (blank 8 2) = .ok collided t ∧
      (blank 8 2).Blitted (-3) (-1) [0x00, 0x1F] collided t) ∧
    8 ≤ 8 ∧ Astray 8 2 (-1) 1 ∧
    ¬ ∃ collided t, drawSprite (-1) 1 [0x80] (blank 8 2) = .ok collided t ∧
      (blank 8 2).Blitted (-1) 1 [0x80] collided t := by
  have hcells : ∀ cell ∈ spriteCells (-3) (-1) [0x00, 0x1F], ¬ Astray 8 2 cell.1 cell.2 := by decide
  have hbits : ∀ px py, spriteBit [0x00, 0x1F] (px - -3) (py - -1) = true → ¬ Astray 8 2 px py :=
    fun px py hb => hcells (px, py) (mem_spriteCells.mpr hb)
  have hastray : Astray 8 2 (-1) 1 := by decide
  obtain ⟨hdrawn, -⟩ := clipped_unless_astray (blank 8 2) (-3) (-1) [0x00, 0x1F]
  obtain ⟨-, honly, -⟩ := clipped_unless_astray (blank 8 2) (-1) 1 [0x80]
  exact ⟨hbits, hdrawn hbits, by decide, hastray, fun h => honly (by decide) h (-1) 1 (by decide) hastray⟩

/-- A sprite of one lit cell just left of the screen lights a cell at its right edge, in the row above. -/
theorem left_edge_not_clipped :
    ¬ ∀ (width height : Nat) (s : Screen width height) (x y : Int) (sprite : List UInt8),
      0 < width → 0 < height → x < 0 ∨ y < 0 →
        ∃ collided t, drawSprite x y sprite s = .ok collided t ∧ s.Blitted x y sprite collided t := by
  intro h
  obtain ⟨collided, t, hd, hb⟩ := h 4 2 (blank 4 2) (-1) 1 [0x80] (by decide) (by decide) (by decide)
  obtain ⟨old, ho, ht⟩ := hb.pixel 3 0 (by decide)
  have hd' : drawSprite (-1) 1 [0x80] (blank 4 2) = .ok false ((blank 4 2).xor (dot 3 0)) := by rfl
  rw [hd'] at hd
  cases hd
  have hold : (blank 4 2).pixel 3 0 = .ok false := by rfl
  have hnew : ((blank 4 2).xor (dot 3 0)).pixel 3 0 = .ok true := by rfl
  rw [hold] at ho
  rw [hnew] at ht
  cases ho
  cases ht

end Chip8.Screen
