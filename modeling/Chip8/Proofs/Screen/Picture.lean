import Chip8.Screen

namespace Chip8

abbrev Picture := Int → Int → Bool

namespace Screen

variable {width height : Nat}

def OnScreen (width height : Nat) (x y : Int) : Prop :=
  (0 ≤ x ∧ x < width) ∧ 0 ≤ y ∧ y < height

instance (width height : Nat) (x y : Int) : Decidable (OnScreen width height x y) :=
  inferInstanceAs (Decidable (_ ∧ _))

/-- Whether the cell is lit; there is no light off the screen. -/
def lit (s : Screen width height) (x y : Int) : Bool :=
  match s.pixel x y with
  | .ok on => on
  | .error _ => false

def xor (s : Screen width height) (picture : Picture) : Screen width height :=
  ⟨Vector.ofFn fun a => s.cells.get a ^^ picture (a.val % width : Nat) (a.val / width : Nat)⟩

theorem OnScreen.address_lt {x y : Int} (h : OnScreen width height x y) :
    (address width x y).toNat < width * height :=
  (inRange_address h.1 h.2).toNat_lt

theorem address_eq_toNat {x y : Int} (hx : 0 ≤ x) (hy : 0 ≤ y) :
    (address width x y).toNat = x.toNat + width * y.toNat := by
  obtain ⟨column, rfl⟩ := Int.eq_ofNat_of_zero_le hx
  obtain ⟨row, rfl⟩ := Int.eq_ofNat_of_zero_le hy
  have h : address width column row = (column + width * row : Nat) := by
    rw [address]
    push_cast
    rw [Int.mul_comm, Int.add_comm]
  rw [h, Int.toNat_natCast, Int.toNat_natCast, Int.toNat_natCast]

theorem OnScreen.address_mod {x y : Int} (h : OnScreen width height x y) :
    ((address width x y).toNat % width : Nat) = x := by
  have hx : x.toNat < width := by
    have := h.1
    omega
  rw [address_eq_toNat h.1.1 h.2.1, Nat.add_mul_mod_self_left, Nat.mod_eq_of_lt hx,
    Int.toNat_of_nonneg h.1.1]

theorem OnScreen.address_div {x y : Int} (h : OnScreen width height x y) :
    ((address width x y).toNat / width : Nat) = y := by
  have hx : x.toNat < width := by
    have := h.1
    omega
  rw [address_eq_toNat h.1.1 h.2.1, Nat.add_mul_div_left _ _ (by omega), Nat.div_eq_of_lt hx,
    Nat.zero_add, Int.toNat_of_nonneg h.2.1]

theorem onScreen_of_lt {a : Nat} (h : a < width * height) :
    OnScreen width height (a % width : Nat) (a / width : Nat) := by
  have hw : 0 < width := Nat.pos_of_mul_pos_right (Nat.zero_lt_of_lt h)
  have hx := Nat.mod_lt a hw
  have hy : a / width < height := Nat.div_lt_of_lt_mul h
  exact ⟨⟨Int.natCast_nonneg _, Int.ofNat_lt.mpr hx⟩, Int.natCast_nonneg _, Int.ofNat_lt.mpr hy⟩

theorem address_mod_div (width a : Nat) :
    (address width (a % width : Nat) (a / width : Nat)).toNat = a := by
  rw [address_eq_toNat (Int.natCast_nonneg _) (Int.natCast_nonneg _), Int.toNat_natCast,
    Int.toNat_natCast, Nat.mod_add_div]

theorem pixel_of_onScreen (s : Screen width height) {x y : Int} (h : OnScreen width height x y) :
    s.pixel x y = .ok (s.lit x y) := by
  have h' : (0 ≤ x ∧ x < width) ∧ 0 ≤ y ∧ y < height := h
  simp only [lit, pixel, dif_pos h']

theorem lit_eq_getElem (s : Screen width height) {x y : Int} {a : Nat} (ha : a < width * height)
    (h : OnScreen width height x y) (he : (address width x y).toNat = a) :
    s.lit x y = s.cells[a] := by
  have h' : (0 ≤ x ∧ x < width) ∧ 0 ≤ y ∧ y < height := h
  subst he
  simp only [lit, pixel, dif_pos h']
  rfl

theorem lit_of_not_onScreen (s : Screen width height) {x y : Int}
    (h : ¬ OnScreen width height x y) : s.lit x y = false := by
  have h' : ¬ ((0 ≤ x ∧ x < width) ∧ 0 ≤ y ∧ y < height) := h
  simp only [lit, pixel, dif_neg h']

theorem onScreen_of_lit {s : Screen width height} {x y : Int} (h : s.lit x y = true) :
    OnScreen width height x y := by
  by_cases hs : OnScreen width height x y
  · exact hs
  · rw [lit_of_not_onScreen s hs] at h
    cases h

theorem ext_lit {s t : Screen width height}
    (h : ∀ x y, OnScreen width height x y → s.lit x y = t.lit x y) : s = t := by
  obtain ⟨cells⟩ := s
  obtain ⟨cells'⟩ := t
  congr 1
  apply Vector.ext
  intro a ha
  have hs := onScreen_of_lt ha
  have hl := h _ _ hs
  rwa [lit_eq_getElem _ ha hs (address_mod_div width a),
    lit_eq_getElem _ ha hs (address_mod_div width a)] at hl

theorem lit_xor (s : Screen width height) (picture : Picture) {x y : Int}
    (h : OnScreen width height x y) : (s.xor picture).lit x y = (s.lit x y ^^ picture x y) := by
  rw [lit_eq_getElem _ h.address_lt h rfl, lit_eq_getElem _ h.address_lt h rfl]
  simp only [xor, Vector.getElem_ofFn, h.address_mod, h.address_div]
  rfl

theorem xor_congr (s : Screen width height) {picture picture' : Picture}
    (h : ∀ x y, OnScreen width height x y → picture x y = picture' x y) :
    s.xor picture = s.xor picture' := by
  apply ext_lit
  intro x y hxy
  rw [lit_xor s _ hxy, lit_xor s _ hxy, h x y hxy]

theorem xor_xor (s : Screen width height) (picture picture' : Picture) :
    (s.xor picture).xor picture' = s.xor fun x y => picture x y ^^ picture' x y := by
  apply ext_lit
  intro x y hxy
  simp only [lit_xor _ _ hxy, Bool.xor_assoc]

theorem xor_dark (s : Screen width height) : (s.xor fun _ _ => false) = s := by
  apply ext_lit
  intro x y hxy
  rw [lit_xor s _ hxy, Bool.xor_false]

end Screen

end Chip8
