import Chip8.Proofs.Screen.Picture
import Chip8.Screen.Frame

namespace Chip8

namespace Picture

def dark : Picture := fun _ _ => false

def paint (picture : Picture) : Display.Event → Picture
  | .pixel x y lit => fun px py => if (px, py) = (x, y) then lit else picture px py
  | _ => picture

def paintAll (picture : Picture) (events : List Display.Event) : Picture :=
  events.foldl paint picture

theorem paint_pixel (picture : Picture) (x y : Int) (lit : Bool) (px py : Int) :
    picture.paint (.pixel x y lit) px py = if (px, py) = (x, y) then lit else picture px py := rfl

theorem paintAll_append (picture : Picture) (events more : List Display.Event) :
    picture.paintAll (events ++ more) = (picture.paintAll events).paintAll more :=
  List.foldl_append

/-- Where all pixels painted agree with a value, and one is painted unless the value is there already, the
value is there in the end. -/
theorem paintAll_apply {picture : Picture} {events : List Display.Event} {x y : Int} {value : Bool}
    (ha : ∀ lit, .pixel x y lit ∈ events → lit = value)
    (hp : picture x y = value ∨ .pixel x y value ∈ events) : picture.paintAll events x y = value := by
  induction events generalizing picture with
  | nil => exact hp.resolve_right List.not_mem_nil
  | cons e events ih =>
    refine ih (fun lit hl => ha lit (List.mem_cons_of_mem _ hl)) ?_
    cases e with
    | pixel x' y' lit =>
      by_cases he : (x, y) = (x', y')
      · obtain ⟨rfl, rfl⟩ := Prod.mk.inj he
        left
        rw [paint_pixel, if_pos rfl]
        exact ha lit List.mem_cons_self
      · rw [paint_pixel, if_neg he]
        refine hp.imp_right fun hm => ?_
        obtain heq | hm := List.mem_cons.mp hm
        · cases heq
          exact absurd rfl he
        · exact hm
    | resolution | refresh | title =>
      refine hp.imp_right fun hm => ?_
      obtain heq | hm := List.mem_cons.mp hm
      · cases heq
      · exact hm

end Picture

namespace Screen

variable {width height : Nat}

def places (width height : Nat) : List (Int × Int) :=
  (List.finRange (width * height)).map fun a => ((a.val % width : Nat), (a.val / width : Nat))

def RowMajor (a b : Int × Int) : Prop :=
  a.2 < b.2 ∨ a.2 = b.2 ∧ a.1 < b.1

theorem mem_places {x y : Int} : (x, y) ∈ places width height ↔ OnScreen width height x y := by
  rw [places, List.mem_map]
  constructor
  · rintro ⟨a, -, he⟩
    obtain ⟨rfl, rfl⟩ := Prod.mk.inj he
    exact onScreen_of_lt a.isLt
  · intro h
    refine ⟨⟨_, h.address_lt⟩, List.mem_finRange _, ?_⟩
    rw [h.address_mod, h.address_div]

theorem pairwise_places (width height : Nat) : (places width height).Pairwise RowMajor := by
  rw [places, List.pairwise_map]
  refine (List.pairwise_lt_finRange _).imp fun {a b} hab => ?_
  have ha := Nat.mod_add_div a.val width
  have hb := Nat.mod_add_div b.val width
  have hd : a.val / width ≤ b.val / width := Nat.div_le_div_right (Nat.le_of_lt hab)
  obtain hlt | heq := Nat.lt_or_eq_of_le hd
  · exact .inl (Int.ofNat_lt.mpr hlt)
  · rw [heq] at ha
    have hm : a.val % width < b.val % width := by
      have hab : a.val < b.val := hab
      omega
    exact .inr ⟨congrArg Nat.cast heq, Int.ofNat_lt.mpr hm⟩

/-- The cells that differ between what a display shows and a screen. -/
def changed (shown : Picture) (now : Screen width height) : List (Int × Int) :=
  (places width height).filter fun cell => shown cell.1 cell.2 != now.lit cell.1 cell.2

theorem changes_eq (shown now : Screen width height) :
    shown.changes now = (changed shown.lit now).map fun cell =>
      .pixel cell.1 cell.2 (now.lit cell.1 cell.2) := by
  rw [changed, places, List.filter_map, List.map_map, ← List.filterMap_eq_map, List.filterMap_filter,
    changes]
  congr 1
  funext a
  have h := onScreen_of_lt a.isLt
  have ha := address_mod_div width a.val
  simp only [Function.comp_apply, lit_eq_getElem _ a.isLt h ha, bne_iff_ne, ne_eq, ite_not]

theorem mem_changed {shown : Picture} {now : Screen width height} {x y : Int} :
    (x, y) ∈ changed shown now ↔ OnScreen width height x y ∧ shown x y ≠ now.lit x y := by
  rw [changed, List.mem_filter, mem_places, bne_iff_ne]

/-- What a display that shows a picture is told of a screen: each cell that differs, once and row by row,
and then whether there was any. -/
def Frames (shown : Picture) (now : Screen width height) (events : List Display.Event) : Prop :=
  ∃ cells : List (Int × Int),
    cells.Pairwise RowMajor ∧
    (∀ x y, (x, y) ∈ cells ↔ OnScreen width height x y ∧ shown x y ≠ now.lit x y) ∧
    events = cells.map (fun cell => .pixel cell.1 cell.2 (now.lit cell.1 cell.2)) ++
      [.refresh (decide (cells ≠ []))]

theorem frames_frame (shown now : Screen width height) :
    Frames shown.lit now (shown.frame now) := by
  refine ⟨changed shown.lit now, (pairwise_places width height).filter _, fun x y => mem_changed, ?_⟩
  rw [frame, changes_eq]
  cases changed shown.lit now <;> rfl

theorem Frames.paintAll {shown : Picture} {now : Screen width height} {events : List Display.Event}
    (h : Frames shown now events)
    (hoff : ∀ x y, ¬ OnScreen width height x y → shown x y = false) :
    shown.paintAll events = now.lit := by
  obtain ⟨cells, -, hc, rfl⟩ := h
  have hmem {x y : Int} {lit : Bool} : .pixel x y lit ∈
      cells.map (fun cell => Display.Event.pixel cell.1 cell.2 (now.lit cell.1 cell.2)) ++
        [.refresh (decide (cells ≠ []))] ↔ (x, y) ∈ cells ∧ lit = now.lit x y := by
    rw [List.mem_append, List.mem_map]
    constructor
    · rintro (⟨⟨a, b⟩, hm, he⟩ | hr)
      · cases he
        exact ⟨hm, rfl⟩
      · cases List.mem_singleton.mp hr
    · rintro ⟨hm, rfl⟩
      exact .inl ⟨(x, y), hm, rfl⟩
  funext x y
  apply Picture.paintAll_apply
  · intro lit hl
    exact (hmem.mp hl).2
  · rw [hmem]
    by_cases hs : OnScreen width height x y
    · by_cases he : shown x y = now.lit x y
      · exact .inl he
      · exact .inr ⟨(hc x y).mpr ⟨hs, he⟩, rfl⟩
    · exact .inl (by rw [hoff x y hs, lit_of_not_onScreen now hs])

end Screen

end Chip8
