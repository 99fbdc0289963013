import Chip8.Proofs.Display.Act
import Chip8.Proofs.Display.Pad
import Chip8.Proofs.Screen.Paint

namespace Chip8.Display

/-- What decides how a terminal draws, and how long its texts may be. -/
structure Look where
  scale : Int
  dark : Style
  lit : Style
  room : Int

def Look.style (k : Look) (lit : Bool) : Style :=
  if lit then k.lit else k.dark

def Terminal.look (t : Terminal) : Look :=
  ⟨t.status.scale, t.dark, t.lit, t.room⟩

namespace Pad

/-- A call on the pad there is, if any. There is none any more once a text is refused. -/
def draw (cs : Charset) : Option Pad → TerminalCall → Option Pad
  | _, .newPad rows columns => some ⟨rows, columns, .normal, fun _ _ => none⟩
  | pad, .background style => pad.map fun p => { p with background := style }
  | pad, .addText y x text style => pad.bind (·.write cs y x text style)
  | pad, _ => pad

def replay (cs : Charset) (calls : List TerminalCall) : Option Pad :=
  calls.foldl (draw cs) none

/-- The rows below the title line show the picture. The title line shows the line, if there is one to show and
its characters take one column each. -/
structure Shows (cs : Charset) (p : Pad) (k : Look) (width height : Nat) (shown : Picture)
    (line : Option String) : Prop where
  rows : p.rows = height + 1
  columns : p.columns = width * k.scale + 1
  pixels : ∀ row column, 1 ≤ row →
    p.cell row column = ⟨[' '], k.style (shown (column / k.scale) (row - 1))⟩
  title : ∀ text, line = some text → (∀ c ∈ text.toList, cs.Plain c) →
    ∀ column, 0 ≤ column → column < width * k.scale → p.cell 0 column =
      ⟨[(Terminal.leftJustified text (width * k.scale).toNat).toList.getD column.toNat ' '], .reverse⟩

variable {cs : Charset} {p : Pad} {k : Look} {width height : Nat} {shown : Picture} {line : Option String}

theorem length_pixelText {scale : Int} (hs : 1 ≤ scale) :
    ((Terminal.pixelText scale).length : Int) = scale := by
  rw [Terminal.pixelText, String.length_ofList, List.length_replicate]
  omega

theorem pixelText_within {scale : Int} (hs : 1 ≤ scale) {x : Int} (hx : 0 ≤ x ∧ x < width) :
    0 ≤ x * scale ∧ x * scale + (Terminal.pixelText scale).length ≤ width * scale := by
  have hright : (x + 1) * scale ≤ width * scale := Int.mul_le_mul_of_nonneg_right (by omega) (by omega)
  rw [Int.add_mul, Int.one_mul] at hright
  rw [length_pixelText hs]
  exact ⟨Int.mul_nonneg hx.1 (by omega), hright⟩

theorem getD_pixelText (scale : Int) (n : Nat) : (Terminal.pixelText scale).toList.getD n ' ' = ' ' := by
  rw [Terminal.pixelText, String.toList_ofList, List.getD_eq_getElem?_getD, List.getElem?_replicate]
  split <;> rfl

theorem plain_pixelText (cs : Charset) (scale : Int) :
    ∀ c ∈ (Terminal.pixelText scale).toList, cs.Plain c := by
  intro c hc
  rw [Terminal.pixelText, String.toList_ofList] at hc
  exact List.eq_of_mem_replicate hc ▸ cs.plain_blank

theorem column_div_eq_iff {scale : Int} (hs : 1 ≤ scale) (x column : Int) :
    column / scale = x ↔ x * scale ≤ column ∧ column < x * scale + scale := by
  have hle := Int.le_ediv_iff_mul_le (a := x) (b := column) (c := scale) (by omega)
  have hlt := Int.ediv_lt_iff_lt_mul (a := column) (b := x + 1) (c := scale) (by omega)
  rw [Int.add_mul, Int.one_mul] at hlt
  omega

theorem Shows.write_pixel (h : p.Shows cs k width height shown line) (hs : 1 ≤ k.scale) {x y : Int}
    (hxy : Screen.OnScreen width height x y) (lit : Bool) :
    ∃ q, p.write cs (y + 1) (x * k.scale) (Terminal.pixelText k.scale) (k.style lit) = some q ∧
      q.Shows cs k width height (shown.paint (.pixel x y lit)) line := by
  obtain ⟨hx, hy⟩ := hxy
  have hlen := length_pixelText hs
  obtain ⟨hleft, hright⟩ := pixelText_within hs hx
  rw [write_plain (plain_pixelText cs k.scale) (by rw [h.rows]; omega) hleft (by rw [h.columns]; omega)]
  refine ⟨_, rfl, h.rows, h.columns, ?_, ?_⟩
  · intro row column hrow
    rw [cell_lay, Picture.paint_pixel, hlen, getD_pixelText]
    have hiff := column_div_eq_iff hs x column
    by_cases hcell : row = y + 1 ∧ x * k.scale ≤ column ∧ column < x * k.scale + k.scale
    · have hpixel : (column / k.scale, row - 1) = (x, y) :=
        Prod.ext (hiff.mpr hcell.2) (by simp only; omega)
      rw [if_pos hcell, if_pos hpixel]
    · have hpixel : (column / k.scale, row - 1) ≠ (x, y) := by
        intro he
        obtain ⟨hc, hr⟩ := Prod.mk.inj he
        exact hcell ⟨by omega, hiff.mp hc⟩
      rw [if_neg hcell, if_neg hpixel]
      exact h.pixels row column hrow
  · intro text ht hp column h0 hc
    rw [cell_lay, if_neg (by omega)]
    exact h.title text ht hp column h0 hc

theorem length_leftJustified (text : String) (n : Nat) :
    (Terminal.leftJustified text n).length = max text.length n := by
  rw [Terminal.leftJustified, String.length_append, String.length_ofList, List.length_replicate]
  omega

theorem plain_leftJustified {text : String} (hp : ∀ c ∈ text.toList, cs.Plain c) (n : Nat) :
    ∀ c ∈ (Terminal.leftJustified text n).toList, cs.Plain c := by
  intro c hc
  rw [Terminal.leftJustified, String.toList_append, String.toList_ofList] at hc
  obtain hc | hc := List.mem_append.mp hc
  · exact hp c hc
  · exact List.eq_of_mem_replicate hc ▸ cs.plain_blank

theorem Shows.write_title (h : p.Shows cs k width height shown line) (hh : 0 < height) {text : String}
    (ht : (text.length : Int) < width * k.scale)
    (hl : cs.InOneLine p.columns (Terminal.leftJustified text (width * k.scale).toNat)) :
    ∃ q, p.write cs 0 0 (Terminal.leftJustified text (width * k.scale).toNat) .reverse = some q ∧
      q.Shows cs k width height shown (some text) := by
  have hlen : ((Terminal.leftJustified text (width * k.scale).toNat).length : Int) = width * k.scale := by
    rw [length_leftJustified]
    omega
  have hrows := h.rows
  have hcolumns := h.columns
  obtain ⟨q, hq, hs⟩ := write_inOneLine hl .reverse (by omega) (by omega)
  refine ⟨q, hq, hs.rows.trans hrows, hs.columns.trans hcolumns, ?_, ?_⟩
  · intro row column hrow
    rw [hs.cell (by omega)]
    exact h.pixels row column hrow
  · rintro _ ⟨⟩ hp column h0 hc
    rw [write_plain (plain_leftJustified hp _) (by omega) (Int.le_refl 0) (by omega)] at hq
    rw [← Option.some.inj hq, cell_lay, if_pos ⟨rfl, h0, by omega⟩, Int.sub_zero]

theorem shows_new (cs : Charset) (k : Look) (width height : Nat) :
    ∃ p, draw cs (draw cs none (.newPad (height + 1) (width * k.scale + 1))) (.background k.dark) = some p ∧
      p.Shows cs k width height .dark none :=
  ⟨_, rfl, rfl, rfl, fun _ _ _ => rfl, nofun⟩

end Pad

end Chip8.Display
