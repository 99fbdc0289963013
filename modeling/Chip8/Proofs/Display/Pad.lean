import Chip8.Display.Terminal

namespace Chip8.Display

/-- What a terminal shows of a character that does not move its cursor otherwise: characters, and the columns
that each of them takes. -/
structure Charset where
  shown : Char → List (Char × Nat)
  shown_blank : shown ' ' = [(' ', 1)]

def Charset.single : Charset :=
  ⟨fun c => [(c, 1)], rfl⟩

/-- A character and those that have joined it. The cells after a wide one are empty. -/
structure Cell where
  text : List Char
  style : Style
deriving DecidableEq

structure Pad where
  rows : Int
  columns : Int
  background : Style
  /-- What is written, by row and column. -/
  cells : Int → Int → Option Cell

namespace Pad

def cell (p : Pad) (row column : Int) : Cell :=
  (p.cells row column).getD ⟨[' '], p.background⟩

def lay (p : Pad) (row first past : Int) (cells : Int → Option Cell) : Pad :=
  { p with cells := fun r c => if r = row ∧ first ≤ c ∧ c < past then cells c else p.cells r c }

def cellSize : Nat := 5

def join (p : Pad) (row column : Int) (c : Char) : Pad :=
  let cell := p.cell row column
  p.lay row column (column + 1) fun _ => some { cell with text := (cell.text ++ [c]).take cellSize }

end Pad

structure Pen where
  pad : Pad
  row : Int
  column : Int

namespace Pen

def nextRow (w : Pen) : Option Pen :=
  if w.row + 1 < w.pad.rows then some { w with row := w.row + 1, column := 0 } else none

def fillRow (w : Pen) (cell : Option Cell) : Pen :=
  { w with pad := w.pad.lay w.row w.column w.pad.columns fun _ => cell }

/-- A character without a column of its own joins the one before the cursor. -/
def join (w : Pen) (c : Char) : Pen :=
  if 0 < w.column then { w with pad := w.pad.join w.row (w.column - 1) c }
  else if 0 < w.row then { w with pad := w.pad.join (w.row - 1) (w.pad.columns - 1) c }
  else w

/-- A character that there is room for. The cursor leaves a row that is full. -/
def place (w : Pen) (style : Style) (c : Char) (width : Nat) : Option Pen :=
  let past := w.column + width
  let pad := w.pad.lay w.row w.column past fun column =>
    some ⟨if column = w.column then [c] else [], style⟩
  if past < w.pad.columns then some ⟨pad, w.row, past⟩ else nextRow ⟨pad, w.row, past⟩

/-- A character that is too wide for the rest of the row goes to the next one. -/
def put (style : Style) (w : Pen) (c : Char × Nat) : Option Pen :=
  if c.2 = 0 then some (w.join c.1)
  else if w.pad.columns < c.2 then none
  else if w.column + c.2 ≤ w.pad.columns then w.place style c.1 c.2
  else (w.fillRow (some ⟨[' '], style⟩)).nextRow.bind (·.place style c.1 c.2)

def tabStop (column : Int) : Int :=
  column + (8 - column % 8)

/-- Blanks up to the stop. If the row ends before it then the rest is cleared, but not in the last row. -/
def tab (style : Style) (w : Pen) : Option Pen :=
  if w.row + 1 = w.pad.rows ∨ tabStop w.column < w.pad.columns then
    (List.replicate (tabStop w.column - w.column).toNat (' ', 1)).foldlM (put style) w
  else (w.fillRow none).nextRow

def enter (cs : Charset) (style : Style) (w : Pen) (c : Char) : Option Pen :=
  if c = '\x00' then none
  else if c = '\n' then (w.fillRow none).nextRow
  else if c = '\r' then some { w with column := 0 }
  else if c = '\x08' then some { w with column := max 0 (w.column - 1) }
  else if c = '\t' then w.tab style
  else (cs.shown c).foldlM (put style) w

end Pen

/-- A text from a place of the pad on, into the rows below if need be. There is no answer if the library refuses
it, or runs out of rows. -/
def Pad.write (cs : Charset) (p : Pad) (y x : Int) (text : String) (style : Style) : Option Pad :=
  if (0 ≤ y ∧ y < p.rows) ∧ 0 ≤ x ∧ x < p.columns then
    (text.toList.foldlM (Pen.enter cs style) ⟨p, y, x⟩).map Pen.pad
  else none

namespace Charset

def Plain (cs : Charset) (c : Char) : Prop :=
  c ∉ ['\x00', '\n', '\r', '\x08', '\t'] ∧ cs.shown c = [(c, 1)]

/-- The column after a character that is put into the row. Behind the last column there is room for no more. -/
def past? (columns column : Int) (c : Char × Nat) : Option Int :=
  if column < columns ∧ column + c.2 ≤ columns then some (column + c.2) else none

def advance? (cs : Charset) (columns column : Int) (c : Char) : Option Int :=
  if columns ≤ column ∨ c = '\x00' ∨ c = '\n' then none
  else if c = '\r' then some 0
  else if c = '\x08' then some (max 0 (column - 1))
  else if c = '\t' then
    if Pen.tabStop column < columns then some (Pen.tabStop column) else none
  else (cs.shown c).foldlM (past? columns) column

/-- All characters of the text are put into the row that it begins. -/
def InOneLine (cs : Charset) (columns : Int) (text : String) : Prop :=
  (text.toList.foldlM (cs.advance? columns) 0).isSome

theorem plain_blank (cs : Charset) : cs.Plain ' ' :=
  ⟨by decide, cs.shown_blank⟩

theorem plain_single {c : Char} (h : c ∉ ['\x00', '\n', '\r', '\x08', '\t']) : single.Plain c :=
  ⟨h, rfl⟩

variable {cs : Charset} {c : Char} {columns column : Int}

theorem Plain.ne (h : cs.Plain c) : c ≠ '\x00' ∧ c ≠ '\n' ∧ c ≠ '\r' ∧ c ≠ '\x08' ∧ c ≠ '\t' := by
  simpa only [List.mem_cons, List.not_mem_nil, or_false, not_or] using h.1

theorem Plain.advance? (h : cs.Plain c) (hc : column < columns) :
    cs.advance? columns column c = some (column + 1) := by
  have hp : past? columns column (c, 1) = some (column + 1) := if_pos ⟨hc, by simp only; omega⟩
  rw [Charset.advance?, h.2, if_neg (by simp [h.ne, hc])]
  simp only [h.ne, if_false, List.foldlM_cons, List.foldlM_nil, hp, Option.bind_eq_bind, Option.bind_some]
  rfl

theorem inOneLine_of_plain {text : String} (hp : ∀ c ∈ text.toList, cs.Plain c)
    (hl : (text.length : Int) ≤ columns) : cs.InOneLine columns text := by
  have hrow (cells : List Char) (hp : ∀ c ∈ cells, cs.Plain c) (column : Int)
      (hl : column + cells.length ≤ columns) : (cells.foldlM (cs.advance? columns) column).isSome := by
    induction cells generalizing column with
    | nil => rfl
    | cons c cells ih =>
      obtain ⟨hc, hcells⟩ := List.forall_mem_cons.mp hp
      rw [List.length_cons] at hl
      rw [List.foldlM_cons, hc.advance? (by omega)]
      exact ih hcells _ (by omega)
  exact hrow text.toList hp 0 (by rw [String.length_toList]; omega)

end Charset

namespace Pad

structure SameBelow (p q : Pad) : Prop where
  rows : q.rows = p.rows
  columns : q.columns = p.columns
  background : q.background = p.background
  cells : ∀ row column, row ≠ 0 → q.cells row column = p.cells row column

variable {p q r : Pad} {row first middle past : Int} {f g : Int → Option Cell}

theorem SameBelow.refl (p : Pad) : p.SameBelow p :=
  ⟨rfl, rfl, rfl, fun _ _ _ => rfl⟩

theorem SameBelow.lay (h : p.SameBelow q) (first past : Int) (f : Int → Option Cell) :
    p.SameBelow (q.lay 0 first past f) where
  rows := h.rows
  columns := h.columns
  background := h.background
  cells row column hr := (if_neg fun hc => hr hc.1).trans (h.cells row column hr)

theorem SameBelow.cell (h : p.SameBelow q) {column : Int} (hr : row ≠ 0) :
    q.cell row column = p.cell row column := by
  rw [Pad.cell, Pad.cell, h.cells row column hr, h.background]

theorem lay_congr (h : ∀ c, first ≤ c → c < past → f c = g c) :
    p.lay row first past f = p.lay row first past g := by
  simp only [lay, mk.injEq, true_and]
  funext r c
  split
  · next hc => exact h c hc.2.1 hc.2.2
  · rfl

theorem lay_of_le (h : past ≤ first) : p.lay row first past f = p := by
  obtain ⟨rows, columns, background, cells⟩ := p
  simp only [lay, mk.injEq, true_and]
  funext r c
  exact if_neg (by omega)

theorem lay_append (hf : first ≤ middle) (hp : middle ≤ past) :
    (p.lay row first middle f).lay row middle past g =
      p.lay row first past fun c => if c < middle then f c else g c := by
  simp only [lay, mk.injEq, true_and]
  funext r c
  grind

theorem cell_lay (p : Pad) (row first past : Int) (f : Int → Cell) (r c : Int) :
    (p.lay row first past fun column => some (f column)).cell r c =
      if r = row ∧ first ≤ c ∧ c < past then f c else p.cell r c := by
  simp only [cell, lay]
  split <;> rfl

theorem style_cell_join (p : Pad) (row column : Int) (c : Char) (r k : Int) :
    ((p.join row column c).cell r k).style = (p.cell r k).style := by
  rw [join, cell_lay]
  split
  · next h =>
    obtain ⟨rfl, hle, hlt⟩ := h
    obtain rfl : k = column := by omega
    rfl
  · rfl

end Pad

namespace Pen

variable {cs : Charset} {style : Style} {p : Pad} {w w' : Pen} {c : Char} {column column' : Int}

theorem enter_plain (hc : cs.Plain c) (y x : Int) (hx : 0 ≤ x) (hl : x + 1 < p.columns) :
    enter cs style ⟨p, y, x⟩ c =
      some ⟨p.lay y x (x + 1) fun _ => some ⟨[c], style⟩, y, x + 1⟩ := by
  have hput : put style ⟨p, y, x⟩ (c, 1) =
      some ⟨p.lay y x (x + 1) fun _ => some ⟨[c], style⟩, y, x + 1⟩ := by
    have hcells : p.lay y x (x + 1) (fun column => some ⟨if column = x then [c] else [], style⟩) =
        p.lay y x (x + 1) fun _ => some ⟨[c], style⟩ :=
      Pad.lay_congr fun column h0 h1 => by rw [if_pos (by omega)]
    have hone : ((1 : Nat) : Int) = 1 := rfl
    simp only [put, place, hone, hcells, Nat.one_ne_zero, if_false]
    rw [if_neg (by omega), if_pos (by omega), if_pos hl]
  simp only [enter, hc.ne, hc.2, if_false, List.foldlM_cons, List.foldlM_nil, hput, Option.bind_eq_bind,
    Option.bind_some]
  rfl

theorem foldlM_enter_plain {text : List Char} (hp : ∀ c ∈ text, cs.Plain c) (y : Int) {x : Int}
    (hx : 0 ≤ x) (hl : x + text.length < p.columns) :
    text.foldlM (enter cs style) ⟨p, y, x⟩ = some ⟨p.lay y x (x + text.length) fun column =>
      some ⟨[text.getD (column - x).toNat ' '], style⟩, y, x + text.length⟩ := by
  induction text generalizing p x with
  | nil =>
    have hnil : x + (([] : List Char).length : Int) = x := Int.add_zero x
    rw [hnil, Pad.lay_of_le (Int.le_refl x)]
    rfl
  | cons c text ih =>
    obtain ⟨hc, htext⟩ := List.forall_mem_cons.mp hp
    rw [List.length_cons] at hl ⊢
    rw [List.foldlM_cons, enter_plain hc y x hx (by omega), Option.bind_eq_bind, Option.bind_some,
      ih htext (by omega) (by simp only [Pad.lay]; omega), Pad.lay_append (by omega) (by omega)]
    have hpast : x + 1 + (text.length : Int) = x + ((text.length + 1 : Nat) : Int) := by omega
    rw [hpast, Pad.lay_congr]
    intro column h0 h1
    split
    · next hlt =>
      have h : (column - x).toNat = 0 := by omega
      rw [h, List.getD_cons_zero]
    · next hge =>
      have h : (column - x).toNat = (column - (x + 1)).toNat + 1 := by omega
      rw [h, List.getD_cons_succ]

/-- The cursor is in the first row, or has just left it. -/
structure InLine (p : Pad) (w : Pen) (column : Int) : Prop where
  pad : p.SameBelow w.pad
  nonneg : 0 ≤ column
  place : w.row = 0 ∧ w.column = column ∧ column < p.columns ∨
    w.row = 1 ∧ w.column = 0 ∧ column = p.columns

theorem InLine.here (h : InLine p w column) (hc : column < p.columns) :
    w.row = 0 ∧ w.column = column := by
  obtain ⟨hr, hw, -⟩ | ⟨-, he⟩ := h.place
  · exact ⟨hr, hw⟩
  · omega

/-- What the cursor does character by character it does for a whole text. -/
theorem InLine.foldlM {α : Type} {f : Int → α → Option Int} {g : Pen → α → Option Pen} {l : List α}
    (h : InLine p w column) (hl : l.foldlM f column = some column')
    (hstep : ∀ w a column column', InLine p w column → f column a = some column' →
      ∃ w', g w a = some w' ∧ InLine p w' column') :
    ∃ w', l.foldlM g w = some w' ∧ InLine p w' column' := by
  induction l generalizing w column with
  | nil =>
    cases hl
    exact ⟨w, rfl, h⟩
  | cons a l ih =>
    rw [List.foldlM_cons, Option.bind_eq_bind, Option.bind_eq_some_iff] at hl
    obtain ⟨next, hn, hl⟩ := hl
    obtain ⟨w', hw, hi⟩ := hstep w a column next h hn
    rw [List.foldlM_cons, hw]
    exact ih hi hl

theorem InLine.nextRow {w : Pen} (h : p.SameBelow w.pad) (hrow : w.row = 0) (hrows : 2 ≤ p.rows)
    (hcolumns : 0 ≤ p.columns) : ∃ w', w.nextRow = some w' ∧ InLine p w' p.columns := by
  refine ⟨{ w with row := w.row + 1, column := 0 }, if_pos ?_, h, hcolumns, .inr ⟨?_, rfl, rfl⟩⟩
  · rw [hrow, h.rows]
    omega
  · simp only [hrow]
    rfl

theorem InLine.put (h : InLine p w column) (hrows : 2 ≤ p.rows) {g : Char × Nat}
    (hg : Charset.past? p.columns column g = some column') (style : Style) :
    ∃ w', put style w g = some w' ∧ InLine p w' column' := by
  obtain ⟨c, width⟩ := g
  rw [Charset.past?] at hg
  split at hg
  · next hc =>
    cases hg
    obtain ⟨hrow, hcolumn⟩ := h.here hc.1
    have hnonneg := h.nonneg
    have hfits := hc.2
    simp only at hfits ⊢
    by_cases hwidth : width = 0
    · refine ⟨w.join c, if_pos hwidth, ?_⟩
      have hsame : p.SameBelow (w.join c).pad ∧ (w.join c).row = 0 ∧ (w.join c).column = column := by
        rw [Pen.join]
        split
        · simp only [Pad.join, hrow]
          exact ⟨h.pad.lay _ _ _, trivial, hcolumn⟩
        · rw [if_neg (by omega)]
          exact ⟨h.pad, hrow, hcolumn⟩
      rw [hwidth]
      exact ⟨hsame.1, by omega, .inl ⟨hsame.2.1, by omega, by omega⟩⟩
    · have hplace : put style w (c, width) = w.place style c width := by
        simp only [Pen.put, hwidth, if_false, h.pad.columns]
        rw [if_neg (by omega), if_pos (by omega)]
      rw [hplace, Pen.place]
      simp only [h.pad.columns, hrow, hcolumn]
      split
      · next hlt => exact ⟨_, rfl, h.pad.lay _ _ _, by omega, .inl ⟨rfl, rfl, hlt⟩⟩
      · -- the row is full, and the cursor is below it
        have hend : column + width = p.columns := by omega
        rw [hend]
        exact InLine.nextRow (h.pad.lay _ _ _) rfl hrows (by omega)
  · cases hg

theorem InLine.puts {glyphs : List (Char × Nat)} (h : InLine p w column) (hrows : 2 ≤ p.rows)
    (hg : glyphs.foldlM (Charset.past? p.columns) column = some column') (style : Style) :
    ∃ w', glyphs.foldlM (Pen.put style) w = some w' ∧ InLine p w' column' :=
  h.foldlM hg fun _ _ _ _ h hp => h.put hrows hp style

theorem past_blanks {columns : Int} (n : Nat) (hn : column + n < columns) :
    (List.replicate n (' ', 1)).foldlM (Charset.past? columns) column = some (column + n) := by
  induction n generalizing column with
  | zero => exact congrArg some (Int.add_zero column).symm
  | succ n ih =>
    have hp : Charset.past? columns column (' ', 1) = some (column + 1) :=
      if_pos ⟨by omega, by simp only; omega⟩
    rw [List.replicate_succ, List.foldlM_cons, hp, Option.bind_eq_bind, Option.bind_some, ih (by omega)]
    congr 1
    omega

theorem InLine.tab (h : InLine p w column) (hrows : 2 ≤ p.rows) (hstop : tabStop column < p.columns)
    (style : Style) : ∃ w', w.tab style = some w' ∧ InLine p w' (tabStop column) := by
  have hle : column < tabStop column := by
    rw [tabStop]
    omega
  have hto : column + ((tabStop column - column).toNat : Int) = tabStop column := by omega
  have hpast := past_blanks (tabStop column - column).toNat (Int.lt_of_le_of_lt (Int.le_of_eq hto) hstop)
  rw [hto] at hpast
  rw [Pen.tab, (h.here (Int.lt_trans hle hstop)).2, h.pad.columns, if_pos (.inr hstop)]
  exact h.puts hrows hpast style

theorem InLine.enter (h : InLine p w column) (hrows : 2 ≤ p.rows)
    (ha : cs.advance? p.columns column c = some column') (style : Style) :
    ∃ w', enter cs style w c = some w' ∧ InLine p w' column' := by
  rw [Charset.advance?] at ha
  split at ha
  · cases ha
  next hgo =>
  rw [not_or, not_or, Int.not_le] at hgo
  obtain ⟨hc, hnul, hline⟩ := hgo
  obtain ⟨hrow, hcolumn⟩ := h.here hc
  have hnonneg := h.nonneg
  rw [Pen.enter, if_neg hnul, if_neg hline]
  by_cases hreturn : c = '\r'
  · rw [if_pos hreturn] at ha ⊢
    cases ha
    exact ⟨_, rfl, h.pad, Int.le_refl 0, .inl ⟨hrow, rfl, by omega⟩⟩
  rw [if_neg hreturn] at ha ⊢
  by_cases hback : c = '\x08'
  · rw [if_pos hback] at ha ⊢
    cases ha
    exact ⟨_, rfl, h.pad, by omega, .inl ⟨hrow, congrArg (max 0 <| · - 1) hcolumn, by omega⟩⟩
  rw [if_neg hback] at ha ⊢
  by_cases htab : c = '\t'
  · rw [if_pos htab] at ha ⊢
    split at ha
    · next hstop =>
      cases ha
      exact h.tab hrows hstop style
    · cases ha
  · rw [if_neg htab] at ha ⊢
    exact h.puts hrows ha style

theorem InLine.enters {text : List Char} (h : InLine p w column) (hrows : 2 ≤ p.rows)
    (ha : text.foldlM (cs.advance? p.columns) column = some column') (style : Style) :
    ∃ w', text.foldlM (Pen.enter cs style) w = some w' ∧ InLine p w' column' :=
  h.foldlM ha fun _ _ _ _ h hc => h.enter hrows hc style

/-- The cursor is below the first row, in a row that begins in this style if the cursor has left the beginning. -/
structure Below (p : Pad) (style : Style) (w : Pen) : Prop where
  rows : w.pad.rows = p.rows
  below : 1 ≤ w.row
  inside : w.row < p.rows
  nonneg : 0 ≤ w.column
  begun : 0 < w.column → (w.pad.cell w.row 0).style = style

theorem Below.nextRow (hn : w.nextRow = some w') (hr : w.pad.rows = p.rows) (h : 0 ≤ w.row) :
    Below p style w' := by
  rw [Pen.nextRow] at hn
  split at hn
  · next hlt =>
    cases hn
    exact ⟨hr, by simp only; omega, hr ▸ hlt, Int.le_refl 0, fun hc => absurd hc (Int.lt_irrefl 0)⟩
  · cases hn

theorem Below.join (h : Below p style w) (c : Char) : Below p style (w.join c) := by
  have hjoined (row column : Int) : Below p style { w with pad := w.pad.join row column c } :=
    ⟨h.rows, h.below, h.inside, h.nonneg, fun hc => (Pad.style_cell_join ..).trans (h.begun hc)⟩
  rw [Pen.join]
  split
  · exact hjoined w.row (w.column - 1)
  split
  · exact hjoined (w.row - 1) (w.pad.columns - 1)
  · exact h

theorem Below.place (h : Below p style w) {width : Nat} (hwidth : width ≠ 0)
    (hp : w.place style c width = some w') :
    Below p style w' ∧ (w'.pad.cell w.row 0).style = style := by
  have hcell : ((w.pad.lay w.row w.column (w.column + width) fun column =>
      some ⟨if column = w.column then [c] else [], style⟩).cell w.row 0).style = style := by
    rw [Pad.cell_lay]
    split
    · rfl
    · next hc =>
      have hnonneg := h.nonneg
      exact h.begun (by omega)
  have hbelow := h.below
  rw [Pen.place] at hp
  split at hp
  · cases hp
    exact ⟨⟨h.rows, hbelow, h.inside, Int.add_nonneg h.nonneg (Int.natCast_nonneg width), fun _ => hcell⟩,
      hcell⟩
  · refine ⟨Below.nextRow hp h.rows (by simp only; omega), ?_⟩
    rw [Pen.nextRow] at hp
    split at hp <;> cases hp
    exact hcell

/-- A character that takes a column is put into a row that begins in its style. -/
theorem Below.put (h : Below p style w) {g : Char × Nat} (hp : Pen.put style w g = some w') :
    Below p style w' ∧ (g.2 ≠ 0 → ∃ row, 1 ≤ row ∧ row < p.rows ∧ (w'.pad.cell row 0).style = style) := by
  rw [Pen.put] at hp
  split at hp
  · next hzero =>
    cases hp
    exact ⟨h.join g.1, fun hne => absurd hzero hne⟩
  next hne =>
  split at hp
  · cases hp
  split at hp
  · obtain ⟨hbelow, hcell⟩ := h.place hne hp
    exact ⟨hbelow, fun _ => ⟨w.row, h.below, h.inside, hcell⟩⟩
  · obtain ⟨w₁, hn, hp⟩ := Option.bind_eq_some_iff.mp hp
    have hrow := h.below
    have h₁ : Below p style w₁ := Below.nextRow hn h.rows (by simp only [fillRow]; omega)
    obtain ⟨hbelow, hcell⟩ := h₁.place hne hp
    exact ⟨hbelow, fun _ => ⟨w₁.row, h₁.below, h₁.inside, hcell⟩⟩

theorem Below.foldlM {α : Type} {g : Pen → α → Option Pen} {l : List α} (h : Below p style w)
    (hl : l.foldlM g w = some w') (hstep : ∀ w a w', Below p style w → g w a = some w' → Below p style w') :
    Below p style w' := by
  induction l generalizing w with
  | nil =>
    cases hl
    exact h
  | cons a l ih =>
    rw [List.foldlM_cons, Option.bind_eq_bind, Option.bind_eq_some_iff] at hl
    obtain ⟨w₁, hw, hl⟩ := hl
    exact ih (hstep w a w₁ h hw) hl

theorem Below.puts {glyphs : List (Char × Nat)} (h : Below p style w)
    (hp : glyphs.foldlM (Pen.put style) w = some w') : Below p style w' :=
  h.foldlM hp fun _ _ _ h hp => (h.put hp).1

theorem Below.enter (h : Below p style w) (he : enter cs style w c = some w') : Below p style w' := by
  have hnonneg := h.nonneg
  have hbelow := h.below
  rw [Pen.enter] at he
  split at he
  · cases he
  split at he
  · exact Below.nextRow he h.rows (by simp only [fillRow]; omega)
  split at he
  · cases he
    exact ⟨h.rows, h.below, h.inside, Int.le_refl 0, fun hc => absurd hc (Int.lt_irrefl 0)⟩
  split at he
  · cases he
    exact ⟨h.rows, h.below, h.inside, by simp only; omega, fun hc => h.begun (by simp only at hc; omega)⟩
  split at he
  · rw [Pen.tab] at he
    split at he
    · exact h.puts he
    · exact Below.nextRow he h.rows (by simp only [fillRow]; omega)
  · exact h.puts he

theorem InLine.below (h : InLine p w column) (hrows : 2 ≤ p.rows) (hc : p.columns ≤ column) :
    Below p style w := by
  obtain ⟨-, -, hlt⟩ | ⟨hrow, hzero, -⟩ := h.place
  · omega
  · exact ⟨h.pad.rows, by omega, by omega, by omega, fun hpos => absurd hpos (by omega)⟩

/-- Once the cursor has no place in the row left it is below, and stays there. -/
theorem InLine.overrun_foldlM {α : Type} {f : Int → α → Option Int} {g : Pen → α → Option Pen}
    {l : List α} (h : InLine p w column) (hl : l.foldlM f column = none) (hw : l.foldlM g w = some w')
    (hstep : ∀ w a column column', InLine p w column → f column a = some column' →
      ∃ w', g w a = some w' ∧ InLine p w' column')
    (hleave : ∀ w a column w', InLine p w column → f column a = none → g w a = some w' →
      Below p style w')
    (hbelow : ∀ w a w', Below p style w → g w a = some w' → Below p style w') : Below p style w' := by
  induction l generalizing w column with
  | nil => cases hl
  | cons a l ih =>
    rw [List.foldlM_cons, Option.bind_eq_bind] at hl
    rw [List.foldlM_cons, Option.bind_eq_bind, Option.bind_eq_some_iff] at hw
    obtain ⟨w₁, hw₁, hw⟩ := hw
    cases hf : f column a with
    | none => exact (hleave w a column w₁ h hf hw₁).foldlM hw hbelow
    | some next =>
      rw [hf] at hl
      obtain ⟨w₂, hw₂, h₂⟩ := hstep w a column next h hf
      cases hw₂.symm.trans hw₁
      exact ih h₂ hl hw

theorem InLine.overrun_put (h : InLine p w column) (hrows : 2 ≤ p.rows) {g : Char × Nat}
    (hg : Charset.past? p.columns column g = none) (hp : Pen.put style w g = some w') : Below p style w' := by
  by_cases hc : p.columns ≤ column
  · exact ((h.below hrows hc).put hp).1
  obtain ⟨hrow, hcolumn⟩ := h.here (by omega)
  have hwide : ¬ column + g.2 ≤ p.columns := fun hle => by
    rw [Charset.past?, if_pos ⟨by omega, hle⟩] at hg
    cases hg
  rw [Pen.put, if_neg (by omega), h.pad.columns, hcolumn, if_neg hwide] at hp
  split at hp
  · cases hp
  · obtain ⟨w₁, hn, hp⟩ := Option.bind_eq_some_iff.mp hp
    have h₁ : Below p style w₁ := Below.nextRow hn h.pad.rows (by simp only [fillRow]; omega)
    exact (h₁.place (by omega) hp).1

theorem InLine.overrun_enter (h : InLine p w column) (hrows : 2 ≤ p.rows)
    (ha : cs.advance? p.columns column c = none) (he : Pen.enter cs style w c = some w') :
    Below p style w' := by
  by_cases hc : p.columns ≤ column
  · exact (h.below hrows hc).enter he
  obtain ⟨hrow, hcolumn⟩ := h.here (by omega)
  have hdown {w' : Pen} {cell : Option Cell} (hn : (w.fillRow cell).nextRow = some w') : Below p style w' :=
    Below.nextRow hn h.pad.rows (by simp only [fillRow]; omega)
  rw [Pen.enter] at he
  split at he
  · cases he
  next hnul =>
  split at he
  · exact hdown he
  next hline =>
  rw [Charset.advance?, if_neg (by simp only [hc, hnul, hline, or_self, not_false_eq_true])] at ha
  split at he
  · next hreturn =>
    rw [if_pos hreturn] at ha
    cases ha
  next hreturn =>
  rw [if_neg hreturn] at ha
  split at he
  · next hback =>
    rw [if_pos hback] at ha
    cases ha
  next hback =>
  rw [if_neg hback] at ha
  split at he
  · next htab =>
    rw [if_pos htab] at ha
    split at ha
    · cases ha
    next hstop =>
    rw [Pen.tab, if_neg] at he
    · exact hdown he
    · rw [h.pad.columns, h.pad.rows, hcolumn]
      omega
  · next htab =>
    rw [if_neg htab] at ha
    exact h.overrun_foldlM ha he (fun _ _ _ _ h hp => h.put hrows hp style)
      (fun _ _ _ _ h hg hp => h.overrun_put hrows hg hp) fun _ _ _ h hp => (h.put hp).1

end Pen

namespace Pad

variable {cs : Charset} {p : Pad} {text : String} {style : Style}

theorem write_plain (hp : ∀ c ∈ text.toList, cs.Plain c) {y x : Int} (hy : 0 ≤ y ∧ y < p.rows) (hx : 0 ≤ x)
    (hl : x + text.length < p.columns) :
    p.write cs y x text style = some (p.lay y x (x + text.length) fun column =>
      some ⟨[text.toList.getD (column - x).toNat ' '], style⟩) := by
  rw [write, if_pos ⟨hy, hx, by omega⟩,
    Pen.foldlM_enter_plain hp y hx (by rw [String.length_toList]; exact hl), String.length_toList]
  rfl

/-- A text that stays in the first row leaves the others alone. -/
theorem write_inOneLine (h : cs.InOneLine p.columns text) (style : Style) (hrows : 2 ≤ p.rows)
    (hcolumns : 0 < p.columns) :
    ∃ q, p.write cs 0 0 text style = some q ∧ p.SameBelow q := by
  have hstart : Pen.InLine p ⟨p, 0, 0⟩ 0 := ⟨.refl p, Int.le_refl 0, .inl ⟨rfl, rfl, hcolumns⟩⟩
  obtain ⟨column, hc⟩ := Option.isSome_iff_exists.mp h
  obtain ⟨w, hw, hs⟩ := hstart.enters hrows hc style
  refine ⟨w.pad, ?_, hs.pad⟩
  rw [write, if_pos ⟨by omega, by omega, hcolumns⟩, hw]
  rfl

/-- A text that ends in a blank and does not stay in the first row begins some other row in its style. -/
theorem write_overrun {front : List Char} (ht : text.toList = front ++ [' '])
    (h : ¬ cs.InOneLine p.columns text) (hrows : 2 ≤ p.rows) {q : Pad}
    (hq : p.write cs 0 0 text style = some q) :
    ∃ row, 1 ≤ row ∧ row < p.rows ∧ (q.cell row 0).style = style := by
  simp only [write, Charset.InOneLine, ht, List.foldlM_append, List.foldlM_cons, List.foldlM_nil,
    bind_pure] at hq h
  split at hq
  case isFalse => cases hq
  next hplace =>
  have hstart : Pen.InLine p ⟨p, 0, 0⟩ 0 := ⟨.refl p, Int.le_refl 0, .inl ⟨rfl, rfl, hplace.2.2⟩⟩
  obtain ⟨w', hw, rfl⟩ := Option.map_eq_some_iff.mp hq
  obtain ⟨w, hfront, hblank⟩ := Option.bind_eq_some_iff.mp hw
  have hbelow : Pen.Below p style w := by
    cases hf : front.foldlM (cs.advance? p.columns) 0 with
    | none =>
      exact hstart.overrun_foldlM hf hfront (fun _ _ _ _ h hc => h.enter hrows hc style)
        (fun _ _ _ _ h hc he => h.overrun_enter hrows hc he) fun _ _ _ h he => h.enter he
    | some column =>
      obtain ⟨w₁, hw₁, h₁⟩ := hstart.enters hrows hf style
      cases hw₁.symm.trans hfront
      refine h₁.below hrows (Int.not_lt.mp fun hlt => h ?_)
      rw [hf, Option.bind_eq_bind, Option.bind_some, cs.plain_blank.advance? hlt]
      rfl
  have hput : Pen.put style w (' ', 1) = some w' := by
    have hne := cs.plain_blank.ne
    simpa only [Pen.enter, hne, if_false, cs.shown_blank, List.foldlM_cons, List.foldlM_nil, bind_pure]
      using hblank
  exact (hbelow.put hput).2 Nat.one_ne_zero

end Pad

end Chip8.Display
