import Chip8.Proofs.Machine.Valid

namespace Chip8

namespace Program

def ofWords (words : List UInt16) : List UInt8 :=
  words.flatMap fun word => [UInt8.ofNat (word.toNat / 0x100), UInt8.ofNat word.toNat]

theorem length_ofWords (words : List UInt16) : (ofWords words).length = 2 * words.length := by
  induction words with
  | nil => rfl
  | cons word words ih =>
    simp only [ofWords, List.flatMap_cons, List.length_append, List.length_cons, List.length_nil] at ih ⊢
    omega

theorem getElem?_ofWords {words : List UInt16} {j : Nat} {word : UInt16} (h : words[j]? = some word) :
    (ofWords words)[2 * j]? = some (UInt8.ofNat (word.toNat / 0x100)) ∧
      (ofWords words)[2 * j + 1]? = some (UInt8.ofNat word.toNat) := by
  induction words generalizing j with
  | nil => cases h
  | cons first words ih =>
    cases j with
    | zero =>
      cases h
      exact ⟨rfl, rfl⟩
    | succ j => exact ih h

end Program

namespace Machine

/-- The machine once it has been offered a program, which it refuses if there is no room for it. -/
def offered (m : Machine) (program : List UInt8) : Machine :=
  match m.loadProgram program with
  | .ok t => t
  | .error _ => m

/-- The glyphs stand in the memory where a new machine has them. -/
def HoldsFont (m : Machine) : Prop :=
  ∀ k < Font.glyphs.length, m.memory.cells[Font.location + k]? = Font.glyphs[k]?

variable {m m' : Machine} {program : List UInt8}

theorem holdsFont_initial : initial.HoldsFont := fun _ hk =>
  Memory.getElem?_overlay _ (by decide) hk

theorem HoldsFont.of_cells (h : m.HoldsFont)
    (hm : ∀ a : Nat, 0x50 ≤ a → a < 0xA0 → m'.memory.cells[a]? = m.memory.cells[a]?) : m'.HoldsFont := by
  intro k hk
  have hl : Font.glyphs.length = 0x50 := rfl
  have ha : Font.location = 0x50 := rfl
  rw [hm _ (by omega) (by omega), h k hk]

theorem loadProgram_eq (m : Machine) (h : program.length ≤ 0xE00) :
    m.loadProgram program = .ok { m with memory := m.memory.overlay programStart program } :=
  if_neg (Nat.not_lt.mpr h)

theorem loadProgram_of_lt_length (m : Machine) (h : 0xE00 < program.length) :
    m.loadProgram program = .error ⟨program.length⟩ :=
  if_pos h

theorem eq_of_loadProgram (h : m.loadProgram program = .ok m') :
    program.length ≤ 0xE00 ∧ m' = { m with memory := m.memory.overlay programStart program } := by
  by_cases hl : program.length ≤ 0xE00
  · rw [loadProgram_eq m hl, Except.ok.injEq] at h
    exact ⟨hl, h.symm⟩
  · rw [loadProgram_of_lt_length m (Nat.lt_of_not_le hl)] at h
    cases h

theorem HoldsFont.loadProgram (h : m.HoldsFont) (hm : m.loadProgram program = .ok m') : m'.HoldsFont := by
  obtain ⟨-, rfl⟩ := eq_of_loadProgram hm
  refine h.of_cells fun a _ ha => ?_
  have ho : a < programStart := Nat.lt_trans ha (by decide)
  exact m.memory.getElem?_overlay_of_outside programStart program (.inl ho)

theorem HoldsFont.offered (h : m.HoldsFont) (program : List UInt8) : (m.offered program).HoldsFont := by
  rw [Machine.offered]
  cases hm : m.loadProgram program with
  | ok t => exact h.loadProgram hm
  | error e => exact h

theorem getElem?_of_loadProgram (h : m.loadProgram program = .ok m') {k : Nat} (hk : k < program.length) :
    m'.memory.cells[programStart + k]? = program[k]? := by
  obtain ⟨hl, rfl⟩ := eq_of_loadProgram h
  refine m.memory.getElem?_overlay ?_ hk
  simp only [programStart, memorySize]
  omega

theorem fetch_of_cells {a : Nat} {high low : UInt8} (hp : m.pc = a) (hh : m.memory.cells[a]? = some high)
    (hl : m.memory.cells[a + 1]? = some low) : m.fetch = .ok (256 * high.toNat + low.toNat : Int) := by
  obtain ⟨ha, rfl⟩ := Vector.getElem?_eq_some_iff.mp hh
  obtain ⟨ha', rfl⟩ := Vector.getElem?_eq_some_iff.mp hl
  exact fetch_eq hp ha'

theorem fetch_of_loadProgram (h : m.loadProgram program = .ok m') {k : Nat} {high low : UInt8}
    (hh : program[k]? = some high) (hl : program[k + 1]? = some low) :
    ({ m' with pc := (programStart + k : Nat) } : Machine).fetch =
      .ok (256 * high.toNat + low.toNat : Int) := by
  obtain ⟨hk, -⟩ := List.getElem?_eq_some_iff.mp hl
  refine fetch_of_cells rfl ?_ ?_
  · exact (getElem?_of_loadProgram h (by omega)).trans hh
  · exact (getElem?_of_loadProgram h hk).trans hl

theorem fetch_of_loadWords {words : List UInt16} (h : m.loadProgram (Program.ofWords words) = .ok m') {j : Nat}
    {word : UInt16} (hw : words[j]? = some word) :
    ({ m' with pc := (programStart + 2 * j : Nat) } : Machine).fetch = .ok (word.toNat : Int) := by
  obtain ⟨hh, hl⟩ := Program.getElem?_ofWords hw
  have hb := word.toNat_lt
  rw [fetch_of_loadProgram h hh hl, UInt8.toNat_ofNat', UInt8.toNat_ofNat']
  congr 1
  omega

/-- A program that there is room for is loaded into its place. Nothing else changes, so the font stands where it
stood and so does the end of a longer program from before. What is fetched inside the program are its bytes, two
by two, and so the words that it was written from. A longer program is refused, and the machine stays as it is. -/
theorem load_then_fetch (m : Machine) :
    (∀ program : List UInt8, program.length ≤ 0xE00 → ∃ memory,
      m.loadProgram program = .ok { m with memory } ∧
      (∀ k < program.length, memory.cells[0x200 + k]? = program[k]?) ∧
      (∀ a : Nat, a < 0x200 ∨ 0x200 + program.length ≤ a → memory.cells[a]? = m.memory.cells[a]?) ∧
      (m.HoldsFont → { m with memory }.HoldsFont) ∧
      (∀ (before : Machine) (earlier : List UInt8), before.loadProgram earlier = .ok m →
        ∀ k, program.length ≤ k → k < earlier.length → memory.cells[0x200 + k]? = earlier[k]?) ∧
      ∀ (k : Nat) (high low : UInt8), program[k]? = some high → program[k + 1]? = some low →
        { m with memory, pc := 0x200 + k }.fetch = .ok (256 * high.toNat + low.toNat)) ∧
    (∀ words : List UInt16, words.length ≤ 1792 → ∃ memory,
      m.loadProgram (Program.ofWords words) = .ok { m with memory } ∧
      ∀ (j : Nat) (word : UInt16), words[j]? = some word →
        { m with memory, pc := 0x200 + 2 * j }.fetch = .ok word.toNat) ∧
    ∀ program : List UInt8, 0xE00 < program.length →
      m.loadProgram program = .error ⟨program.length⟩ ∧ m.offered program = m := by
  refine ⟨fun program h => ?_, fun words h => ?_, fun program h => ?_⟩
  · have hm := m.loadProgram_eq h
    have hout (a : Nat) (ha : a < 0x200 ∨ 0x200 + program.length ≤ a) :=
      m.memory.getElem?_overlay_of_outside programStart program ha
    refine ⟨_, hm, fun k => getElem?_of_loadProgram hm, hout, fun hf => hf.loadProgram hm,
      fun before earlier he k hk hk' => ?_, fun k high low => fetch_of_loadProgram hm⟩
    exact (hout _ (.inr (by omega))).trans (getElem?_of_loadProgram he hk')
  · have hm := m.loadProgram_eq (show (Program.ofWords words).length ≤ 0xE00 by rw [Program.length_ofWords]; omega)
    exact ⟨_, hm, fun j word => fetch_of_loadWords hm⟩
  · have hm := m.loadProgram_of_lt_length h
    exact ⟨hm, by rw [offered, hm]⟩

theorem load_then_fetch_full :
    (List.replicate 0xE00 (7 : UInt8)).length ≤ 0xE00 ∧
    (∃ memory, initial.loadProgram (List.replicate 0xE00 7) = .ok { initial with memory } ∧
      { initial with memory }.HoldsFont ∧ { initial with memory, pc := 0xFFE }.fetch = .ok 0x0707) ∧
    (∃ m memory, initial.loadProgram [1, 2, 3] = .ok m ∧ m.loadProgram [9] = .ok { m with memory } ∧
      memory.cells[0x202]? = some 3) ∧
    (∃ memory, initial.loadProgram (Program.ofWords [0x00E0, 0x1200]) = .ok { initial with memory } ∧
      { initial with memory, pc := 0x202 }.fetch = .ok 0x1200) ∧
    0xE00 < (List.replicate 0xE01 (7 : UInt8)).length ∧
    initial.offered (List.replicate 0xE01 7) = initial := by
  have hl : (List.replicate 0xE00 (7 : UInt8)).length ≤ 0xE00 := Nat.le_of_eq List.length_replicate
  have hl' : 0xE00 < (List.replicate 0xE01 (7 : UInt8)).length :=
    Nat.lt_of_lt_of_eq (by decide) List.length_replicate.symm
  have hb (k : Nat) (hk : k < 0xE00) : (List.replicate 0xE00 (7 : UInt8))[k]? = some 7 := by
    rw [List.getElem?_replicate, if_pos hk]
  obtain ⟨bytes, written, refused⟩ := load_then_fetch initial
  obtain ⟨memory, hm, -, -, hf, -, hd⟩ := bytes _ hl
  obtain ⟨memory', hm', hw⟩ := written [0x00E0, 0x1200] (by decide)
  refine ⟨hl, ⟨memory, hm, hf holdsFont_initial, ?_⟩, ?_, ⟨memory', hm', hw 1 _ rfl⟩, hl', (refused _ hl').2⟩
  · exact hd 0xDFE 7 7 (hb _ (by decide)) (hb _ (by decide))
  · have he := initial.loadProgram_eq (show [1, 2, 3].length ≤ 0xE00 by decide)
    obtain ⟨shorter, hs, -, -, -, htail, -⟩ := (load_then_fetch _).1 [9] (by decide)
    exact ⟨_, shorter, he, hs, htail initial _ he 2 (by decide) (by decide)⟩

end Machine

end Chip8
