import Chip8.Proofs.Cycle.Completes
import Chip8.Proofs.Cycle.Footprint
import Chip8.Proofs.Instruction.Draw
import Chip8.Proofs.Machine.Load

namespace Chip8

/-- The block that the instruction stores, if it stores one, lies off the font. -/
def Instruction.SparesFont (i : Instruction) (m : Machine) : Prop :=
  ∀ a : Nat, m.i ≤ a → a < m.i + i.stored → a < 0x50 ∨ 0xA0 ≤ a

namespace Font

theorem length_glyph (digit : Fin 16) : (glyph digit).length = 5 := by
  revert digit
  decide

theorem getElem?_glyph (digit : Fin 16) {k : Nat} (hk : k < 5) :
    (glyph digit)[k]? = glyphs[5 * digit.val + k]? := by
  rw [glyph, List.getElem?_take_of_lt (show k < glyphSize from hk), List.getElem?_drop]
  rfl

end Font

namespace Machine

variable {m : Machine}

theorem HoldsFont.sprite (h : m.HoldsFont) {digit : Fin 16} (hi : m.i = 0x50 + 5 * digit.val) :
    m.sprite 5 = Font.glyph digit := by
  have hl := Font.length_glyph digit
  rw [Machine.sprite, if_neg (by decide)]
  refine m.memory.slice_eq (by omega) (by rw [hl]; rfl) ?_ fun k hk => ?_
  · have hrows : (5 : Fin 16).val = 5 := rfl
    simp only [memorySize]
    omega
  · have hg : 5 * digit.val + k < Font.glyphs.length := by
      have hg : Font.glyphs.length = 80 := rfl
      omega
    have ha : m.i.toNat + k = Font.location + (5 * digit.val + k) := by
      simp only [Font.location]
      omega
    rw [Font.getElem?_glyph digit (hl ▸ hk), ha, h _ hg]

end Machine

namespace Processor

variable {p : Processor} {s t : Session} {steps : List Step}

/-- The sessions that a new machine comes to by programs that are loaded, keys that change and cycles that are
completed, where no block is stored over the font. -/
inductive Spared (p : Processor) : Session → Prop where
  | new {s : Session} (h : s.machine = .initial) : Spared p s
  | load {s : Session} (program : List UInt8) (h : Spared p s) :
      Spared p { s with machine := s.machine.offered program }
  | run {s t : Session} {steps : List Step} (h : Spared p s) (hr : p.Completes s steps t)
      (hs : ∀ c ∈ steps, c.instruction.SparesFont c.machine) : Spared p t

theorem cycle_holdsFont {i : Instruction} (h : s.machine.HoldsFont) (hi : s.machine.Executes i)
    (hs : i.SparesFont s.machine) (hc : p.cycle s = .ok () t) : t.machine.HoldsFont := by
  refine h.of_cells fun a hl hu => ?_
  obtain hm | ⟨hf, hb⟩ := (cycle_within hc hi).1.memory a
  · exact hm
  · have ho := hs a hf hb
    omega

theorem Completes.holdsFont (h : p.Completes s steps t) (hf : s.machine.HoldsFont)
    (hs : ∀ c ∈ steps, c.instruction.SparesFont c.machine) : t.machine.HoldsFont := by
  induction h with
  | done => exact hf
  | keys keypad _ ih => exact ih hf hs
  | cycle hi hc _ ih =>
    have ht := cycle_holdsFont hf hi (hs _ List.mem_cons_self) hc
    exact ih ht fun c hc => hs c (List.mem_cons_of_mem _ hc)

theorem Spared.holdsFont (h : p.Spared s) : s.machine.HoldsFont := by
  induction h with
  | new h => exact h ▸ Machine.holdsFont_initial
  | load program _ ih => exact ih.offered program
  | run _ hr hs ih => exact hr.holdsFont ih hs

theorem execute_draw_glyph (hf : s.machine.HoldsFont) {digit : Fin 16}
    (hi : s.machine.i = 0x50 + 5 * digit.val) (a b : Register) :
    ∃ screen collided, s.machine.screen.Blitted (s.machine.v.get a).toNat (s.machine.v.get b).toNat
        (Font.glyph digit) collided screen ∧
      p.execute (.draw a b 5) s =
        .ok () { s with machine := { s.machine with screen }.setFlag collided } := by
  have hr : 0 ≤ s.machine.i ∧ s.machine.i + (5 : Fin 16).val ≤ 0x1000 := by
    have hrows : (5 : Fin 16).val = 5 := rfl
    omega
  refine ⟨_, _, Screen.blitted_drawn _ _ _ _, ?_⟩
  rw [execute_eq, Machine.draw_fault?_eq, if_pos (.inr hr)]
  simp only [Instruction.result, hf.sprite hi]
  rfl

/-- As long as no block is stored over the font, every digit can be drawn at any time: whatever the registers hold,
looking up the glyph of one of them and drawing five rows at the column and the row that two of them hold never
fails, and combines the screen with the five bytes of the glyph of its lower half, clipped at the edges. -/
theorem digits_drawn (h : p.Spared s) (v : Vector UInt8 16) (x a b : Register) :
    ∃ (digit : Fin 16) (i : Int) (screen : Screen screenWidth screenHeight) (collided : Bool),
      digit.val = (v.get x).toNat % 16 ∧ i = 0x50 + 5 * digit.val ∧
      s.machine.screen.Blitted (v.get a).toNat (v.get b).toNat (Font.glyph digit) collided screen ∧
      p.execute (.loadGlyph x) { s with machine := { s.machine with v } } =
        .ok () { s with machine := { s.machine with v, i } } ∧
      p.execute (.draw a b 5) { s with machine := { s.machine with v, i } } =
        .ok () { s with machine := { s.machine with v, i, screen }.setFlag collided } := by
  let digit : Fin 16 := ⟨(v.get x).toNat % 16, Nat.mod_lt _ (by decide)⟩
  let i : Int := 0x50 + 5 * digit.val
  obtain ⟨screen, collided, hb, hd⟩ := execute_draw_glyph (p := p) (s := { s with machine := { s.machine with v, i } })
    h.holdsFont rfl a b
  exact ⟨digit, i, screen, collided, rfl, rfl, hb, execute_eq p _ _, hd⟩

def storing (pc i : Int) : Session :=
  Session.start { Machine.initial with
    memory := Machine.initial.memory.overlay 0x200 [0xA0, 0x4E, 0xF1, 0x55], pc, i }

theorem digits_drawn_beside_store :
    let p : Processor := ⟨fun _ => -1, false⟩
    let v : Vector UInt8 16 := Vector.replicate 16 0x1B
    ∃ s : Session, p.Spared s ∧
      p.Completes (storing 0x200 0) [⟨(storing 0x200 0).machine, .loadIndex 0x4E⟩,
        ⟨(storing 0x202 0x4E).machine, .storeRegisters 1⟩] s ∧
      ∃ screen collided, s.machine.screen.Blitted 27 27 (Font.glyph 0xB) collided screen ∧
        p.execute (.loadGlyph 3) { s with machine := { s.machine with v } } =
          .ok () { s with machine := { s.machine with v, i := 0x87 } } ∧
        p.execute (.draw 0 1 5) { s with machine := { s.machine with v, i := 0x87 } } =
          .ok () { s with machine := { s.machine with v, i := 0x87, screen }.setFlag collided } := by
  intro p v
  have hf : (storing 0x200 0).machine.fetch = .ok 0xA04E := by
    rw [Machine.fetch_eq (a := 0x200) rfl (by decide)]
    simp [storing, Session.start]
  have hf' : (storing 0x202 0x4E).machine.fetch = .ok 0xF155 := by
    rw [Machine.fetch_eq (a := 0x202) rfl (by decide)]
    simp [storing, Session.start]
  have hc : p.cycle (storing 0x200 0) = .ok () (storing 0x202 0x4E) :=
    cycle_eq_ok_iff.mpr ⟨rfl, _, .loadIndex 0x4E, hf, by rfl, rfl, rfl⟩
  obtain ⟨s, hc'⟩ : ∃ s, p.cycle (storing 0x202 0x4E) = .ok () s :=
    ⟨_, cycle_eq_ok_iff.mpr ⟨rfl, _, .storeRegisters 1, hf', by rfl, by decide, rfl⟩⟩
  have hr : p.Completes (storing 0x200 0) [⟨_, .loadIndex 0x4E⟩, ⟨_, .storeRegisters 1⟩] s :=
    .cycle ⟨_, hf, by rfl⟩ hc (.cycle ⟨_, hf', by rfl⟩ hc' .done)
  have hm : (Session.start .initial).machine.offered [0xA0, 0x4E, 0xF1, 0x55] =
      (storing 0x200 0).machine := by
    rw [Machine.offered, Machine.loadProgram_eq _ (by decide)]
    rfl
  have hloaded := Spared.load (p := p) [0xA0, 0x4E, 0xF1, 0x55] (.new (s := Session.start .initial) rfl)
  rw [hm] at hloaded
  have hs : p.Spared s := by
    refine .run hloaded hr ?_
    simp only [List.forall_mem_cons, List.not_mem_nil, Instruction.SparesFont, Instruction.stored]
    have hi : (storing 0x202 0x4E).machine.i = 0x4E := rfl
    refine ⟨fun a hl hu => ?_, fun a hl hu => ?_, by simp⟩
    · omega
    · rw [hi] at hl hu
      have hx : (1 : Register).val = 1 := rfl
      omega
  obtain ⟨digit, i, screen, collided, hd, hi, hb, hg, hw⟩ := digits_drawn hs v 3 0 1
  have hv (r : Register) : (v.get r).toNat = 27 := by
    simp [v, Vector.get]
  rw [hv] at hd
  rw [hv, hv] at hb
  obtain rfl : digit = 0xB := Fin.ext hd
  subst hi
  exact ⟨s, hs, hr, screen, collided, hb, hg, hw⟩

end Processor

end Chip8
