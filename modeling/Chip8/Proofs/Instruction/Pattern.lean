import Chip8.Instruction.Decode

namespace Chip8

namespace Instruction

def tags : List String :=
  ["00E0", "00EE", "1nnn", "2nnn", "3xkk", "4xkk", "5xy0", "6xkk", "7xkk", "8xy0", "8xy1", "8xy2",
   "8xy3", "8xy4", "8xy5", "8xy6", "8xy7", "8xyE", "9xy0", "Annn", "Bnnn", "Cxkk", "Dxyn", "Ex9E",
   "ExA1", "Fx07", "Fx0A", "Fx15", "Fx18", "Fx1E", "Fx29", "Fx33", "Fx55", "Fx65"]

/-- The tag with a letter for each digit that is not looked at. -/
def pattern : String → String
  | "00E0" => "0xE0"
  | "00EE" => "0xEE"
  | "5xy0" => "5xyn"
  | "9xy0" => "9xyn"
  | tag => tag

/-- Hexadecimal digits of a pattern stand for themselves and all other letters for any digit. -/
def digits (tag : String) : List (Option Nat) :=
  (pattern tag).toList.map Text.Hex.digit?

theorem digits_tags : tags.map digits =
    [[some 0, none, some 14, some 0], [some 0, none, some 14, some 14], [some 1, none, none, none],
     [some 2, none, none, none], [some 3, none, none, none], [some 4, none, none, none],
     [some 5, none, none, none], [some 6, none, none, none], [some 7, none, none, none],
     [some 8, none, none, some 0], [some 8, none, none, some 1], [some 8, none, none, some 2],
     [some 8, none, none, some 3], [some 8, none, none, some 4], [some 8, none, none, some 5],
     [some 8, none, none, some 6], [some 8, none, none, some 7], [some 8, none, none, some 14],
     [some 9, none, none, none], [some 10, none, none, none], [some 11, none, none, none],
     [some 12, none, none, none], [some 13, none, none, none], [some 14, none, some 9, some 14],
     [some 14, none, some 10, some 1], [some 15, none, some 0, some 7],
     [some 15, none, some 0, some 10], [some 15, none, some 1, some 5],
     [some 15, none, some 1, some 8], [some 15, none, some 1, some 14],
     [some 15, none, some 2, some 9], [some 15, none, some 3, some 3],
     [some 15, none, some 5, some 5], [some 15, none, some 6, some 5]] := by
  rfl

theorem tag_mem_tags (i : Instruction) : i.tag ∈ tags := by
  cases i <;> simp only [tag] <;> decide

end Instruction

namespace Word

def Fits : Option Nat → Fin 16 → Prop
  | some d, digit => digit.val = d
  | none, _ => True

def Matches (w : Word) (tag : String) : Prop :=
  match Instruction.digits tag with
  | [g, x, y, n] => Fits g w.group ∧ Fits x w.x ∧ Fits y w.y ∧ Fits n w.n
  | _ => False

theorem matches_tag {w : Word} {i : Instruction} (h : w.instruction? = some i) :
    w.Matches i.tag := by
  have table := Instruction.digits_tags
  simp only [Instruction.tags, List.map_cons, List.map_nil, List.cons.injEq, and_true] at table
  have hk := w.toNat_kk
  have hg := w.group.isLt
  simp only [instruction?, screenOrReturn?, arithmetic?, keySkip?, transfer?] at h
  repeat' split at h
  all_goals cases h
  all_goals
    simp only [Instruction.tag, Matches, table, Fits, true_and, and_true]
    grind

theorem tag_of_matches {w : Word} {tag : String} (ht : tag ∈ Instruction.tags)
    (h : w.Matches tag) : w.instruction?.map Instruction.tag = some tag := by
  have table := Instruction.digits_tags
  simp only [Instruction.tags, List.map_cons, List.map_nil, List.cons.injEq, and_true] at table
  simp only [Instruction.tags, List.mem_cons, List.not_mem_nil, or_false] at ht
  obtain rfl | rfl | rfl | rfl | rfl | rfl | rfl | rfl | rfl | rfl | rfl | rfl | rfl | rfl | rfl |
    rfl | rfl | rfl | rfl | rfl | rfl | rfl | rfl | rfl | rfl | rfl | rfl | rfl | rfl | rfl | rfl |
    rfl | rfl | rfl := ht
  all_goals
    simp only [Matches, table, Fits] at h
    obtain ⟨hg, -, hy, hn⟩ := h
    simp [instruction?, screenOrReturn?, arithmetic?, keySkip?, transfer?, Instruction.tag, hg,
      toNat_kk, hy, hn]

theorem instruction?_eq_none_iff (w : Word) :
    w.instruction? = none ↔ ∀ tag ∈ Instruction.tags, ¬ w.Matches tag := by
  constructor
  · intro hn tag ht hm
    have h := tag_of_matches ht hm
    rw [hn, Option.map_none] at h
    cases h
  · intro h
    cases hi : w.instruction? with
    | none => rfl
    | some i => exact absurd (matches_tag hi) (h i.tag i.tag_mem_tags)

end Word

theorem Instruction.decode_eq_error_iff {opcode : Int} :
    (∃ e, decode opcode = .error e) ↔
      ∀ tag ∈ tags, ¬ (Word.ofInt opcode).Matches tag := by
  rw [← Word.instruction?_eq_none_iff]
  rw [decode]
  cases (Word.ofInt opcode).instruction? <;> simp

end Chip8
