import Chip8.Proofs.Instruction.Pattern
import Chip8.Proofs.Text.Hex

namespace Chip8

namespace Word

def field? (w : Word) : List Char → Option Nat
  | ['x'] => some w.x.val
  | ['y'] => some w.y.val
  | ['n'] => some w.n.val
  | ['k', 'k'] => some w.kk.toNat
  | ['n', 'n', 'n'] => some w.nnn.val
  | _ => none

/-- The runs of equal characters that a tag is made of, such as 3, x and kk. -/
def runs (tag : String) : List (List Char) :=
  tag.toList.splitBy (· == ·)

/-- The number that a tag comes to with the fields of the word in the places of its letters. Runs that name
no field are figures. -/
def written (w : Word) (tag : String) : Nat :=
  (runs tag).foldl (fun n run => 16 ^ run.length * n + (w.field? run).getD (Text.Hex.value run)) 0

/-- The tags with a figure that the decoder does not look at. -/
def looseTags : List String :=
  ["00E0", "00EE", "5xy0", "9xy0"]

def settled (w : Word) (tag : String) : Word :=
  if tag = "00E0" ∨ tag = "00EE" then { w with x := 0 }
  else if tag = "5xy0" ∨ tag = "9xy0" then { w with n := 0 }
  else w

theorem ofInt_toNat (w : Word) : ofInt w.toNat = w := by
  obtain ⟨g, x, y, n⟩ := w
  simp only [ofInt, toNat, Word.mk.injEq, Fin.ext_iff, Fin.val_ofNat]
  omega

theorem written_tags (w : Word) : Instruction.tags.map w.written =
    [0x00E0, 0x00EE, 4096 * 1 + w.nnn.val, 4096 * 2 + w.nnn.val, 256 * (0x30 + w.x.val) + w.kk.toNat,
     256 * (0x40 + w.x.val) + w.kk.toNat, 16 * (16 * (0x50 + w.x.val) + w.y.val) + 0,
     256 * (0x60 + w.x.val) + w.kk.toNat, 256 * (0x70 + w.x.val) + w.kk.toNat,
     16 * (16 * (0x80 + w.x.val) + w.y.val) + 0, 16 * (16 * (0x80 + w.x.val) + w.y.val) + 1,
     16 * (16 * (0x80 + w.x.val) + w.y.val) + 2, 16 * (16 * (0x80 + w.x.val) + w.y.val) + 3,
     16 * (16 * (0x80 + w.x.val) + w.y.val) + 4, 16 * (16 * (0x80 + w.x.val) + w.y.val) + 5,
     16 * (16 * (0x80 + w.x.val) + w.y.val) + 6, 16 * (16 * (0x80 + w.x.val) + w.y.val) + 7,
     16 * (16 * (0x80 + w.x.val) + w.y.val) + 0xE, 16 * (16 * (0x90 + w.x.val) + w.y.val) + 0,
     4096 * 0xA + w.nnn.val, 4096 * 0xB + w.nnn.val, 256 * (0xC0 + w.x.val) + w.kk.toNat,
     16 * (16 * (0xD0 + w.x.val) + w.y.val) + w.n.val, 16 * (16 * (0xE0 + w.x.val) + 9) + 0xE,
     16 * (16 * (0xE0 + w.x.val) + 0xA) + 1, 16 * (16 * (0xF0 + w.x.val) + 0) + 7,
     16 * (16 * (0xF0 + w.x.val) + 0) + 0xA, 16 * (16 * (0xF0 + w.x.val) + 1) + 5,
     16 * (16 * (0xF0 + w.x.val) + 1) + 8, 16 * (16 * (0xF0 + w.x.val) + 1) + 0xE,
     16 * (16 * (0xF0 + w.x.val) + 2) + 9, 256 * (0xF0 + w.x.val) + 0x33,
     256 * (0xF0 + w.x.val) + 0x55, 16 * (16 * (0xF0 + w.x.val) + 6) + 5] := by
  rfl

theorem written_eq {w : Word} {tag : String} (ht : tag ∈ Instruction.tags) (h : w.Matches tag) :
    w.written tag = (w.settled tag).toNat := by
  have digits := Instruction.digits_tags
  have written := w.written_tags
  simp only [Instruction.tags, List.map_cons, List.map_nil, List.cons.injEq, and_true] at digits written
  simp only [Instruction.tags, List.mem_cons, List.not_mem_nil, or_false] at ht
  have hk := w.toNat_kk
  have hn : w.nnn.val = 256 * w.x + 16 * w.y + w.n := rfl
  obtain rfl | rfl | rfl | rfl | rfl | rfl | rfl | rfl | rfl | rfl | rfl | rfl | rfl | rfl | rfl |
    rfl | rfl | rfl | rfl | rfl | rfl | rfl | rfl | rfl | rfl | rfl | rfl | rfl | rfl | rfl | rfl |
    rfl | rfl | rfl := ht
  -- for each tag the match fixes the figures, and the pattern puts the fields where they were
  all_goals
    simp only [Matches, digits, Fits, true_and, and_true] at h
    rw [settled, toNat]
    simp only [written, String.reduceEq, or_self, or_true, true_or, ↓reduceIte]
    clear digits written
    omega

theorem instruction?_settled {w : Word} {i : Instruction} (h : w.instruction? = some i) :
    (w.settled i.tag).instruction? = some i := by
  have hm := matches_tag h
  rw [settled]
  split
  case isTrue ht =>
    have hg : w.group.val = 0 := by
      obtain ht | ht := ht <;> rw [ht] at hm <;> exact hm.1
    rw [← h]
    simp only [instruction?, hg]
    rfl
  case isFalse =>
    split
    case isTrue ht =>
      have hg : w.group.val = 5 ∨ w.group.val = 9 := by
        obtain ht | ht := ht <;> rw [ht] at hm
        · exact .inl hm.1
        · exact .inr hm.1
      rw [← h]
      obtain hg | hg := hg <;> simp only [instruction?, hg]
    case isFalse => exact h

theorem settled_of_not_loose {w : Word} {tag : String} (h : tag ∉ looseTags) : w.settled tag = w := by
  simp only [looseTags, List.mem_cons, List.not_mem_nil, or_false, not_or] at h
  simp [settled, h]

theorem Matches.unique {w : Word} {a b : String} (ha : a ∈ Instruction.tags) (hb : b ∈ Instruction.tags)
    (hwa : w.Matches a) (hwb : w.Matches b) : a = b := by
  have h := (tag_of_matches ha hwa).symm.trans (tag_of_matches hb hwb)
  exact Option.some.inj h

end Word

namespace Instruction

theorem decode_eq_ok_iff {opcode : Int} {i : Instruction} :
    decode opcode = .ok i ↔ (Word.ofInt opcode).instruction? = some i := by
  rw [decode]
  cases (Word.ofInt opcode).instruction? <;> simp

/-- An integer is read by matching a word against the flat list of patterns. -/
structure Patterned (opcode : Int) (w : Word) : Prop where
  digits : (4096 * w.group + 256 * w.x + 16 * w.y + w.n : Nat) = opcode % 0x10000
  byte : w.kk.toNat = 16 * w.y + w.n
  address : w.nnn.val = 256 * w.x + w.kk.toNat
  unique : ∀ a ∈ tags, ∀ b ∈ tags, w.Matches a → w.Matches b → a = b
  fails_iff : ∀ e, decode opcode = .error e ↔ e = ⟨opcode⟩ ∧ ∀ tag ∈ tags, ¬ w.Matches tag
  fits : ∀ i, decode opcode = .ok i → i.tag ∈ tags ∧ w.Matches i.tag
  written_back : ∀ i, decode opcode = .ok i → decode (w.written i.tag) = .ok i
  /-- The word itself comes back too, unless the pattern has a figure that is not looked at. -/
  same : ∀ i, decode opcode = .ok i → i.tag ∉ Word.looseTags → (w.written i.tag : Int) = opcode % 0x10000

theorem decode_patterns (opcode : Int) : Patterned opcode (Word.ofInt opcode) := by
  generalize hword : Word.ofInt opcode = w
  have hw : (w.toNat : Int) = opcode % 0x10000 := hword ▸ Word.toNat_ofInt opcode
  have hk := w.toNat_kk
  have hok (i : Instruction) : decode opcode = .ok i → w.instruction? = some i := by
    rw [decode_eq_ok_iff, hword]
    exact id
  have hfits (i : Instruction) (h : decode opcode = .ok i) : w.Matches i.tag := Word.matches_tag (hok i h)
  have hwritten (i : Instruction) (h : decode opcode = .ok i) : w.written i.tag = (w.settled i.tag).toNat :=
    Word.written_eq i.tag_mem_tags (hfits i h)
  exact {
    digits := hw
    byte := hk
    address := by
      rw [hk, ← Nat.add_assoc]
      rfl
    unique := fun _ ha _ hb => Word.Matches.unique ha hb
    fails_iff := by
      intro e
      rw [← Word.instruction?_eq_none_iff, decode, hword]
      cases w.instruction? <;> simp [eq_comm]
    fits := fun i h => ⟨i.tag_mem_tags, hfits i h⟩
    written_back := by
      intro i h
      rw [hwritten i h, decode_eq_ok_iff, Word.ofInt_toNat]
      exact Word.instruction?_settled (hok i h)
    same := by
      intro i h hl
      rw [hwritten i h, Word.settled_of_not_loose hl, hw] }

theorem decode_patterns_negative :
    decode (-0xA549) = .ok (.skipIfSame 0xA 0xB) ∧ (Word.ofInt (-0xA549)).Matches "5xy0" ∧
    (Word.ofInt (-0xA549)).n = 7 ∧ (Word.ofInt (-0xA549)).written "5xy0" = 0x5AB0 ∧
    decode 0x5AB0 = .ok (.skipIfSame 0xA 0xB) := by
  have h : decode (-0xA549) = .ok (.skipIfSame 0xA 0xB) := by rfl
  have hp := decode_patterns (-0xA549)
  exact ⟨h, (hp.fits _ h).2, by decide, by decide, hp.written_back _ h⟩

end Instruction

end Chip8
