import Chip8.Proofs.Text.Radix
import Chip8.Text.Fields

namespace Chip8.Text.Numeral

variable {ds : List Nat} {cs : List Char}

def Unsigned (k : Nat) (cs : List Char) : Prop :=
  ∃ ds, Spelled Decimal ds cs ∧ ds.length ≤ maxDigits ∧ ofDigits 10 ds = k

inductive Signed : Int → List Char → Prop where
  | plain {k : Nat} {cs : List Char} (h : Unsigned k cs) : Signed k cs
  | plus {k : Nat} {cs : List Char} (h : Unsigned k cs) : Signed k ('+' :: cs)
  | minus {k : Nat} {cs : List Char} (h : Unsigned k cs) : Signed (-k) ('-' :: cs)

/-- A written form of an integer: with a sign or none, and between blanks. -/
def Written (n : Int) (text : List Char) : Prop :=
  ∃ left core right, text = left ++ core ++ right ∧ Signed n core ∧
    (∀ c ∈ left, Blank.isBlank c = true) ∧ ∀ c ∈ right, Blank.isBlank c = true

theorem digitOf_ten_iff {c : Char} {d : Nat} : DigitOf 10 c d ↔ Decimal c d := by
  constructor
  · rintro ⟨hlt, h | h⟩
    · exact h
    · -- a letter is worth ten at least
      unfold letterValue? at h
      split at h
      · cases h
        omega
      · split at h
        · cases h
          omega
        · cases h
  · exact fun h => ⟨DecimalDigit.value?_lt h, .inl h⟩

theorem magnitudeIn_ten_iff {k : Nat} : MagnitudeIn 10 k cs ↔ Unsigned k cs := by
  have hp : ¬ Nat.isPowerOfTwo 10 := (powerOfTwo_iff (by decide)).not.mp (by decide)
  have hu : UnsignedIn 10 k cs ↔ Unsigned k cs := by
    simp only [UnsignedIn, Unsigned, hp, false_or]
    refine exists_congr fun ds => and_congr_left fun _ => ?_
    have hd : DigitOf 10 = Decimal := by
      funext c d
      exact propext digitOf_ten_iff
    rw [hd]
  have hm {c : Char} : markedBase? c ≠ some 10 := by
    unfold markedBase?
    split
    · decide
    · split
      · decide
      · split <;> decide
  rw [← hu]
  constructor
  · intro h
    cases h with
    | plain h => exact h
    | marked _ hl | parted _ hl => exact absurd hl hm
  · exact .plain

theorem signedIn_ten_iff {n : Int} : SignedIn 10 n cs ↔ Signed n cs := by
  constructor
  · intro h
    cases h with
    | plain h => exact .plain (magnitudeIn_ten_iff.mp h)
    | plus h => exact .plus (magnitudeIn_ten_iff.mp h)
    | minus h => exact .minus (magnitudeIn_ten_iff.mp h)
  · intro h
    cases h with
    | plain h => exact .plain (magnitudeIn_ten_iff.mpr h)
    | plus h => exact .plus (magnitudeIn_ten_iff.mpr h)
    | minus h => exact .minus (magnitudeIn_ten_iff.mpr h)

/-- A text is read as an integer exactly if it is one of the written forms of that integer. -/
theorem read?_eq_some_iff {n : Int} {text : List Char} : read? 10 text = some n ↔ Written n text := by
  have hr : read? 10 text = some n ↔ WrittenIn 10 n text := read?_eq_some_iff_writtenIn (by decide)
  rw [hr]
  refine exists_congr fun left => exists_congr fun core => exists_congr fun right => ?_
  rw [signedIn_ten_iff]

theorem Signed.mem {n : Int} (h : Signed n cs) :
    ∀ c ∈ cs, c = '-' ∨ c = '+' ∨ c = '_' ∨ ∃ d, Decimal c d := by
  cases h with
  | plain h =>
    obtain ⟨ds, hs, -⟩ := h
    exact fun c hc => .inr (.inr (hs.mem c hc))
  | plus h =>
    obtain ⟨ds, hs, -⟩ := h
    exact fun c hc => .inr ((List.mem_cons.mp hc).imp id (hs.mem c))
  | minus h =>
    obtain ⟨ds, hs, -⟩ := h
    exact fun c hc => (List.mem_cons.mp hc).imp id fun hc => .inr (hs.mem c hc)

theorem forall₂_written_iff {numbers : List Int} {texts : List (List Char)} :
    List.Forall₂ Written numbers texts ↔ numbers.map some = texts.map (read? 10) := by
  rw [← List.forall₂_eq_eq_eq (α := Option Int), List.forall₂_map_left_iff, List.forall₂_map_right_iff]
  exact ⟨fun h => h.imp fun _ _ hw => (read?_eq_some_iff.mpr hw).symm,
    fun h => h.imp fun _ _ hr => read?_eq_some_iff.mp hr.symm⟩

theorem Written.comma_notMem {n : Int} {text : List Char} (h : Written n text) : ',' ∉ text := by
  have hb : Blank.isBlank ',' = false := by decide
  obtain ⟨left, core, right, rfl, hc, hl, hr⟩ := h
  simp only [List.mem_append, not_or]
  refine ⟨⟨fun hm => ?_, fun hm => ?_⟩, fun hm => ?_⟩
  · exact absurd (hl _ hm) (by rw [hb]; decide)
  · rcases hc.mem _ hm with he | he | he | ⟨d, hd⟩
    · cases he
    · cases he
    · cases he
    · cases hd
  · exact absurd (hr _ hm) (by rw [hb]; decide)

theorem Unsigned.lt {k : Nat} (h : Unsigned k cs) : k < 10 ^ maxDigits := by
  obtain ⟨ds, hs, hl, rfl⟩ := h
  have hd : ∀ d ∈ ds, d < 10 := by
    intro d hm
    obtain ⟨c, hc⟩ := hs.digits d hm
    exact DecimalDigit.value?_lt hc
  calc ofDigits 10 ds < 10 ^ ds.length := ofDigits_lt (by decide) hd
    _ ≤ 10 ^ maxDigits := Nat.pow_le_pow_right (by decide) hl

theorem spelled_digitChar (hne : ds ≠ []) (hd : ∀ d ∈ ds, d < 10) :
    Spelled Decimal ds (ds.map Nat.digitChar) := by
  induction ds with
  | nil => exact absurd rfl hne
  | cons d ds ih =>
    have h : Decimal d.digitChar d := DecimalDigit.value?_digitChar d (hd d (by simp))
    cases ds with
    | nil => exact .last h
    | cons e ds => exact .next h (ih (by simp) fun d hm => hd d (List.mem_cons_of_mem _ hm))

theorem exists_unsigned {k : Nat} (hk : k < 10 ^ maxDigits) : ∃ cs, Unsigned k cs := by
  by_cases h0 : k = 0
  · subst h0
    exact ⟨_, [0], spelled_digitChar (by simp) (by simp), by decide, rfl⟩
  · have hd : ∀ d ∈ (Nat.digits 10 k).reverse, d < 10 := fun d hm =>
      Nat.digits_lt_base (by decide) (List.mem_reverse.mp hm)
    refine ⟨_, (Nat.digits 10 k).reverse, spelled_digitChar ?_ hd, ?_, ?_⟩
    · simpa [Nat.digits_eq_nil_iff_eq_zero] using h0
    · rw [List.length_reverse]
      exact (Nat.digits_length_le_iff (by decide) k).mpr hk
    · rw [ofDigits_eq, List.reverse_reverse, Nat.ofDigits_digits]

theorem exists_written_iff (n : Int) : (∃ text, Written n text) ↔ n.natAbs < 10 ^ maxDigits := by
  constructor
  · rintro ⟨text, left, core, right, -, h, -, -⟩
    cases h with
    | plain h | plus h => simpa using h.lt
    | minus h => simpa using h.lt
  · intro h
    obtain ⟨cs, hcs⟩ := exists_unsigned h
    obtain ⟨core, hc⟩ : ∃ core, Signed n core := by
      rcases n.natAbs_eq with hn | hn
      · rw [hn]
        exact ⟨_, .plain hcs⟩
      · rw [hn]
        exact ⟨_, .minus hcs⟩
    exact ⟨core, [], core, [], by simp, hc, by simp, by simp⟩

end Chip8.Text.Numeral
