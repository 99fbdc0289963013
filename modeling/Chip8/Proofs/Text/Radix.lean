import Mathlib.Algebra.GroupWithZero.Nat
import Mathlib.Data.List.Forall2
import Mathlib.Data.List.TakeWhile
import Mathlib.Data.Nat.Digits.Lemmas
import Chip8.Text.Numeral

namespace Chip8.Text

namespace DecimalDigit

theorem value?_lt {c : Char} {d : Nat} (h : value? c = some d) : d < 10 := by
  obtain ⟨z, hz, rfl⟩ := Option.map_eq_some_iff.mp h
  have hc := List.find?_some hz
  simp only [Bool.and_eq_true, decide_eq_true_eq] at hc
  omega

theorem value?_digitChar : ∀ d < 10, value? d.digitChar = some d := by
  decide

theorem toAscii_eq_iff {a c : Char} (ha : value? a = none) : toAscii c = a ↔ c = a := by
  rw [toAscii]
  cases hv : value? c with
  | none => rfl
  | some d =>
    have hd := value?_digitChar d (value?_lt hv)
    constructor
    · rintro rfl
      rw [hd] at ha
      cases ha
    · rintro rfl
      rw [hv] at ha
      cases ha

end DecimalDigit

namespace Blank

theorem isBlank_iff (c : Char) : isBlank c = true ↔
    0x09 ≤ c.toNat ∧ c.toNat ≤ 0x0D ∨ c.toNat = 0x20 ∨ c.toNat = 0x85 ∨ c.toNat = 0xA0 ∨
      c.toNat = 0x1680 ∨ 0x2000 ≤ c.toNat ∧ c.toNat ≤ 0x200A ∨ c.toNat = 0x2028 ∨ c.toNat = 0x2029 ∨
      c.toNat = 0x202F ∨ c.toNat = 0x205F ∨ c.toNat = 0x3000 := by
  simp only [isBlank, Bool.or_eq_true, Bool.and_eq_true, decide_eq_true_eq, beq_iff_eq, or_assoc]

theorem zeros_between : ∀ z ∈ DecimalDigit.zeros,
    0x20 < z ∧ z + 10 ≤ 0x85 ∨ 0xA0 < z ∧ z + 10 ≤ 0x1680 ∨ 0x1680 < z ∧ z + 10 ≤ 0x2000 ∨ 0x3000 < z := by
  decide

theorem isBlank_of_value? {c : Char} {d : Nat} (h : DecimalDigit.value? c = some d) : isBlank c = false := by
  obtain ⟨z, hz, rfl⟩ := Option.map_eq_some_iff.mp h
  have hc := List.find?_some hz
  have hb := zeros_between z (List.mem_of_find?_eq_some hz)
  simp only [Bool.and_eq_true, decide_eq_true_eq] at hc
  rw [Bool.eq_false_iff, ne_eq, isBlank_iff]
  omega

theorem strip_append {left core right : List Char} (hl : ∀ c ∈ left, isBlank c = true)
    (hr : ∀ c ∈ right, isBlank c = true) (hne : core ≠ []) (hc : ∀ c ∈ core, isBlank c = false) :
    strip (left ++ core ++ right) = core := by
  have drop (blanks rest : List Char) (hb : ∀ c ∈ blanks, isBlank c = true) (hne : rest ≠ [])
      (hh : isBlank (rest.head hne) = false) : (blanks ++ rest).dropWhile isBlank = rest := by
    rw [List.dropWhile_append_of_pos hb]
    obtain ⟨c, cs, rfl⟩ := List.exists_cons_of_ne_nil hne
    exact List.dropWhile_cons_of_neg (by simpa using hh)
  rw [strip, List.append_assoc, drop left (core ++ right) hl (by simp [hne])
    (by rw [List.head_append_of_ne_nil hne]; exact hc _ (List.head_mem hne)),
    List.reverse_append, drop right.reverse core.reverse (by simpa using hr) (by simpa using hne)
    (hc _ (by rw [← List.mem_reverse]; exact List.head_mem _)), List.reverse_reverse]

theorem eq_append_strip (cs : List Char) : ∃ left right, cs = left ++ strip cs ++ right ∧
    (∀ c ∈ left, isBlank c = true) ∧ ∀ c ∈ right, isBlank c = true := by
  refine ⟨cs.takeWhile isBlank, ((cs.dropWhile isBlank).reverse.takeWhile isBlank).reverse, ?_, ?_, ?_⟩
  · rw [strip, List.append_assoc, ← List.reverse_append, List.takeWhile_append_dropWhile,
      List.reverse_reverse, List.takeWhile_append_dropWhile]
  · exact fun c hc => List.mem_takeWhile_imp hc
  · intro c hc
    exact List.mem_takeWhile_imp (List.mem_reverse.mp hc)

end Blank

namespace Numeral

/-- The characters `cs` spell the digits `ds`, of which there is at least one. `Digit` says which character
is which digit, and an underscore may stand between two digits. -/
inductive Spelled (Digit : Char → Nat → Prop) : List Nat → List Char → Prop where
  | last {c : Char} {d : Nat} (h : Digit c d) : Spelled Digit [d] [c]
  | next {c : Char} {d : Nat} {ds : List Nat} {cs : List Char} (h : Digit c d)
      (hs : Spelled Digit ds cs) : Spelled Digit (d :: ds) (c :: cs)
  | parted {c : Char} {d : Nat} {ds : List Nat} {cs : List Char} (h : Digit c d)
      (hs : Spelled Digit ds cs) : Spelled Digit (d :: ds) (c :: '_' :: cs)

variable {Digit : Char → Nat → Prop} {ds : List Nat} {cs : List Char}

theorem Spelled.ne_nil (h : Spelled Digit ds cs) : cs ≠ [] := by
  cases h <;> simp

theorem Spelled.ne_underscore (h : Spelled Digit ds cs) (hu : ∀ d, ¬ Digit '_' d) {rest : List Char} :
    cs ≠ '_' :: rest := by
  rintro rfl
  cases h with
  | last h => exact hu _ h
  | next h => exact hu _ h
  | parted h => exact hu _ h

theorem Spelled.mem (h : Spelled Digit ds cs) : ∀ c ∈ cs, c = '_' ∨ ∃ d, Digit c d := by
  induction h with
  | last h => simpa using .inr ⟨_, h⟩
  | next h _ ih => simpa using ⟨.inr ⟨_, h⟩, ih⟩
  | parted h _ ih => simpa using ⟨.inr ⟨_, h⟩, ih⟩

theorem Spelled.digits (h : Spelled Digit ds cs) : ∀ d ∈ ds, ∃ c, Digit c d := by
  induction h with
  | last h => simpa using ⟨_, h⟩
  | next h _ ih => simpa using ⟨⟨_, h⟩, ih⟩
  | parted h _ ih => simpa using ⟨⟨_, h⟩, ih⟩

/-- Characters may be replaced if the digits and the underscore stay what they are. -/
theorem spelled_map_iff {Digit' : Char → Nat → Prop} {f : Char → Char} (hu : ∀ c, f c = '_' ↔ c = '_')
    (hd : ∀ c d, Digit' (f c) d ↔ Digit c d) : Spelled Digit' ds (cs.map f) ↔ Spelled Digit ds cs := by
  constructor
  · intro h
    generalize hm : cs.map f = mapped at h
    induction h generalizing cs with
    | last h =>
      obtain ⟨c, rest, rfl, rfl, hr⟩ := List.map_eq_cons_iff.mp hm
      rw [List.map_eq_nil_iff.mp hr]
      exact .last ((hd _ _).mp h)
    | next h _ ih =>
      obtain ⟨c, rest, rfl, rfl, hr⟩ := List.map_eq_cons_iff.mp hm
      exact .next ((hd _ _).mp h) (ih hr)
    | parted h _ ih =>
      obtain ⟨c, others, rfl, rfl, ho⟩ := List.map_eq_cons_iff.mp hm
      obtain ⟨u, rest, rfl, hf, hr⟩ := List.map_eq_cons_iff.mp ho
      rw [(hu u).mp hf]
      exact .parted ((hd _ _).mp h) (ih hr)
  · intro h
    induction h with
    | last h => exact .last ((hd _ _).mpr h)
    | next h _ ih => exact .next ((hd _ _).mpr h) ih
    | parted h _ ih =>
      rw [List.map_cons, List.map_cons, (hu _).mpr rfl]
      exact .parted ((hd _ _).mpr h) ih

theorem digit?_underscore (base : Nat) : digit? base '_' = none := by
  rfl

theorem digits?_eq_some_iff {base : Nat} :
    digits? base cs = some ds ↔ Spelled (fun c d => digit? base c = some d) ds cs := by
  constructor
  · intro h
    fun_induction digits? base cs generalizing ds with
    | case1 => cases h
    | case2 c =>
      obtain ⟨d, hd, rfl⟩ := Option.map_eq_some_iff.mp h
      exact .last hd
    | case3 c rest ih =>
      simp only [bind, Option.bind_eq_some_iff] at h
      obtain ⟨d, hd, ds, hs, he⟩ := h
      cases he
      exact .parted hd (ih hs)
    | case4 c rest _ _ ih =>
      simp only [bind, Option.bind_eq_some_iff] at h
      obtain ⟨d, hd, ds, hs, he⟩ := h
      cases he
      exact .next hd (ih hs)
  · intro h
    induction h with
    | last h => simp [digits?, h]
    | next h hs ih =>
      rw [digits?.eq_4 _ _ _ hs.ne_nil (fun rest => hs.ne_underscore (by simp [digit?_underscore])), h, ih]
      rfl
    | parted h _ ih => simp [digits?, h, ih]

def Decimal (c : Char) (d : Nat) : Prop :=
  DecimalDigit.value? c = some d

def DigitOf (base : Nat) (c : Char) (d : Nat) : Prop :=
  d < base ∧ (Decimal c d ∨ letterValue? c = some d)

/-- A natural number in digits of a base, no more of them than are read. -/
def UnsignedIn (base k : Nat) (cs : List Char) : Prop :=
  ∃ ds, Spelled (DigitOf base) ds cs ∧ (base.isPowerOfTwo ∨ ds.length ≤ maxDigits) ∧ ofDigits base ds = k

/-- A natural number after the marker of its base or none. An underscore may part the marker from the digits. -/
inductive MagnitudeIn (base k : Nat) : List Char → Prop where
  | plain {cs : List Char} (h : UnsignedIn base k cs) : MagnitudeIn base k cs
  | marked {zero letter : Char} {cs : List Char} (hz : Decimal zero 0) (hl : markedBase? letter = some base)
      (h : UnsignedIn base k cs) : MagnitudeIn base k (zero :: letter :: cs)
  | parted {zero letter : Char} {cs : List Char} (hz : Decimal zero 0) (hl : markedBase? letter = some base)
      (h : UnsignedIn base k cs) : MagnitudeIn base k (zero :: letter :: '_' :: cs)

inductive SignedIn (base : Nat) : Int → List Char → Prop where
  | plain {k : Nat} {cs : List Char} (h : MagnitudeIn base k cs) : SignedIn base k cs
  | plus {k : Nat} {cs : List Char} (h : MagnitudeIn base k cs) : SignedIn base k ('+' :: cs)
  | minus {k : Nat} {cs : List Char} (h : MagnitudeIn base k cs) : SignedIn base (-k) ('-' :: cs)

/-- A written form of an integer in a base: with a sign or none, and between blanks. -/
def WrittenIn (base : Nat) (n : Int) (text : List Char) : Prop :=
  ∃ left core right, text = left ++ core ++ right ∧ SignedIn base n core ∧
    (∀ c ∈ left, Blank.isBlank c = true) ∧ ∀ c ∈ right, Blank.isBlank c = true

variable {base k : Nat} {n : Int} {text : List Char}

theorem letterValue?_of_decimal {c : Char} {d : Nat} (h : Decimal c d) : letterValue? c = none := by
  have hz : ∀ z ∈ DecimalDigit.zeros, z + 10 ≤ 0x41 ∨ 0x7A < z := by decide
  obtain ⟨z, hf, rfl⟩ := Option.map_eq_some_iff.mp h
  have hc := List.find?_some hf
  have hb := hz z (List.mem_of_find?_eq_some hf)
  simp only [Bool.and_eq_true, decide_eq_true_eq] at hc
  have small : ¬ ('a' ≤ c ∧ c ≤ 'z') := by
    rintro ⟨hl, hu⟩
    have hl : 0x61 ≤ c.toNat := hl
    have hu : c.toNat ≤ 0x7A := hu
    omega
  have large : ¬ ('A' ≤ c ∧ c ≤ 'Z') := by
    rintro ⟨hl, hu⟩
    have hl : 0x41 ≤ c.toNat := hl
    have hu : c.toNat ≤ 0x5A := hu
    omega
  rw [letterValue?, if_neg small, if_neg large]

theorem isBlank_of_letterValue? {c : Char} {d : Nat} (h : letterValue? c = some d) :
    Blank.isBlank c = false := by
  have hc : 0x41 ≤ c.toNat ∧ c.toNat ≤ 0x7A := by
    unfold letterValue? at h
    split at h
    case isTrue hs =>
      have hl : 0x61 ≤ c.toNat := hs.1
      have hu : c.toNat ≤ 0x7A := hs.2
      omega
    case isFalse =>
      split at h
      case isTrue hs =>
        have hl : 0x41 ≤ c.toNat := hs.1
        have hu : c.toNat ≤ 0x5A := hs.2
        omega
      case isFalse => cases h
  rw [Bool.eq_false_iff, ne_eq, Blank.isBlank_iff]
  omega

theorem digit?_toAscii (base : Nat) (c : Char) (d : Nat) :
    digit? base (DecimalDigit.toAscii c) = some d ↔ DigitOf base c d := by
  have hdigits : ∀ e < 10, (if '0' ≤ e.digitChar ∧ e.digitChar ≤ '9'
      then some (e.digitChar.toNat - '0'.toNat) else letterValue? e.digitChar) = some e := by decide
  rw [DigitOf, Decimal, DecimalDigit.toAscii, and_comm]
  cases hv : DecimalDigit.value? c with
  | some e =>
    simp only [digit?, hdigits e (DecimalDigit.value?_lt hv), letterValue?_of_decimal hv,
      Option.filter_eq_some_iff, decide_eq_true_eq, reduceCtorEq, or_false]
  | none =>
    have hz := List.find?_eq_none.mp (Option.map_eq_none_iff.mp hv) 0x30 (by decide)
    have hc : ¬ ('0' ≤ c ∧ c ≤ '9') := by
      rintro ⟨hl, hu⟩
      have hl : 0x30 ≤ c.toNat := hl
      have hu : c.toNat ≤ 0x39 := hu
      simp only [Bool.and_eq_true, decide_eq_true_eq] at hz
      omega
    simp only [digit?, if_neg hc, Option.filter_eq_some_iff, decide_eq_true_eq, reduceCtorEq, false_or]

theorem not_digitOf_underscore (d : Nat) : ¬ DigitOf base '_' d := by
  rintro ⟨-, h | h⟩ <;> cases h

theorem digits?_toAscii :
    digits? base (cs.map DecimalDigit.toAscii) = some ds ↔ Spelled (DigitOf base) ds cs := by
  rw [digits?_eq_some_iff]
  exact spelled_map_iff (fun c => DecimalDigit.toAscii_eq_iff (by decide)) (digit?_toAscii base)

theorem powerOfTwo_iff (hb : 2 ≤ base ∧ base ≤ 36) : powerOfTwo base = true ↔ base.isPowerOfTwo := by
  constructor
  · intro h
    simp only [powerOfTwo, Bool.or_eq_true, beq_iff_eq] at h
    obtain (((rfl | rfl) | rfl) | rfl) | rfl := h
    · exact ⟨1, rfl⟩
    · exact ⟨2, rfl⟩
    · exact ⟨3, rfl⟩
    · exact ⟨4, rfl⟩
    · exact ⟨5, rfl⟩
  · rintro ⟨e, rfl⟩
    have hpow : ∀ e < 6, 2 ≤ 2 ^ e → powerOfTwo (2 ^ e) = true := by decide
    refine hpow e ?_ hb.1
    by_contra he
    have hle : 2 ^ 6 ≤ 2 ^ e := Nat.pow_le_pow_right (by decide) (by omega)
    omega

theorem unsigned?_toAscii (hb : 2 ≤ base ∧ base ≤ 36) :
    unsigned? base (cs.map DecimalDigit.toAscii) = some k ↔ UnsignedIn base k cs := by
  simp only [unsigned?, bind, Option.bind_eq_some_iff, digits?_toAscii, powerOfTwo_iff hb]
  refine exists_congr fun ds => and_congr_right fun _ => ?_
  split
  case isTrue h => simp [h]
  case isFalse h => simp [h]

theorem UnsignedIn.ne_nil (h : UnsignedIn base k cs) : cs ≠ [] := by
  obtain ⟨ds, hs, -⟩ := h
  exact hs.ne_nil

theorem marker_cases {c : Char} (h : markedBase? c = some base) :
    DecimalDigit.value? c = none ∧ c ≠ '_' ∧ ∃ d, letterValue? c = some d ∧ base ≤ d := by
  unfold markedBase? at h
  split at h
  case isTrue hc =>
    cases h
    rcases hc with rfl | rfl <;> exact ⟨rfl, by decide, _, rfl, by decide⟩
  case isFalse =>
    split at h
    case isTrue hc =>
      cases h
      rcases hc with rfl | rfl <;> exact ⟨rfl, by decide, _, rfl, by decide⟩
    case isFalse =>
      split at h
      case isTrue hc =>
        cases h
        rcases hc with rfl | rfl <;> exact ⟨rfl, by decide, _, rfl, by decide⟩
      case isFalse => cases h

theorem toAscii_eq_zero_iff {c : Char} : DecimalDigit.toAscii c = '0' ↔ Decimal c 0 := by
  have hdigits : ∀ e < 10, e.digitChar = '0' → e = 0 := by decide
  rw [Decimal, DecimalDigit.toAscii]
  cases hv : DecimalDigit.value? c with
  | some e =>
    constructor
    · intro h
      exact congrArg some (hdigits e (DecimalDigit.value?_lt hv) h)
    · rintro ⟨⟩
      rfl
  | none =>
    refine iff_of_false ?_ nofun
    rintro rfl
    cases hv

def Marked (base : Nat) (cs : List Char) : Prop :=
  ∃ zero letter rest, cs = zero :: letter :: rest ∧ Decimal zero 0 ∧ markedBase? letter = some base

theorem unmarked_of_marked {zero letter : Char} (hz : Decimal zero 0) (hl : markedBase? letter = some base) :
    unmarked base ((zero :: letter :: cs).map DecimalDigit.toAscii) =
      afterMarker (cs.map DecimalDigit.toAscii) := by
  have hletter : DecimalDigit.toAscii letter = letter :=
    (DecimalDigit.toAscii_eq_iff (marker_cases hl).1).mpr rfl
  rw [List.map_cons, List.map_cons, toAscii_eq_zero_iff.mpr hz, hletter, unmarked, if_pos hl]

theorem unmarked_of_not_marked (h : ¬ Marked base cs) :
    unmarked base (cs.map DecimalDigit.toAscii) = cs.map DecimalDigit.toAscii := by
  unfold unmarked
  split
  case h_1 c rest hm =>
    rw [if_neg]
    intro hl
    obtain ⟨zero, others, rfl, hz, ho⟩ := List.map_eq_cons_iff.mp hm
    obtain ⟨letter, rest, rfl, hletter, -⟩ := List.map_eq_cons_iff.mp ho
    rw [(DecimalDigit.toAscii_eq_iff (marker_cases hl).1).mp hletter] at h
    exact h ⟨zero, c, rest, rfl, toAscii_eq_zero_iff.mp hz, hl⟩
  case h_2 => rfl

theorem UnsignedIn.not_marked (h : UnsignedIn base k cs) : ¬ Marked base cs := by
  rintro ⟨zero, letter, rest, rfl, -, hl⟩
  obtain ⟨ds, hs, -⟩ := h
  obtain ⟨hv, hu, d, hd, hle⟩ := marker_cases hl
  rcases hs.mem letter (by simp) with rfl | ⟨e, hlt, he | he⟩
  · exact hu rfl
  · rw [Decimal, hv] at he
    cases he
  · rw [hd] at he
    cases he
    omega

theorem afterMarker_of_unsigned (h : UnsignedIn base k cs) :
    afterMarker (cs.map DecimalDigit.toAscii) = cs.map DecimalDigit.toAscii := by
  obtain ⟨ds, hs, -⟩ := h
  unfold afterMarker
  split
  case h_1 rest hm =>
    obtain ⟨c, others, rfl, hc, -⟩ := List.map_eq_cons_iff.mp hm
    rw [(DecimalDigit.toAscii_eq_iff (by decide)).mp hc] at hs
    exact absurd rfl (hs.ne_underscore not_digitOf_underscore)
  case h_2 => rfl

theorem magnitude?_toAscii (hb : 2 ≤ base ∧ base ≤ 36) :
    magnitude? base (cs.map DecimalDigit.toAscii) = some k ↔ MagnitudeIn base k cs := by
  have hm : magnitude? base (cs.map DecimalDigit.toAscii) =
      unsigned? base (unmarked base (cs.map DecimalDigit.toAscii)) := by
    rw [magnitude?, if_neg (by omega), if_pos (by omega), Int.toNat_natCast]
  rw [hm]
  constructor
  · intro h
    by_cases hmarked : Marked base cs
    · obtain ⟨zero, letter, rest, rfl, hz, hl⟩ := hmarked
      rw [unmarked_of_marked hz hl] at h
      cases rest with
      | nil => cases h
      | cons c rest =>
        by_cases hc : c = '_'
        · subst hc
          exact .parted hz hl ((unsigned?_toAscii hb).mp h)
        · have ha : afterMarker ((c :: rest).map DecimalDigit.toAscii) =
              (c :: rest).map DecimalDigit.toAscii := by
            refine afterMarker.eq_2 _ fun others he => hc ?_
            exact (DecimalDigit.toAscii_eq_iff (by decide)).mp (List.cons.inj he).1
          rw [ha] at h
          exact .marked hz hl ((unsigned?_toAscii hb).mp h)
    · rw [unmarked_of_not_marked hmarked] at h
      exact .plain ((unsigned?_toAscii hb).mp h)
  · intro h
    cases h with
    | plain h => rw [unmarked_of_not_marked h.not_marked, (unsigned?_toAscii hb).mpr h]
    | marked hz hl h => rw [unmarked_of_marked hz hl, afterMarker_of_unsigned h, (unsigned?_toAscii hb).mpr h]
    | parted hz hl h =>
      rw [unmarked_of_marked hz hl]
      exact (unsigned?_toAscii hb).mpr h

theorem MagnitudeIn.ne_nil (h : MagnitudeIn base k cs) : cs ≠ [] := by
  cases h with
  | plain h => exact h.ne_nil
  | marked | parted => exact List.cons_ne_nil _ _

theorem MagnitudeIn.mem (h : MagnitudeIn base k cs) :
    ∀ c ∈ cs, c = '_' ∨ ∃ d, Decimal c d ∨ letterValue? c = some d := by
  have hdigits {cs : List Char} (h : UnsignedIn base k cs) :
      ∀ c ∈ cs, c = '_' ∨ ∃ d, Decimal c d ∨ letterValue? c = some d := by
    obtain ⟨ds, hs, -⟩ := h
    exact fun c hc => (hs.mem c hc).imp id fun ⟨d, hd⟩ => ⟨d, hd.2⟩
  have hletter {c : Char} (h : markedBase? c = some base) : ∃ d, Decimal c d ∨ letterValue? c = some d :=
    let ⟨_, _, d, hd, _⟩ := marker_cases h
    ⟨d, .inr hd⟩
  cases h with
  | plain h => exact hdigits h
  | marked hz hl h =>
    exact List.forall_mem_cons.mpr ⟨.inr ⟨0, .inl hz⟩, List.forall_mem_cons.mpr ⟨.inr (hletter hl), hdigits h⟩⟩
  | parted hz hl h =>
    exact List.forall_mem_cons.mpr ⟨.inr ⟨0, .inl hz⟩, List.forall_mem_cons.mpr ⟨.inr (hletter hl),
      List.forall_mem_cons.mpr ⟨.inl rfl, hdigits h⟩⟩⟩

/-- Signs have no digit value, so they stay what they are when digits are put into ASCII. -/
theorem signed?_of_no_sign {c : Char} (hm : c ≠ '-') (hp : c ≠ '+') :
    signed? base ((c :: cs).map DecimalDigit.toAscii) =
      (magnitude? base ((c :: cs).map DecimalDigit.toAscii)).map Int.ofNat := by
  rw [List.map_cons]
  refine signed?.eq_3 _ _ (fun rest he => ?_) fun rest he => ?_
  · exact hm ((DecimalDigit.toAscii_eq_iff (by decide)).mp (List.cons.inj he).1)
  · exact hp ((DecimalDigit.toAscii_eq_iff (by decide)).mp (List.cons.inj he).1)

theorem signed?_minus (base : Int) (cs : List Char) :
    signed? base (('-' :: cs).map DecimalDigit.toAscii) =
      (magnitude? base (cs.map DecimalDigit.toAscii)).map fun k : Nat => -(k : Int) := by
  have hm : DecimalDigit.toAscii '-' = '-' := rfl
  rw [List.map_cons, hm, signed?.eq_1]
  cases magnitude? base (cs.map DecimalDigit.toAscii) <;> rfl

theorem signed?_plus (base : Int) (cs : List Char) :
    signed? base (('+' :: cs).map DecimalDigit.toAscii) =
      (magnitude? base (cs.map DecimalDigit.toAscii)).map Int.ofNat :=
  rfl

theorem signed?_toAscii (hb : 2 ≤ base ∧ base ≤ 36) :
    signed? base (cs.map DecimalDigit.toAscii) = some n ↔ SignedIn base n cs := by
  constructor
  · intro h
    cases cs with
    | nil =>
      rw [List.map_nil, signed?.eq_3 _ _ (by simp) (by simp), ← List.map_nil] at h
      obtain ⟨k, hk, rfl⟩ := Option.map_eq_some_iff.mp h
      exact absurd rfl ((magnitude?_toAscii hb).mp hk).ne_nil
    | cons c cs =>
      by_cases hm : c = '-'
      · subst hm
        rw [signed?_minus] at h
        obtain ⟨k, hk, rfl⟩ := Option.map_eq_some_iff.mp h
        exact .minus ((magnitude?_toAscii hb).mp hk)
      by_cases hp : c = '+'
      · subst hp
        rw [signed?_plus] at h
        obtain ⟨k, hk, rfl⟩ := Option.map_eq_some_iff.mp h
        exact .plus ((magnitude?_toAscii hb).mp hk)
      rw [signed?_of_no_sign hm hp] at h
      obtain ⟨k, hk, rfl⟩ := Option.map_eq_some_iff.mp h
      exact .plain ((magnitude?_toAscii hb).mp hk)
  · intro h
    cases h with
    | @plain k cs h =>
      obtain ⟨c, cs, rfl⟩ := List.exists_cons_of_ne_nil h.ne_nil
      have hs {a : Char} (ha : DecimalDigit.value? a = none ∧ letterValue? a = none ∧ a ≠ '_') : c ≠ a := by
        rintro rfl
        rcases h.mem c List.mem_cons_self with hu | ⟨d, hd | hd⟩
        · exact ha.2.2 hu
        · rw [Decimal, ha.1] at hd
          cases hd
        · rw [ha.2.1] at hd
          cases hd
      rw [signed?_of_no_sign (hs ⟨rfl, rfl, by decide⟩) (hs ⟨rfl, rfl, by decide⟩),
        (magnitude?_toAscii hb).mpr h]
      rfl
    | plus h =>
      rw [signed?_plus, (magnitude?_toAscii hb).mpr h]
      rfl
    | minus h =>
      rw [signed?_minus, (magnitude?_toAscii hb).mpr h]
      rfl

theorem SignedIn.ne_nil (h : SignedIn base n cs) : cs ≠ [] := by
  cases h with
  | plain h => exact h.ne_nil
  | plus h | minus h => exact List.cons_ne_nil _ _

theorem SignedIn.not_blank (h : SignedIn base n cs) : ∀ c ∈ cs, Blank.isBlank c = false := by
  have hmagnitude {k : Nat} {cs : List Char} (h : MagnitudeIn base k cs) :
      ∀ c ∈ cs, Blank.isBlank c = false := by
    intro c hc
    rcases h.mem c hc with rfl | ⟨d, hd | hd⟩
    · rfl
    · exact Blank.isBlank_of_value? hd
    · exact isBlank_of_letterValue? hd
  cases h with
  | plain h => exact hmagnitude h
  | plus h | minus h => exact List.forall_mem_cons.mpr ⟨rfl, hmagnitude h⟩

/-- A text is read as an integer exactly if it is one of the written forms of that integer in the base. -/
theorem read?_eq_some_iff_writtenIn (hb : 2 ≤ base ∧ base ≤ 36) :
    read? base text = some n ↔ WrittenIn base n text := by
  rw [read?, signed?_toAscii hb]
  constructor
  · intro h
    obtain ⟨left, right, he, hl, hr⟩ := Blank.eq_append_strip text
    exact ⟨left, _, right, he, h, hl, hr⟩
  · rintro ⟨left, core, right, rfl, h, hl, hr⟩
    rwa [Blank.strip_append hl hr h.ne_nil h.not_blank]

theorem Spelled.length_le (h : Spelled Digit ds cs) : ds.length ≤ cs.length := by
  induction h with
  | last => exact Nat.le_refl 1
  | next h hs ih => exact Nat.succ_le_succ ih
  | parted h hs ih => exact Nat.le_succ_of_le (Nat.succ_le_succ ih)

theorem ofDigits_eq (base : Nat) (ds : List Nat) : ofDigits base ds = Nat.ofDigits base ds.reverse := by
  rw [Nat.ofDigits_eq_foldr, ofDigits, List.foldl_eq_foldr_reverse]
  simp only [Nat.add_comm, Nat.cast_id]

theorem ofDigits_lt (hb : 1 < base) (hd : ∀ d ∈ ds, d < base) : ofDigits base ds < base ^ ds.length := by
  rw [ofDigits_eq, ← List.length_reverse]
  exact Nat.ofDigits_lt_base_pow_length hb fun d hm => hd d (List.mem_reverse.mp hm)

theorem UnsignedIn.lt (hb : 1 < base) (h : UnsignedIn base k cs) : k < base ^ cs.length := by
  obtain ⟨ds, hs, -, rfl⟩ := h
  have hd : ∀ d ∈ ds, d < base := by
    intro d hm
    obtain ⟨c, hc⟩ := hs.digits d hm
    exact hc.1
  calc ofDigits base ds < base ^ ds.length := ofDigits_lt hb hd
    _ ≤ base ^ cs.length := Nat.pow_le_pow_right (by omega) hs.length_le

theorem MagnitudeIn.lt (hb : 1 < base) (h : MagnitudeIn base k cs) : k < base ^ cs.length := by
  have longer {short : Nat} (hk : k < base ^ short) (hl : short ≤ cs.length) : k < base ^ cs.length :=
    Nat.lt_of_lt_of_le hk (Nat.pow_le_pow_right (by omega) hl)
  cases h with
  | plain h => exact h.lt hb
  | marked _ _ h => exact longer (h.lt hb) (by simp only [List.length_cons]; omega)
  | parted _ _ h => exact longer (h.lt hb) (by simp only [List.length_cons]; omega)

theorem SignedIn.natAbs_lt (hb : 1 < base) (h : SignedIn base n cs) : n.natAbs < base ^ cs.length := by
  cases h with
  | plain h => simpa using h.lt hb
  | plus h | minus h =>
    rw [List.length_cons]
    simpa using Nat.lt_of_lt_of_le (h.lt hb) (Nat.pow_le_pow_right (by omega) (Nat.le_succ _))

theorem WrittenIn.natAbs_lt (hb : 1 < base) (h : WrittenIn base n text) : n.natAbs < base ^ text.length := by
  obtain ⟨left, core, right, rfl, h, -, -⟩ := h
  have hl : core.length ≤ (left ++ core ++ right).length := by
    simp only [List.length_append]
    omega
  exact Nat.lt_of_lt_of_le (h.natAbs_lt hb) (Nat.pow_le_pow_right (by omega) hl)

theorem WrittenIn.nonneg (h : WrittenIn base n text) (hl : text.length = 1) : 0 ≤ n := by
  obtain ⟨left, core, right, rfl, h, -, -⟩ := h
  simp only [List.length_append] at hl
  cases h with
  | plain h | plus h => exact Int.natCast_nonneg _
  | minus h =>
    have hne := List.length_pos_of_ne_nil h.ne_nil
    simp only [List.length_cons] at hl
    omega

end Numeral

end Chip8.Text
