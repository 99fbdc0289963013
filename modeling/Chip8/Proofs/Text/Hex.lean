import Mathlib.Algebra.GroupWithZero.Nat
import Chip8.Text.Hex

namespace Chip8.Text.Hex

def value (ds : List Char) : Nat :=
  ds.foldl (fun n c => 16 * n + (digit? c).getD 0) 0

theorem value_append_digit (ds : List Char) {d : Nat} (hd : d < 16) :
    value (ds ++ [Nat.digitChar d]) = 16 * value ds + d := by
  have h := digit?_digitChar ⟨d, hd⟩
  simp only at h
  simp [value, h]

/-- What holds of one digit, and goes on with each digit more, holds of the digits of every number. -/
theorem digits_induction {P : Nat → List Char → Prop} (one : ∀ d < 16, P d [Nat.digitChar d])
    (more : ∀ n d, d < 16 → P n (digits n) → P (16 * n + d) (digits n ++ [Nat.digitChar d])) (n : Nat) :
    P n (digits n) := by
  induction n using Nat.strongRecOn with
  | ind n ih =>
    by_cases hn : n < 16
    · rw [digits, Nat.toDigits_of_lt_base hn]
      exact one n hn
    · have h := more (n / 16) (n % 16) (by omega) (ih (n / 16) (by omega))
      rw [Nat.div_add_mod] at h
      rw [digits, Nat.toDigits_eq_if (by decide), if_neg hn]
      exact h

theorem value_digits (n : Nat) : value (digits n) = n := by
  refine digits_induction (P := fun n ds => value ds = n) ?_ ?_ n
  · intro d hd
    exact (value_append_digit [] hd).trans (Nat.zero_add d)
  · intro n d hd h
    rw [value_append_digit _ hd, h]

theorem value_fill (width : Nat) (ds : List Char) : value (fill width ds) = value ds := by
  have hz (k : Nat) : value (List.replicate k '0') = 0 := by
    induction k with
    | zero => rfl
    | succ k ih => exact ih
  rw [fill, value, List.foldl_append]
  exact congrArg (fun n => ds.foldl _ n) (hz _)

theorem toList_ofInt (width n : Nat) : (ofInt width n).toList = fill width (digits n) := by
  rw [ofInt, if_neg (by omega), String.toList_ofList, Int.natAbs_natCast]

theorem value_ofInt (width n : Nat) : value (ofInt width n).toList = n := by
  rw [toList_ofInt, value_fill, value_digits]

theorem length_ofInt {width n : Nat} (hw : 0 < width) (hn : n < 16 ^ width) :
    (ofInt width n).toList.length = width := by
  have h := (Nat.length_toDigits_le_iff (by decide) hw).mpr hn
  rw [toList_ofInt, fill, List.length_append, List.length_replicate, digits]
  omega

theorem isSome_digit?_of_mem_digits {n : Nat} : ∀ c ∈ digits n, (digit? c).isSome := by
  have hd {d : Nat} (hd : d < 16) : ∀ c ∈ [Nat.digitChar d], (digit? c).isSome := by
    intro c hc
    rw [List.mem_singleton.mp hc, digit?_digitChar ⟨d, hd⟩]
    rfl
  refine digits_induction (P := fun _ ds => ∀ c ∈ ds, (digit? c).isSome) (fun _ => hd) ?_ n
  intro n d hlt h c hc
  exact (List.mem_append.mp hc).elim (h c) (hd hlt c)

theorem isSome_digit?_of_mem {width n : Nat} {c : Char} (h : c ∈ (ofInt width n).toList) :
    (digit? c).isSome := by
  rw [toList_ofInt, fill] at h
  obtain h | h := List.mem_append.mp h
  · rw [List.eq_of_mem_replicate h]
    rfl
  · exact isSome_digit?_of_mem_digits c h

theorem toList_ofInt_of_neg {n : Int} (h : n < 0) (width : Nat) :
    (ofInt width n).toList = '-' :: (ofInt (width - 1) n.natAbs).toList := by
  rw [toList_ofInt, ofInt, if_pos h, String.toList_ofList]

theorem notMem_ofInt {c : Char} (hc : digit? c = none) (hm : c ≠ '-') (width : Nat) (n : Int) :
    c ∉ (ofInt width n).toList := by
  intro h
  suffices hd : (digit? c).isSome by
    rw [hc] at hd
    cases hd
  obtain hn | hn := Int.lt_or_le n 0
  · rw [toList_ofInt_of_neg hn] at h
    exact isSome_digit?_of_mem ((List.mem_cons.mp h).resolve_left hm)
  · obtain ⟨k, rfl⟩ := Int.eq_ofNat_of_zero_le hn
    exact isSome_digit?_of_mem h

theorem notMem_ofBytes {c : Char} (hc : digit? c = none) (hm : c ≠ '-') (bytes : List UInt8) :
    c ∉ (ofBytes bytes).toList := by
  intro h
  rw [ofBytes, String.toList_join] at h
  obtain ⟨text, ht, hmem⟩ := List.mem_flatMap.mp h
  obtain ⟨byte, -, rfl⟩ := List.mem_map.mp ht
  exact notMem_ofInt hc hm 2 byte.toNat hmem

/-- Integers of the same text are the same, however wide they are. -/
theorem ofInt_inj {width : Nat} {a b : Int} : ofInt width a = ofInt width b ↔ a = b := by
  refine ⟨fun h => ?_, congrArg _⟩
  have hminus {k width : Nat} : '-' ∉ (ofInt width k).toList := fun hm =>
    absurd (isSome_digit?_of_mem hm) (by decide)
  have hl := congrArg String.toList h
  obtain ha | ha := Int.lt_or_le a 0 <;> obtain hb | hb := Int.lt_or_le b 0
  · rw [toList_ofInt_of_neg ha, toList_ofInt_of_neg hb, List.cons.injEq] at hl
    have hv := congrArg value hl.2
    rw [value_ofInt, value_ofInt] at hv
    omega
  · obtain ⟨k, rfl⟩ := Int.eq_ofNat_of_zero_le hb
    rw [toList_ofInt_of_neg ha] at hl
    exact absurd (hl ▸ List.mem_cons_self) hminus
  · obtain ⟨k, rfl⟩ := Int.eq_ofNat_of_zero_le ha
    rw [toList_ofInt_of_neg hb] at hl
    exact absurd (hl ▸ List.mem_cons_self) hminus
  · obtain ⟨j, rfl⟩ := Int.eq_ofNat_of_zero_le ha
    obtain ⟨k, rfl⟩ := Int.eq_ofNat_of_zero_le hb
    have hv := congrArg value hl
    rw [value_ofInt, value_ofInt] at hv
    exact congrArg Int.ofNat hv

theorem ofBytes_inj {a b : List UInt8} : ofBytes a = ofBytes b ↔ a = b := by
  refine ⟨fun h => ?_, congrArg _⟩
  have hb := congrArg (fun text => bytes? text.toList) h
  simp only [bytes?_ofBytes] at hb
  exact Option.some.inj hb

end Chip8.Text.Hex
