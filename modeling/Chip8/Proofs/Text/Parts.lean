import Mathlib.Data.List.Basic

namespace Chip8.Text

def parts (c : Char) (text : String) : List String :=
  (text.toList.splitOn c).map String.ofList

def lines (text : String) : List String :=
  parts '\n' text

def words (line : String) : List String :=
  parts ' ' line

variable {c : Char} {text : String}

theorem parts_of_notMem (h : c ∉ text.toList) : parts c text = [text] := by
  rw [parts, List.splitOn_eq_singleton h, List.map_singleton, String.ofList_toList]

/-- Texts without the character are told apart, whatever follows them. -/
theorem parts_intercalate_concat {front : List String} (h : ∀ part ∈ front, c ∉ part.toList)
    (last : String) :
    parts c ((String.singleton c).intercalate (front ++ [last])) = front ++ parts c last := by
  induction front with
  | nil => rw [List.nil_append, List.nil_append, String.intercalate_singleton]
  | cons part front ih =>
    obtain ⟨hp, hf⟩ := List.forall_mem_cons.mp h
    rw [List.cons_append, String.intercalate_cons_of_ne_nil (by simp), parts, String.toList_append,
      String.toList_append, String.toList_singleton, List.append_assoc, List.singleton_append,
      List.splitOn_append_cons_self_of_not_mem hp, List.map_cons, String.ofList_toList, List.cons_append]
    exact congrArg (part :: ·) (ih hf)

theorem parts_intercalate {all : List String} (hne : all ≠ []) (h : ∀ part ∈ all, c ∉ part.toList) :
    parts c ((String.singleton c).intercalate all) = all := by
  have hall : all.dropLast ++ [all.getLast hne] = all := List.dropLast_append_getLast hne
  have hfront : ∀ part ∈ all.dropLast, c ∉ part.toList := fun part hp =>
    h part (List.dropLast_subset all hp)
  have hparts := parts_intercalate_concat hfront (all.getLast hne)
  rw [parts_of_notMem (h _ (List.getLast_mem hne)), hall] at hparts
  exact hparts

theorem notMem_intercalate {between : String} {all : List String} (hb : c ∉ between.toList)
    (h : ∀ part ∈ all, c ∉ part.toList) : c ∉ (between.intercalate all).toList := by
  induction all with
  | nil => simp
  | cons part all ih =>
    obtain ⟨hp, ha⟩ := List.forall_mem_cons.mp h
    cases all with
    | nil =>
      rw [String.intercalate_singleton]
      exact hp
    | cons next rest =>
      rw [String.intercalate_cons_of_ne_nil (by simp)]
      simpa [hp, hb] using ih ha

theorem notMem_toString (hc : c.isDigit = false) (n : Nat) : c ∉ (toString n).toList := by
  intro h
  rw [Nat.toString_eq_repr, Nat.repr, String.toList_ofList] at h
  exact absurd (Nat.isDigit_of_mem_toDigits (by decide) (by decide) h) (by rw [hc]; decide)

end Chip8.Text
