import Chip8.Memory

namespace Chip8.Memory

variable {size : Nat}

/-- The bytes are those of `count` cells of the memory, the first of them at `location`. -/
structure Holds (m : Memory size) (location count : Int) (bytes : List UInt8) : Prop where
  inside : 0 ≤ location ∧ location + count ≤ size
  length_eq : (bytes.length : Int) = count
  getElem?_eq : ∀ k < bytes.length, bytes[k]? = m.cells[location.toNat + k]?

/-- How many bytes are handed out where the range is not refused. -/
def handedOut (size : Nat) (location count : Int) : Int :=
  if 0 ≤ count then count
  else if location + count < 0 then max (size + count) 0
  else 0

theorem Holds.unique {m : Memory size} {location count : Int} {bytes others : List UInt8}
    (h : m.Holds location count bytes) (h' : m.Holds location count others) : bytes = others := by
  have hl : bytes.length = others.length := by
    have := h.length_eq
    have := h'.length_eq
    omega
  apply List.ext_getElem?
  intro k
  by_cases hk : k < bytes.length
  · rw [h.getElem?_eq k hk, h'.getElem?_eq k (hl ▸ hk)]
  · rw [List.getElem?_eq_none (by omega), List.getElem?_eq_none (by omega)]

theorem holds_slice (m : Memory size) {location count : Int}
    (h : 0 ≤ location ∧ 0 ≤ count ∧ location + count ≤ size) :
    m.Holds location count (m.slice location (location + count)) := by
  obtain ⟨first, rfl⟩ := Int.eq_ofNat_of_zero_le h.1
  obtain ⟨n, rfl⟩ := Int.eq_ofNat_of_zero_le h.2.1
  have hl := @length_slice size m first n (by omega)
  refine ⟨⟨h.1, h.2.2⟩, by rw [hl], fun k hk => ?_⟩
  rw [hl] at hk
  exact m.getElem?_slice hk

theorem slice_of_neg (m : Memory size) (first : Int) {last : Int} (h : last < 0) :
    m.slice first last = m.slice first (max (last + size) 0) := by
  have hn : ¬ max (last + size) 0 < 0 := by omega
  have ht : (max (last + size) 0).toNat = (last + size).toNat := by omega
  simp only [slice, if_pos h, if_neg hn, ht]

theorem slice_of_le (m : Memory size) {first last : Int} (h0 : 0 ≤ last) (h : last ≤ first) :
    m.slice first last = [] := by
  have hn : ¬ last < 0 := by omega
  have hl : (m.slice first last).length = 0 := by
    simp only [slice, if_neg hn, Array.length_toList, Array.size_extract]
    omega
  exact List.length_eq_zero_iff.mp hl

theorem holds_nil (m : Memory size) {location : Int} (h : 0 ≤ location ∧ location ≤ size) :
    m.Holds location 0 [] :=
  ⟨⟨h.1, by omega⟩, rfl, fun _ hk => absurd hk (Nat.not_lt_zero _)⟩

/-- What is handed out always lies inside the memory, even where it is not what was asked for. -/
theorem InRange.holds_slice {m : Memory size} {location count : Int} (h : InRange size location count) :
    m.Holds location (handedOut size location count) (m.slice location (location + count)) := by
  obtain ⟨h0, hs⟩ := h
  unfold handedOut
  split
  case isTrue hc => exact m.holds_slice ⟨h0, hc, by omega⟩
  case isFalse hc =>
    split
    case isFalse hl =>
      rw [m.slice_of_le (by omega) (by omega)]
      exact m.holds_nil ⟨h0, by omega⟩
    case isTrue hl =>
      rw [m.slice_of_neg location hl]
      by_cases hn : 0 ≤ size + count
      · have he : max (location + count + size) 0 = location + (size + count) := by omega
        rw [Int.max_eq_left hn, he]
        exact m.holds_slice ⟨h0, hn, by omega⟩
      · rw [Int.max_eq_right (by omega), m.slice_of_le (by omega) (by omega)]
        exact m.holds_nil ⟨h0, by omega⟩

theorem readBlock_eq_error_iff (m : Memory size) {location count : Int} {e : OutOfRange} :
    m.readBlock location count = .error e ↔
      ¬ (0 ≤ location ∧ location + max count 1 ≤ size) ∧ e = ⟨location, count, size⟩ := by
  rw [readBlock]
  by_cases h : InRange size location count
  · rw [if_pos h]
    exact iff_of_false nofun fun hn => hn.1 h
  · rw [if_neg h, Except.error.injEq, eq_comm]
    exact (and_iff_right h).symm

theorem readBlock_eq_ok_iff (m : Memory size) {location count : Int} {block : List UInt8} :
    m.readBlock location count = .ok block ↔
      (0 ≤ location ∧ location + max count 1 ≤ size) ∧
        m.Holds location (handedOut size location count) block := by
  rw [readBlock]
  by_cases h : InRange size location count
  · rw [if_pos h, Except.ok.injEq]
    constructor
    · rintro rfl
      exact ⟨h, h.holds_slice⟩
    · rintro ⟨-, hb⟩
      exact h.holds_slice.unique hb
  · rw [if_neg h]
    exact iff_of_false nofun fun hb => h hb.1

/-- A block is refused or handed out with exactly as many bytes as were asked for, those of its own cells,
exactly unless the count is negative and the location names a cell. It is refused if it does not lie inside the
memory, where it counts for one byte at least. With a negative count the bytes handed out go on to an end that is
counted from the end of the memory, if the end asked for lies before its beginning, and there are none otherwise. -/
theorem read_exact_unless_negative (m : Memory size) (location count : Int) :
    ((∃ e, m.readBlock location count = .error e) ∨
        (∃ block, m.readBlock location count = .ok block ∧ m.Holds location count block) ↔
      ¬ (count < 0 ∧ 0 ≤ location ∧ location < size)) ∧
    (∀ e, m.readBlock location count = .error e ↔
      ¬ (0 ≤ location ∧ location + max count 1 ≤ size) ∧ e = ⟨location, count, size⟩) ∧
    ∀ block, m.readBlock location count = .ok block ↔
      (0 ≤ location ∧ location + max count 1 ≤ size) ∧
        m.Holds location (handedOut size location count) block := by
  refine ⟨?_, fun e => m.readBlock_eq_error_iff, fun block => m.readBlock_eq_ok_iff⟩
  simp only [readBlock_eq_error_iff, readBlock_eq_ok_iff]
  constructor
  · rintro (⟨e, hn, -⟩ | ⟨block, -, hb⟩)
    · omega
    · have := hb.length_eq
      omega
  · intro hn
    by_cases h : 0 ≤ location ∧ location + max count 1 ≤ size
    · have hc : handedOut size location count = count := if_pos (by omega)
      have hb : m.Holds location (handedOut size location count) _ := InRange.holds_slice h
      refine .inr ⟨_, ⟨h, hb⟩, ?_⟩
      rw [hc] at hb
      exact hb
    · exact .inl ⟨_, h, rfl⟩

/-- Three bytes that end before the end of the memory, where none can be asked for. -/
theorem negative_block_handed_out :
    ¬ ∀ (size : Nat) (m : Memory size) (location count : Int),
      (∃ e, m.readBlock location count = .error e) ∨
        ∃ block, m.readBlock location count = .ok block ∧ m.Holds location count block := by
  intro h
  let m := (zero 5).overlay 0 [1, 2, 3, 4, 5]
  have hr : m.readBlock 1 (-2) = .ok [2, 3, 4] := by rfl
  obtain ⟨e, he⟩ | ⟨block, hb, hh⟩ := h 5 m 1 (-2)
  · rw [hr] at he
    cases he
  · have := hh.length_eq
    omega

end Chip8.Memory
