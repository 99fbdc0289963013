import Chip8.Size
import Chip8.Text.Hex

namespace Chip8

/-- An access is checked end to end before any of it is read or written, so one that fails leaves every cell as it
was. -/
structure Memory (size : Nat) where
  cells : Vector UInt8 size
deriving DecidableEq

namespace Memory

structure OutOfRange where
  location : Int
  count : Int
  size : Nat
deriving DecidableEq

def OutOfRange.message (e : OutOfRange) : String :=
  "Access of " ++ toString e.count ++ " byte(s) at address 0x" ++ Text.Hex.ofInt 4 e.location ++
    " is outside RAM (0x0000-0x" ++ Text.Hex.ofInt 4 (e.size - 1) ++ ")"

inductive WriteError where
  | outOfRange (e : OutOfRange)
  | notAByte (value : Int)
deriving DecidableEq

inductive SizeError where
  | unfit (e : Size.Error)
  | negative (size : Int)
deriving DecidableEq

variable {size : Nat}

def zero (size : Nat) : Memory size :=
  ⟨Vector.replicate size 0⟩

/-- A memory of zeros. A number too wide for a size is refused as such, also below zero. -/
def ofSize (room size : Int) : Except SizeError (Memory size.toNat) :=
  match Size.error? room size with
  | some e => .error (.unfit e)
  | none => if size < 0 then .error (.negative size) else .ok (zero _)

def toList (m : Memory size) : List UInt8 :=
  m.cells.toList

/-- Even an empty access has to name a cell of the memory. -/
def InRange (size : Nat) (location count : Int) : Prop :=
  0 ≤ location ∧ location + max count 1 ≤ size

instance (size : Nat) (location count : Int) : Decidable (InRange size location count) :=
  inferInstanceAs (Decidable (_ ∧ _))

theorem InRange.toNat_lt {location count : Int} (h : InRange size location count) :
    location.toNat < size := by
  unfold InRange at h
  omega

def check (size : Nat) (location count : Int) : Except OutOfRange Unit :=
  if InRange size location count then .ok () else .error ⟨location, count, size⟩

def read (m : Memory size) (location : Int) : Except OutOfRange UInt8 :=
  if h : InRange size location 1 then .ok (m.cells.get ⟨location.toNat, h.toNat_lt⟩)
  else .error ⟨location, 1, size⟩

/-- The cells from `first` up to `last`; a negative `last` counts from the end of the memory. -/
def slice (m : Memory size) (first last : Int) : List UInt8 :=
  let stop := if last < 0 then last + size else last
  (m.cells.toArray.extract first.toNat stop.toNat).toList

theorem length_slice (m : Memory size) {first count : Nat} (h : first + count ≤ size) :
    (m.slice first (first + count)).length = count := by
  simp only [slice, Array.length_toList, Array.size_extract, Vector.size_toArray]
  split <;> omega

theorem getElem?_slice (m : Memory size) {first count k : Nat} (hk : k < count) :
    (m.slice first (first + count))[k]? = m.cells[first + k]? := by
  have hl : ¬ ((first : Int) + count < 0) := by omega
  simp only [slice, if_neg hl, Array.getElem?_toList]
  rw [Array.getElem?_extract]
  simp
  omega

theorem slice_eq (m : Memory size) {location last : Int} {block : List UInt8} (h0 : 0 ≤ location)
    (hl : last = location + block.length) (hs : last ≤ size)
    (h : ∀ k < block.length, m.cells[location.toNat + k]? = block[k]?) : m.slice location last = block := by
  obtain ⟨first, rfl⟩ := Int.eq_ofNat_of_zero_le h0
  subst hl
  apply List.ext_getElem?
  intro k
  by_cases hk : k < block.length
  · exact (m.getElem?_slice hk).trans (h k hk)
  · rw [List.getElem?_eq_none (by rw [m.length_slice (by omega)]; omega),
      List.getElem?_eq_none (by omega)]

def readBlock (m : Memory size) (location count : Int) : Except OutOfRange (List UInt8) :=
  if InRange size location count then .ok (m.slice location (location + count))
  else .error ⟨location, count, size⟩

/-- The address is judged before the value. -/
def write (m : Memory size) (location value : Int) : Except WriteError (Memory size) :=
  if h : InRange size location 1 then
    if 0 ≤ value ∧ value ≤ 255 then
      .ok ⟨m.cells.set location.toNat (UInt8.ofNat value.toNat) h.toNat_lt⟩
    else .error (.notAByte value)
  else .error (.outOfRange ⟨location, 1, size⟩)

def overlay (m : Memory size) (first : Nat) : List UInt8 → Memory size
  | [] => m
  | byte :: rest => overlay ⟨m.cells.setIfInBounds first byte⟩ (first + 1) rest

@[simp]
theorem getElem_overlay (m : Memory size) (first : Nat) (block : List UInt8) {a : Nat} (h : a < size) :
    (m.overlay first block).cells[a] =
      if first ≤ a then block.getD (a - first) m.cells[a] else m.cells[a] := by
  induction block generalizing m first with
  | nil => simp [overlay]
  | cons byte rest ih =>
    rw [overlay, ih, Vector.getElem_setIfInBounds]
    rcases Nat.lt_trichotomy a first with ha | rfl | ha
    · simp [Nat.not_le.mpr ha, Nat.ne_of_gt ha, show ¬ first + 1 ≤ a by omega]
    · simp [show ¬ a + 1 ≤ a by omega]
    · obtain ⟨k, rfl⟩ : ∃ k, a = first + 1 + k := ⟨a - (first + 1), by omega⟩
      simp [show first + 1 + k - first = k + 1 by omega, show ¬ first = first + 1 + k by omega,
        show first ≤ first + 1 + k by omega]

theorem getElem_overlay_of_outside (m : Memory size) (first : Nat) (block : List UInt8) {a : Nat}
    (h : a < size) (ho : a < first ∨ first + block.length ≤ a) :
    (m.overlay first block).cells[a] = m.cells[a] := by
  rw [getElem_overlay]
  split
  · rw [List.getD_eq_getElem?_getD, List.getElem?_eq_none (by omega), Option.getD_none]
  · rfl

theorem getElem_overlay_of_inside (m : Memory size) (first : Nat) (block : List UInt8) {k : Nat}
    (hk : k < block.length) (h : first + k < size) :
    (m.overlay first block).cells[first + k] = block[k] := by
  rw [getElem_overlay, if_pos (by omega), Nat.add_sub_cancel_left, List.getD_eq_getElem?_getD,
    List.getElem?_eq_getElem hk, Option.getD_some]

theorem getElem?_overlay (m : Memory size) {first : Nat} {block : List UInt8} {k : Nat}
    (hs : first + block.length ≤ size) (hk : k < block.length) :
    (m.overlay first block).cells[first + k]? = block[k]? := by
  rw [Vector.getElem?_eq_getElem (by omega), List.getElem?_eq_getElem hk,
    getElem_overlay_of_inside m first block hk (by omega)]

theorem getElem?_overlay_of_outside (m : Memory size) (first : Nat) (block : List UInt8) {a : Nat}
    (ho : a < first ∨ first + block.length ≤ a) : (m.overlay first block).cells[a]? = m.cells[a]? := by
  by_cases h : a < size
  · rw [Vector.getElem?_eq_getElem h, Vector.getElem?_eq_getElem h,
      getElem_overlay_of_outside m first block h ho]
  · rw [Vector.getElem?_eq_none (by omega), Vector.getElem?_eq_none (by omega)]

theorem getElem?_overlay_of_inside (m n : Memory size) {first : Nat} {block : List UInt8} {k : Nat}
    (hk : k < block.length) :
    (m.overlay first block).cells[first + k]? = (n.overlay first block).cells[first + k]? := by
  by_cases h : first + k < size
  · rw [Vector.getElem?_eq_getElem h, Vector.getElem?_eq_getElem h,
      getElem_overlay_of_inside m first block hk h, getElem_overlay_of_inside n first block hk h]
  · rw [Vector.getElem?_eq_none (by omega), Vector.getElem?_eq_none (by omega)]

def writeBlock (m : Memory size) (location : Int) (block : List UInt8) :
    Except OutOfRange (Memory size) :=
  if InRange size location block.length then .ok (m.overlay location.toNat block)
  else .error ⟨location, block.length, size⟩

@[simp]
theorem getElem_zero {a : Nat} (h : a < size) : (zero size).cells[a] = 0 := by
  simp [zero]

def clear (_ : Memory size) : Memory size :=
  zero size

end Memory

end Chip8
