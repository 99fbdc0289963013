import Chip8.Memory
import Chip8.Proofs.LastOf

namespace Chip8.Memory

inductive Call where
  | read (location : Int)
  | readBlock (location : Int) (count : Nat)
  | write (location : Int) (byte : UInt8)
  | writeBlock (location : Int) (block : List UInt8)
  | clear
deriving DecidableEq

variable {size : Nat}

def perform : Call → EStateM WriteError (Memory size) (List UInt8)
  | .read location => fun m =>
    match m.read location with
    | .ok byte => .ok [byte] m
    | .error e => .error (.outOfRange e) m
  | .readBlock location count => fun m =>
    match m.readBlock location count with
    | .ok block => .ok block m
    | .error e => .error (.outOfRange e) m
  | .write location byte => fun m =>
    match m.write location byte.toNat with
    | .ok t => .ok [] t
    | .error e => .error e m
  | .writeBlock location block => fun m =>
    match m.writeBlock location block with
    | .ok t => .ok [] t
    | .error e => .error (.outOfRange e) m
  | .clear => fun m => .ok [] m.clear

def performed (m : Memory size) (c : Call) : Memory size :=
  match perform c m with
  | .ok _ t => t
  | .error _ t => t

def after (m : Memory size) (calls : List Call) : Memory size :=
  calls.foldl performed m

namespace Call

/-- Where a call begins and how many bytes it is about. Clearing names no place. -/
def access? : Call → Option (Int × Nat)
  | read location => some (location, 1)
  | readBlock location count => some (location, count)
  | write location _ => some (location, 1)
  | writeBlock location block => some (location, block.length)
  | clear => none

def isRead : Call → Bool
  | read _ | readBlock _ _ => true
  | _ => false

/-- The call succeeds on a memory of `size` bytes and stores this byte in the cell `a`. -/
def Stores (size a : Nat) : Call → UInt8 → Prop
  | write location stored, byte => location = a ∧ a < size ∧ stored = byte
  | writeBlock location block, byte => 0 ≤ location ∧ location + block.length ≤ size ∧
      ∃ k : Nat, location + k = a ∧ block[k]? = some byte
  | _, _ => False

def Settles (size a : Nat) (c : Call) : Prop :=
  c = clear ∨ ∃ byte, c.Stores size a byte

def refusal? (size : Nat) (c : Call) : Option OutOfRange :=
  match c.access? with
  | none => none
  | some (location, count) =>
    if InRange size location count then none else some ⟨location, count, size⟩

def handed (m : Memory size) : Call → List UInt8
  | read location => m.slice location (location + 1)
  | readBlock location count => m.slice location (location + count)
  | _ => []

def left (m : Memory size) : Call → Memory size
  | write location byte => m.overlay location.toNat [byte]
  | writeBlock location block => m.overlay location.toNat block
  | clear => zero size
  | _ => m

end Call

/-- After these calls on a memory of zeros the byte in the cell `a` is the one that was stored there last, or
zero if there is none since the start or since the memory was cleared last. -/
inductive Latest (size a : Nat) : List Call → UInt8 → Prop where
  | stored {before later : List Call} {c : Call} {byte : UInt8} (hc : c.Stores size a byte)
      (hl : ∀ d ∈ later, ¬ d.Settles size a) : Latest size a (before ++ c :: later) byte
  | cleared {before later : List Call} (hl : ∀ d ∈ later, ¬ d.Settles size a) :
      Latest size a (before ++ .clear :: later) 0
  | never {calls : List Call} (hl : ∀ d ∈ calls, ¬ d.Settles size a) : Latest size a calls 0

/-- The memory answers its next call by what these calls have stored in it. -/
structure Answers (calls : List Call) (m : Memory size) : Prop where
  /-- Even a call about no bytes at all has to name a cell. -/
  succeeds : ∀ (c : Call) (location : Int) (count : Nat), c.access? = some (location, count) →
    ((∃ bytes t, perform c m = .ok bytes t) ↔ 0 ≤ location ∧ location + max (count : Int) 1 ≤ size)
  reads : ∀ (c : Call) (location : Int) (count : Nat) (bytes : List UInt8) (t : Memory size),
    c.isRead = true → c.access? = some (location, count) → perform c m = .ok bytes t →
      t = m ∧ bytes.length = count ∧
        ∀ k < count, ∀ byte, bytes[k]? = some byte ↔ Latest size (location.toNat + k) calls byte
  fails : ∀ (c : Call) (e : WriteError) (t : Memory size), perform c m = .error e t → t = m ∧
    ∃ location count, c.access? = some (location, count) ∧ e = .outOfRange ⟨location, count, size⟩
  length_eq : m.toList.length = size

theorem slice_one (m : Memory size) {location : Int} (h : InRange size location 1) :
    m.slice location (location + 1) = [m.cells.get ⟨location.toNat, h.toNat_lt⟩] := by
  obtain ⟨a, rfl⟩ := Int.eq_ofNat_of_zero_le h.1
  have ha : a < size := h.toNat_lt
  refine m.slice_eq (by omega) (by simp) (by omega) ?_
  simp [ha, Vector.get]

theorem write_byte (m : Memory size) (location : Int) (byte : UInt8) :
    m.write location byte.toNat =
      if InRange size location 1 then .ok (m.overlay location.toNat [byte])
      else .error (.outOfRange ⟨location, 1, size⟩) := by
  have hb : 0 ≤ (byte.toNat : Int) ∧ (byte.toNat : Int) ≤ 255 := by
    have := byte.toNat_lt
    omega
  rw [write]
  by_cases h : InRange size location 1
  · rw [dif_pos h, if_pos h, if_pos hb]
    simp [overlay, Vector.setIfInBounds, Vector.set, Array.setIfInBounds, h.toNat_lt]
  · rw [dif_neg h, if_neg h]

/-- A call either is refused, with the memory left alone, or does all that it has to do. -/
theorem perform_eq (c : Call) (m : Memory size) :
    perform c m = match c.refusal? size with
      | some e => .error (.outOfRange e) m
      | none => .ok (c.handed m) (c.left m) := by
  cases c with
  | read location =>
    by_cases h : InRange size location 1
    · simp only [perform, read, Call.refusal?, Call.access?, dif_pos h, Int.natCast_one, if_pos h,
        Call.handed, slice_one m h, Call.left]
    · simp only [perform, read, Call.refusal?, Call.access?, dif_neg h, Int.natCast_one, if_neg h]
  | readBlock location count =>
    by_cases h : InRange size location count
    · simp only [perform, readBlock, Call.refusal?, Call.access?, if_pos h, Call.handed, Call.left]
    · simp only [perform, readBlock, Call.refusal?, Call.access?, if_neg h]
  | write location byte =>
    by_cases h : InRange size location 1
    · simp only [perform, write_byte, Call.refusal?, Call.access?, Int.natCast_one, if_pos h,
        Call.handed, Call.left]
    · simp only [perform, write_byte, Call.refusal?, Call.access?, Int.natCast_one, if_neg h]
  | writeBlock location block =>
    by_cases h : InRange size location block.length
    · simp only [perform, writeBlock, Call.refusal?, Call.access?, if_pos h, Call.handed, Call.left]
    · simp only [perform, writeBlock, Call.refusal?, Call.access?, if_neg h]
  | clear => rfl

section Step

variable {m : Memory size} {c : Call} {a : Nat} {byte : UInt8}

theorem performed_eq (m : Memory size) (c : Call) :
    m.performed c = match c.refusal? size with
      | some _ => m
      | none => c.left m := by
  rw [performed, perform_eq]
  cases c.refusal? size <;> rfl

theorem Call.inRange_of_refusal? {location : Int} {count : Nat} (ha : c.access? = some (location, count))
    (hr : c.refusal? size = none) : InRange size location count := by
  simp only [refusal?, ha] at hr
  split at hr
  · assumption
  · cases hr

theorem getElem?_performed_of_stores (h : c.Stores size a byte) :
    (m.performed c).cells[a]? = some byte := by
  rw [performed_eq]
  cases c with
  | write location stored =>
    obtain ⟨rfl, ha, rfl⟩ := h
    have hr : (Call.write a stored).refusal? size = none :=
      if_pos (show InRange size a 1 from ⟨by omega, by omega⟩)
    rw [hr]
    exact @getElem?_overlay size m a [stored] 0 ha Nat.zero_lt_one
  | writeBlock location block =>
    obtain ⟨h0, hs, k, hk, hb⟩ := h
    obtain ⟨first, rfl⟩ := Int.eq_ofNat_of_zero_le h0
    obtain ⟨hl, -⟩ := List.getElem?_eq_some_iff.mp hb
    obtain rfl : first + k = a := by omega
    have hr : (Call.writeBlock first block).refusal? size = none :=
      if_pos (show InRange size first block.length from ⟨by omega, by omega⟩)
    rw [hr]
    exact (m.getElem?_overlay (by omega) hl).trans hb
  | read | readBlock | clear => cases h

theorem getElem?_performed_clear (h : a < size) : (m.performed .clear).cells[a]? = some 0 := by
  rw [Vector.getElem?_eq_getElem h]
  exact congrArg some (getElem_zero h)

theorem getElem?_performed_of_not_settles (h : ¬ c.Settles size a) :
    (m.performed c).cells[a]? = m.cells[a]? := by
  have hs : ∀ byte, ¬ c.Stores size a byte := fun byte hb => h (.inr ⟨byte, hb⟩)
  rw [performed_eq]
  cases hc : c.refusal? size with
  | some e => rfl
  | none =>
    cases c with
    | read | readBlock => rfl
    | clear => exact absurd (.inl rfl) h
    | write location byte =>
      have hr := Call.inRange_of_refusal? rfl hc
      obtain ⟨first, rfl⟩ := Int.eq_ofNat_of_zero_le hr.1
      by_cases he : a = first
      · exact absurd ⟨congrArg Int.ofNat he.symm, he ▸ hr.toNat_lt, rfl⟩ (hs byte)
      · exact m.getElem?_overlay_of_outside first [byte] (by rw [List.length_singleton]; omega)
    | writeBlock location block =>
      have hr := Call.inRange_of_refusal? rfl hc
      obtain ⟨first, rfl⟩ := Int.eq_ofNat_of_zero_le hr.1
      by_cases hi : first ≤ a ∧ a < first + block.length
      · have hk : a - first < block.length := by omega
        have hl := hr.2
        have hb : (Call.writeBlock first block).Stores size a block[a - first] :=
          ⟨by omega, by omega, a - first, by omega, List.getElem?_eq_getElem hk⟩
        exact absurd hb (hs _)
      · exact m.getElem?_overlay_of_outside first block (by omega)

end Step

section Run

variable {m : Memory size} {calls : List Call} {a : Nat} {byte : UInt8}

theorem after_append (m : Memory size) (before later : List Call) :
    m.after (before ++ later) = (m.after before).after later :=
  List.foldl_append

theorem getElem?_after_of_not_settles (h : ∀ c ∈ calls, ¬ c.Settles size a) :
    (m.after calls).cells[a]? = m.cells[a]? := by
  induction calls generalizing m with
  | nil => rfl
  | cons c calls ih =>
    have hc := ih (m := m.performed c) fun d hd => h d (List.mem_cons_of_mem _ hd)
    exact hc.trans (getElem?_performed_of_not_settles (h c List.mem_cons_self))

theorem getElem?_after_of_latest (ha : a < size) (h : Latest size a calls byte) :
    ((zero size).after calls).cells[a]? = some byte := by
  cases h with
  | stored hc hl =>
    rw [after_append]
    exact (getElem?_after_of_not_settles hl).trans (getElem?_performed_of_stores hc)
  | cleared hl =>
    rw [after_append]
    exact (getElem?_after_of_not_settles hl).trans (getElem?_performed_clear ha)
  | never hl =>
    rw [getElem?_after_of_not_settles hl, Vector.getElem?_eq_getElem ha, getElem_zero]

theorem exists_latest (size a : Nat) (calls : List Call) : ∃ byte, Latest size a calls byte := by
  by_cases hs : ∃ c ∈ calls, c.Settles size a
  · obtain ⟨before, c, later, rfl, hc, -, hl⟩ := exists_last hs
    obtain rfl | ⟨byte, hb⟩ := hc
    · exact ⟨0, .cleared hl⟩
    · exact ⟨byte, .stored hb hl⟩
  · exact ⟨0, .never fun c hc hd => hs ⟨c, hc, hd⟩⟩

theorem latest_iff (ha : a < size) :
    Latest size a calls byte ↔ ((zero size).after calls).cells[a]? = some byte := by
  refine ⟨getElem?_after_of_latest ha, fun h => ?_⟩
  obtain ⟨latest, hl⟩ := exists_latest size a calls
  rw [getElem?_after_of_latest ha hl, Option.some.injEq] at h
  exact h ▸ hl

end Run

theorem perform_of_access {c : Call} {location : Int} {count : Nat} (m : Memory size)
    (ha : c.access? = some (location, count)) :
    perform c m = if InRange size location count then .ok (c.handed m) (c.left m)
      else .error (.outOfRange ⟨location, count, size⟩) m := by
  simp only [perform_eq, Call.refusal?, ha]
  by_cases h : InRange size location count
  · simp only [if_pos h]
  · simp only [if_neg h]

theorem handed_of_read {c : Call} {location : Int} {count : Nat} (m : Memory size) (hr : c.isRead = true)
    (ha : c.access? = some (location, count)) (h : InRange size location count) :
    c.left m = m ∧ (c.handed m).length = count ∧
      ∀ k < count, (c.handed m)[k]? = m.cells[location.toNat + k]? := by
  obtain ⟨first, rfl⟩ := Int.eq_ofNat_of_zero_le h.1
  have hl := h.2
  have hb : c.handed m = m.slice first (first + count) ∧ c.left m = m := by
    cases c with
    | read | readBlock =>
      cases ha
      exact ⟨rfl, rfl⟩
    | write | writeBlock | clear => cases hr
  rw [hb.1, hb.2, m.length_slice (by omega)]
  exact ⟨rfl, rfl, fun k hk => m.getElem?_slice hk⟩

theorem ofSize_eq_ok_iff {room n : Int} {m : Memory n.toNat} :
    ofSize room n = .ok m ↔ 0 ≤ n ∧ n < 0x8000000000000000 ∧ n ≤ room ∧ m = zero n.toNat := by
  rw [ofSize]
  split
  · next he =>
    have hne : Size.error? room n ≠ none := by simp [he]
    rw [ne_eq, Size.error?_eq_none_iff] at hne
    refine iff_of_false nofun fun h => hne ⟨by omega, h.2.1, h.2.2.1⟩
  · next he =>
    obtain ⟨-, hlt, hle⟩ := Size.error?_eq_none_iff.mp he
    split
    · exact iff_of_false nofun fun h => by omega
    · rw [Except.ok.injEq, eq_comm]
      exact ⟨fun hm => ⟨by omega, hlt, hle, hm⟩, fun h => h.2.2.2⟩

theorem perform_isOk_iff {c : Call} {location : Int} {count : Nat} (m : Memory size)
    (ha : c.access? = some (location, count)) :
    (∃ bytes t, perform c m = .ok bytes t) ↔ InRange size location count := by
  rw [perform_of_access m ha]
  by_cases h : InRange size location count
  · rw [if_pos h]
    exact ⟨fun _ => h, fun _ => ⟨_, _, rfl⟩⟩
  · rw [if_neg h]
    refine ⟨?_, fun h' => absurd h' h⟩
    rintro ⟨bytes, t, hp⟩
    cases hp

theorem perform_error {c : Call} {m t : Memory size} {e : WriteError} (h : perform c m = .error e t) :
    t = m ∧ ∃ location count, c.access? = some (location, count) ∧ e = .outOfRange ⟨location, count, size⟩ := by
  cases ha : c.access? with
  | none =>
    simp only [perform_eq, Call.refusal?, ha] at h
    cases h
  | some access =>
    obtain ⟨location, count⟩ := access
    rw [perform_of_access m ha] at h
    split at h
    · cases h
    · cases h
      exact ⟨rfl, location, count, rfl, rfl⟩

/-- A new memory of any size that there is room for holds zeros, and whatever calls a memory has answered and refused since, the next one
succeeds if the bytes that it is about lie inside the memory. What is read is then that many bytes, each the one
that was stored last in its cell. A call that fails is refused as out of range and changes nothing. -/
theorem read_last_stored :
    (∀ room n m, ofSize room n = .ok m ↔
      0 ≤ n ∧ n < 0x8000000000000000 ∧ n ≤ room ∧ m = zero n.toNat) ∧
    ∀ (size : Nat) (calls : List Call), ((zero size).after calls).Answers calls := by
  refine ⟨fun room n m => ofSize_eq_ok_iff, fun size calls => ?_⟩
  exact {
    succeeds := fun c location count ha => perform_isOk_iff _ ha
    reads := by
      intro c location count bytes t hr ha hp
      have h := (perform_isOk_iff _ ha).mp ⟨bytes, t, hp⟩
      obtain ⟨hl, hc, hk⟩ := handed_of_read ((zero size).after calls) hr ha h
      rw [perform_of_access _ ha, if_pos h] at hp
      cases hp
      refine ⟨hl, hc, fun k hlt byte => ?_⟩
      have hi : location.toNat + k < size := by
        have := h.1
        have := h.2
        omega
      rw [hk k hlt, latest_iff hi]
    fails := fun c e t hp => perform_error hp
    length_eq := Vector.length_toList }

theorem read_last_stored_overlapping :
    let calls : List Call := [.writeBlock 1 [7, 8, 9], .write 4 1, .writeBlock 2 [5], .writeBlock 3 [6, 6]]
    ∃ start : Memory 4, ofSize 4 4 = .ok start ∧
      (∃ bytes, perform (.readBlock 0 4) (start.after calls) = .ok bytes (start.after calls) ∧ bytes.length = 4 ∧
        bytes[0]? = some 0 ∧ bytes[2]? = some 5) ∧
      perform (.readBlock 4 0) (start.after calls) = .error (.outOfRange ⟨4, 0, 4⟩) (start.after calls) := by
  intro calls
  obtain ⟨start, hn⟩ : ∃ start : Memory 4, ofSize 4 4 = .ok start := ⟨zero 4, rfl⟩
  obtain ⟨-, -, -, hz⟩ := (read_last_stored.1 4 4 start).mp hn
  have h : (start.after calls).Answers calls := hz ▸ read_last_stored.2 4 calls
  obtain ⟨bytes, t, hp⟩ := (h.succeeds (.readBlock 0 4) 0 4 rfl).mpr (by decide)
  obtain ⟨rfl, hl, hk⟩ := h.reads _ 0 4 bytes t rfl rfl hp
  -- nothing is stored in the first cell, and the third call is the last to store in the third
  have hfirst : Latest 4 0 calls 0 := by
    refine .never ?_
    simp only [calls, List.forall_mem_cons, List.not_mem_nil, Call.Settles, Call.Stores]
    grind
  have hthird : Latest 4 2 calls 5 :=
    @Latest.stored 4 2 [.writeBlock 1 [7, 8, 9], .write 4 1] [.writeBlock 3 [6, 6]] (.writeBlock 2 [5]) 5
      ⟨by decide, by decide, 0, rfl, rfl⟩ (by simp [Call.Settles, Call.Stores])
  refine ⟨start, hn, ⟨bytes, hp, hl, (hk 0 (by decide) 0).mpr hfirst, (hk 2 (by decide) 5).mpr hthird⟩, ?_⟩
  cases hr : perform (.readBlock 4 0) (start.after calls) with
  | ok bytes t =>
    have hs := (h.succeeds (.readBlock 4 0) 4 0 rfl).mp ⟨bytes, t, hr⟩
    exact absurd hs (by decide)
  | error e t =>
    obtain ⟨rfl, location, count, ha, rfl⟩ := h.fails _ e t hr
    cases ha
    rfl

end Chip8.Memory
