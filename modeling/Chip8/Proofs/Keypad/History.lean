import Chip8.Proofs.Keypad.Snapshot
import Chip8.Proofs.LastOf

namespace Chip8.Keypad

inductive Call where
  | setKeys (snapshot : List Reading)
  | press (key : Int)
  | release (key : Int)
  | releaseAll
deriving DecidableEq

def answer (k : Keypad) : Call → Except Error Keypad
  | .setKeys snapshot => k.setKeys snapshot
  | .press key => k.press key
  | .release key => k.release key
  | .releaseAll => .ok released

def perform (c : Call) : EStateM Error Keypad Unit := fun k =>
  match k.answer c with
  | .ok t => .ok () t
  | .error e => .error e k

def performed (k : Keypad) (c : Call) : Keypad :=
  match perform c k with
  | .ok _ t => t
  | .error _ t => t

def after (k : Keypad) (calls : List Call) : Keypad :=
  calls.foldl performed k

namespace Call

/-- The call succeeds and settles whether the key is pressed. -/
def Covers (key : Fin 16) : Call → Prop
  | setKeys snapshot => snapshot.length = 16
  | press other | release other => other = key.val
  | releaseAll => True

def Presses (key : Fin 16) : Call → Prop
  | setKeys snapshot =>
    ∃ r, snapshot[key.val]? = some r ∧ r ≠ .absent ∧ r ≠ .flag false ∧ r ≠ .level 0
  | press _ => True
  | release _ | releaseAll => False

def Refused (e : Error) : Call → Prop
  | setKeys snapshot => snapshot.length ≠ 16 ∧ e = .wrongCount
  | press key | release key => ¬ (0 ≤ key ∧ key ≤ 15) ∧ e = .noSuchKey key
  | releaseAll => False

end Call

/-- The keypad answers by what these calls have told it. -/
structure Answers (calls : List Call) (k : Keypad) : Prop where
  cells : k.keys.toList.length = 16 ∧ ∀ down ∈ k.keys.toList, down.toNat = 0 ∨ down.toNat = 1
  /-- Whether a call is refused does not depend on the calls before it. -/
  refuses : ∀ (c : Call) (e : Error) (t : Keypad), perform c k = .error e t ↔ c.Refused e ∧ t = k
  asks : ∀ (key : Int) (e : Error),
    k.isPressed key = .error e ↔ ¬ (0 ≤ key ∧ key ≤ 15) ∧ e = .noSuchKey key
  pressed : ∀ key : Fin 16, ∃ down, k.isPressed key.val = .ok down ∧
    (down = true ↔ LastOf (Call.Covers key) (Call.Presses key) calls)
  /-- The lowest of the keys that are pressed. -/
  first : ∀ key : Fin 16, k.firstPressed = some key ↔
    k.isPressed key.val = .ok true ∧ ∀ lower < key, k.isPressed lower.val = .ok false
  first_none : k.firstPressed = none ↔ ∀ key : Fin 16, k.isPressed key.val = .ok false

variable {k : Keypad} {c : Call} {calls : List Call} {key : Fin 16}

theorem Reading.pressed_iff {r : Reading} :
    r.pressed = true ↔ r ≠ .absent ∧ r ≠ .flag false ∧ r ≠ .level 0 := by
  cases r <;> simp [pressed]

theorem isPressed_key (k : Keypad) (key : Fin 16) : k.isPressed key.val = .ok (k.keys.get key) :=
  isPressed_eq_ok_iff.mpr ⟨key, rfl, rfl⟩

theorem answer_eq_error_iff {e : Error} : k.answer c = .error e ↔ c.Refused e := by
  cases c with
  | setKeys snapshot =>
    by_cases h : snapshot.length = 16
    · simp [answer, setKeys, Call.Refused, h]
    · simp [answer, setKeys, Call.Refused, h, eq_comm]
  | press key | release key => exact map_checkKey_eq_error_iff
  | releaseAll => simp [answer, Call.Refused]

theorem perform_eq_error_iff {e : Error} {t : Keypad} : perform c k = .error e t ↔ c.Refused e ∧ t = k := by
  rw [← answer_eq_error_iff (k := k), perform]
  cases k.answer c with
  | ok t' => simp
  | error e' => simp [eq_comm]

theorem performed_of_ok {t : Keypad} (h : k.answer c = .ok t) : k.performed c = t := by
  rw [performed, perform, h]

theorem performed_of_error {e : Error} (h : k.answer c = .error e) : k.performed c = k := by
  rw [performed, perform, h]

theorem performed_setKeys (k : Keypad) (snapshot : List Reading) :
    k.performed (.setKeys snapshot) = k.offered snapshot := by
  rw [offered]
  cases h : k.setKeys snapshot with
  | ok t => exact performed_of_ok h
  | error e => exact performed_of_error h

/-- A call about one key, refused unless there is such a key, decides over this key alone. -/
theorem get_performed_of_map {f : Fin 16 → Keypad} {other : Int} {down : Bool}
    (hc : k.answer c = (checkKey other).map f)
    (hf : ∀ i : Fin 16, (f i).keys.get key = if i.val = key.val then down else k.keys.get key) :
    (k.performed c).keys.get key = if other = key.val then down else k.keys.get key := by
  cases h : checkKey other with
  | error e =>
    have hn : other ≠ key.val := fun he => by simp [checkKey_eq_ok_iff.mpr he] at h
    rw [h] at hc
    rw [performed_of_error hc, if_neg hn]
  | ok i =>
    rw [h] at hc
    rw [performed_of_ok (t := f i) hc, hf, checkKey_eq_ok_iff.mp h]
    simp only [Int.natCast_inj]

theorem get_performed_press (k : Keypad) (other : Int) (key : Fin 16) :
    (k.performed (.press other)).keys.get key = if other = key.val then true else k.keys.get key :=
  get_performed_of_map rfl fun i => Vector.getElem_set i.isLt key.isLt

theorem get_performed_release (k : Keypad) (other : Int) (key : Fin 16) :
    (k.performed (.release other)).keys.get key = if other = key.val then false else k.keys.get key :=
  get_performed_of_map rfl fun i => Vector.getElem_set i.isLt key.isLt

/-- A call that covers a key decides over it, and any other leaves it alone. -/
theorem get_performed_iff :
    (k.performed c).keys.get key = true ↔
      c.Covers key ∧ c.Presses key ∨ k.keys.get key = true ∧ ¬ c.Covers key := by
  cases c with
  | setKeys snapshot =>
    by_cases h : snapshot.length = 16
    · rw [performed_setKeys, ← Option.some_inj, get_offered h]
      simp [Call.Covers, Call.Presses, h, Reading.pressed_iff]
    · have hr : k.answer (.setKeys snapshot) = .error .wrongCount := answer_eq_error_iff.mpr ⟨h, rfl⟩
      simp [performed_of_error hr, Call.Covers, h]
  | press other | release other =>
    simp only [get_performed_press, get_performed_release]
    by_cases h : other = key.val <;> simp [Call.Covers, Call.Presses, h]
  | releaseAll =>
    have hr : (k.performed .releaseAll).keys.get key = false := Vector.getElem_replicate key.isLt
    simp [hr, Call.Covers, Call.Presses]

theorem get_after_iff :
    (k.after calls).keys.get key = true ↔
      LastOf (Call.Covers key) (Call.Presses key) calls ∨
        k.keys.get key = true ∧ ∀ c ∈ calls, ¬ c.Covers key := by
  -- over any keypad, since the calls after the first find what it has left
  induction calls generalizing k with
  | nil => simp [after, not_lastOf_nil]
  | cons c calls ih =>
    have hc : k.after (c :: calls) = (k.performed c).after calls := rfl
    rw [hc, ih, get_performed_iff, lastOf_cons_iff, List.forall_mem_cons, or_and_right, or_assoc, and_assoc,
      and_assoc]

theorem get_after_released_iff :
    (released.after calls).keys.get key = true ↔ LastOf (Call.Covers key) (Call.Presses key) calls := by
  have hr : released.keys.get key = false := Vector.getElem_replicate key.isLt
  rw [get_after_iff, hr]
  simp

/-- Whatever calls a new keypad has answered and refused, a key is pressed if the last of those that cover it
pressed it, and the first of the pressed keys is the lowest, if there is one. A snapshot has to have an entry for
each key, and a single key has to be one of the sixteen; what is refused for that changes no key. -/
theorem pressed_by_last_call (calls : List Call) : (released.after calls).Answers calls where
  cells := ⟨Vector.length_toList, fun down _ => by cases down <;> simp⟩
  refuses := fun _ _ _ => perform_eq_error_iff
  asks := fun _ _ => map_checkKey_eq_error_iff
  pressed := fun key => ⟨_, isPressed_key _ key, get_after_released_iff⟩
  first := fun key => by simp only [firstPressed_eq_some_iff, isPressed_key, Except.ok.injEq]
  first_none := by simp only [firstPressed_eq_none_iff, isPressed_key, Except.ok.injEq]

end Chip8.Keypad
