import Chip8.Text.Hex

namespace Chip8

structure Keypad where
  keys : Vector Bool 16
deriving DecidableEq

namespace Keypad

inductive Reading where
  | absent
  | flag (down : Bool)
  | level (n : Int)
deriving DecidableEq

/-- Any level other than zero counts as pressed. -/
def Reading.pressed : Reading → Bool
  | .absent => false
  | .flag down => down
  | .level n => n != 0

inductive Error where
  | wrongCount
  | noSuchKey (key : Int)
deriving DecidableEq

def Error.message : Error → String
  | .wrongCount => "Incorrect keypad snapshot size -- 16 keys required"
  | .noSuchKey key => "Key 0x" ++ Text.Hex.ofInt 2 key ++ " does not exist"

def released : Keypad :=
  ⟨Vector.replicate 16 false⟩

def setKeys (_ : Keypad) (snapshot : List Reading) : Except Error Keypad :=
  if h : snapshot.length = 16 then
    .ok ⟨⟨(snapshot.map Reading.pressed).toArray, by simp [h]⟩⟩
  else .error .wrongCount

def checkKey (key : Int) : Except Error (Fin 16) :=
  if h : 0 ≤ key ∧ key < 16 then .ok ⟨key.toNat, by omega⟩ else .error (.noSuchKey key)

def press (k : Keypad) (key : Int) : Except Error Keypad :=
  (checkKey key).map fun i => ⟨k.keys.set i.val true i.isLt⟩

def release (k : Keypad) (key : Int) : Except Error Keypad :=
  (checkKey key).map fun i => ⟨k.keys.set i.val false i.isLt⟩

def isPressed (k : Keypad) (key : Int) : Except Error Bool :=
  (checkKey key).map fun i => k.keys[i.val]

def firstPressed (k : Keypad) : Option (Fin 16) :=
  (List.finRange 16).find? fun i => k.keys[i.val]

theorem checkKey_eq_ok_iff {key : Int} {i : Fin 16} : checkKey key = .ok i ↔ key = i.val := by
  unfold checkKey
  split
  · simp only [Except.ok.injEq, Fin.ext_iff]
    omega
  · simp only [reduceCtorEq, false_iff]
    omega

theorem map_checkKey_eq_error_iff {α : Type} {f : Fin 16 → α} {key : Int} {e : Error} :
    (checkKey key).map f = .error e ↔ ¬ (0 ≤ key ∧ key ≤ 15) ∧ e = .noSuchKey key := by
  unfold checkKey
  split
  · simp only [Except.map, reduceCtorEq, false_iff, not_and]
    omega
  · simp only [Except.map, Except.error.injEq, eq_comm (a := e), iff_and_self]
    omega

theorem isPressed_eq_ok_iff {k : Keypad} {key : Int} {down : Bool} :
    k.isPressed key = .ok down ↔ ∃ i : Fin 16, key = i.val ∧ k.keys[i.val] = down := by
  unfold isPressed
  cases h : checkKey key with
  | error e =>
    simp only [Except.map, reduceCtorEq, false_iff, not_exists, not_and]
    intro i hi
    rw [checkKey_eq_ok_iff.mpr hi] at h
    simp at h
  | ok i =>
    have hi := checkKey_eq_ok_iff.mp h
    constructor
    · intro hd
      exact ⟨i, hi, by simpa [Except.map] using hd⟩
    · rintro ⟨j, hj, hd⟩
      have : i = j := Fin.ext (by omega)
      subst this
      simpa [Except.map] using hd

end Keypad

end Chip8
