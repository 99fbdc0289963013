import Chip8.Keypad

namespace Chip8.Keypad

variable {k : Keypad} {snapshot : List Reading}

theorem firstPressed_eq_some_iff {key : Fin 16} :
    k.firstPressed = some key ↔ k.keys.get key = true ∧ ∀ j < key, k.keys.get j = false := by
  rw [firstPressed, List.find?_eq_some_iff_getElem]
  constructor
  · rintro ⟨hk, n, hn, rfl, hl⟩
    refine ⟨hk, fun j hj => ?_⟩
    have hj : j.val < n := by simpa [Fin.lt_def] using hj
    simpa [Vector.get] using hl j.val hj
  · rintro ⟨hk, hl⟩
    refine ⟨hk, key.val, by simp, by simp, fun j hj => ?_⟩
    simpa [Vector.get] using hl ⟨j, by omega⟩ hj

theorem firstPressed_eq_none_iff : k.firstPressed = none ↔ ∀ key, k.keys.get key = false := by
  rw [firstPressed, List.find?_eq_none]
  simp [Vector.get]

theorem firstPressed_eq_findIdx? (k : Keypad) :
    k.firstPressed.map Fin.val = k.keys.toList.findIdx? id := by
  symm
  cases h : k.firstPressed with
  | none =>
    rw [Option.map_none, List.findIdx?_eq_none_iff]
    intro down hd
    obtain ⟨n, hn, rfl⟩ := List.getElem_of_mem hd
    exact firstPressed_eq_none_iff.mp h ⟨n, by simpa using hn⟩
  | some key =>
    obtain ⟨hk, hl⟩ := firstPressed_eq_some_iff.mp h
    rw [Option.map_some, List.findIdx?_eq_some_iff_getElem]
    refine ⟨by simp, hk, fun j hj => ?_⟩
    simpa [Vector.get] using hl ⟨j, by omega⟩ hj

/-- The keypad once it has been offered a snapshot, which it refuses unless there is an entry for each key. -/
def offered (k : Keypad) (snapshot : List Reading) : Keypad :=
  match k.setKeys snapshot with
  | .ok keypad => keypad
  | .error _ => k

theorem toList_offered (h : snapshot.length = 16) :
    (k.offered snapshot).keys.toList = snapshot.map Reading.pressed := by
  rw [offered, setKeys, dif_pos h]
  rfl

theorem firstPressed_offered (h : snapshot.length = 16) :
    (k.offered snapshot).firstPressed.map Fin.val = snapshot.findIdx? Reading.pressed := by
  rw [firstPressed_eq_findIdx?, toList_offered h, List.findIdx?_map]
  rfl

theorem firstPressed_offered_congr {k' : Keypad} {snapshot' : List Reading} (h : snapshot.length = 16)
    (h' : snapshot'.length = 16)
    (hf : snapshot.findIdx? Reading.pressed = snapshot'.findIdx? Reading.pressed) :
    (k.offered snapshot).firstPressed = (k'.offered snapshot').firstPressed := by
  rw [← firstPressed_offered (k := k) h, ← firstPressed_offered (k := k') h'] at hf
  exact Option.map_inj_right (fun _ _ => Fin.ext) |>.mp hf

theorem get_offered (h : snapshot.length = 16) (key : Fin 16) :
    some ((k.offered snapshot).keys.get key) = snapshot[key.val]?.map Reading.pressed := by
  rw [← List.getElem?_map, ← toList_offered (k := k) h]
  simp [Vector.get]

theorem offered_of_unpressed (hl : snapshot.length = 16) (h : ∀ r ∈ snapshot, r.pressed = false) :
    k.offered snapshot = released := by
  have hk : (k.offered snapshot).keys.toList = released.keys.toList := by
    rw [toList_offered hl, List.map_congr_left h, List.map_const', hl]
    rfl
  exact congrArg mk (Vector.toList_inj.mp hk)

theorem firstPressed_released : released.firstPressed = none := by
  rw [firstPressed_eq_none_iff]
  intro key
  simp [released, Vector.get]

theorem exists_firstPressed_offered (hl : snapshot.length = 16)
    (h : ∃ r ∈ snapshot, r.pressed = true) :
    ∃ key : Fin 16, snapshot.findIdx? Reading.pressed = some key.val ∧
      (k.offered snapshot).firstPressed = some key := by
  have hf := firstPressed_offered (k := k) hl
  cases ho : (k.offered snapshot).firstPressed with
  | none =>
    rw [ho, Option.map_none, eq_comm, List.findIdx?_eq_none_iff] at hf
    obtain ⟨r, hr, hp⟩ := h
    exact absurd (hf r hr) (by simp [hp])
  | some key =>
    rw [ho, Option.map_some] at hf
    exact ⟨key, hf.symm, rfl⟩

end Chip8.Keypad
