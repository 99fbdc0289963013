namespace Chip8.Text.Fields

/-- The fields in order. A text without commas is a single field. -/
def split : List Char → List (List Char)
  | [] => [[]]
  | c :: rest =>
    if c = ',' then [] :: split rest
    else match split rest with
      | [] => [[c]]
      | field :: fields => (c :: field) :: fields

def join : List (List Char) → List Char
  | [] => []
  | [field] => field
  | field :: fields => field ++ ',' :: join fields

theorem split_ne_nil (cs : List Char) : split cs ≠ [] := by
  cases cs with
  | nil => simp [split]
  | cons c rest =>
    unfold split
    split
    · simp
    · split <;> simp

theorem join_split (cs : List Char) : join (split cs) = cs := by
  induction cs with
  | nil => rfl
  | cons c rest ih =>
    unfold split
    split
    · rename_i h
      subst h
      cases hs : split rest with
      | nil => exact absurd hs (split_ne_nil rest)
      | cons field fields =>
        rw [hs] at ih
        simp [join, ih]
    · cases hs : split rest with
      | nil => exact absurd hs (split_ne_nil rest)
      | cons field fields =>
        rw [hs] at ih
        cases fields with
        | nil => simpa [join] using ih
        | cons _ _ => simpa [join] using ih

theorem split_join {fields : List (List Char)} (hne : fields ≠ [])
    (hc : ∀ field ∈ fields, ',' ∉ field) : split (join fields) = fields := by
  have single (field : List Char) (h : ',' ∉ field) : split field = [field] := by
    induction field with
    | nil => rfl
    | cons c rest ih =>
      simp only [List.mem_cons, not_or] at h
      simp [split, ih h.2, Ne.symm h.1]
  have first (field rest : List Char) (h : ',' ∉ field) :
      split (field ++ ',' :: rest) = field :: split rest := by
    induction field with
    | nil => simp [split]
    | cons c others ih =>
      simp only [List.mem_cons, not_or] at h
      simp [split, ih h.2, Ne.symm h.1]
  induction fields with
  | nil => exact absurd rfl hne
  | cons field fields ih =>
    cases fields with
    | nil => exact single field (hc field (by simp))
    | cons next others =>
      simp only [join]
      rw [first field _ (hc field (by simp)), ih (by simp) fun f hf => hc f (by simp [hf])]

end Chip8.Text.Fields
