namespace Chip8

variable {α : Type} {q p : α → Prop} {a : α} {l : List α}

/-- Of all entries that are `q` the last is `p` as well. -/
def LastOf (q p : α → Prop) (l : List α) : Prop :=
  ∃ before a after, l = before ++ a :: after ∧ q a ∧ p a ∧ ∀ b ∈ after, ¬ q b

theorem not_lastOf_nil : ¬ LastOf q p [] := by
  rintro ⟨before, a, after, he, -⟩
  exact List.append_ne_nil_of_right_ne_nil before (List.cons_ne_nil a after) he.symm

theorem lastOf_cons_iff : LastOf q p (a :: l) ↔ LastOf q p l ∨ (q a ∧ p a) ∧ ∀ b ∈ l, ¬ q b := by
  constructor
  · rintro ⟨before, c, after, he, hq, hp, hl⟩
    cases before with
    | nil =>
      obtain ⟨rfl, rfl⟩ := List.cons.inj he
      exact .inr ⟨⟨hq, hp⟩, hl⟩
    | cons first before =>
      obtain ⟨rfl, rfl⟩ := List.cons.inj he
      exact .inl ⟨before, c, after, rfl, hq, hp, hl⟩
  · rintro (⟨before, c, after, rfl, hq, hp, hl⟩ | ⟨⟨hq, hp⟩, hl⟩)
    · exact ⟨a :: before, c, after, rfl, hq, hp, hl⟩
    · exact ⟨[], a, l, rfl, hq, hp, hl⟩

theorem exists_last (h : ∃ a ∈ l, q a) : LastOf q (fun _ => True) l := by
  induction l with
  | nil =>
    obtain ⟨a, ha, -⟩ := h
    cases ha
  | cons a l ih =>
    rw [lastOf_cons_iff]
    by_cases hl : ∃ b ∈ l, q b
    · exact .inl (ih hl)
    · have hn : ∀ b ∈ l, ¬ q b := fun b hb hq => hl ⟨b, hb, hq⟩
      obtain ⟨b, hb, hq⟩ := h
      obtain rfl | hb := List.mem_cons.mp hb
      · exact .inr ⟨⟨hq, trivial⟩, hn⟩
      · exact absurd hq (hn b hb)

end Chip8
