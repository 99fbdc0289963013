import Chip8.Palette
import Chip8.Proofs.Text.Radix

namespace Chip8.Palette

open Text

def entries : Option String → List (List Char)
  | none => []
  | some text => Fields.split text.toList

/-- What an entry makes of a default. An entry that is not there is empty. -/
inductive Gives (digits base : Nat) (default : Int) : List Char → Int → Prop where
  | kept : Gives digits base default [] default
  | read {entry : List Char} {colour : Int} (hne : entry ≠ []) (hl : entry.length ≤ digits)
      (h : Numeral.WrittenIn base colour entry) : Gives digits base default entry colour

inductive Refused (digits base : Nat) (entry : List Char) : Error → Prop where
  | tooLong (hl : digits < entry.length) : Refused digits base entry (.tooLong (String.ofList entry) digits)
  | notANumber (hne : entry ≠ []) (hl : entry.length ≤ digits) (h : ∀ n, ¬ Numeral.WrittenIn base n entry) :
      Refused digits base entry (.notANumber (String.ofList entry) base)

variable {digits base : Nat} {default : Int} {defaults colours : List Int} {entry : List Char}
  {texts : List (List Char)} {e : Error}

theorem gives_nil_iff {c : Int} : Gives digits base default [] c ↔ default = c := by
  constructor
  · intro h
    cases h with
    | kept => rfl
    | read hne => exact absurd rfl hne
  · rintro rfl
    exact .kept

theorem colour_eq_ok_iff (hb : 2 ≤ base ∧ base ≤ 36) {c : Int} :
    colour digits base default entry = .ok c ↔ Gives digits base default entry c := by
  unfold colour
  split
  case isTrue he =>
    subst he
    rw [gives_nil_iff, Except.ok.injEq]
  case isFalse hne =>
    split
    case isTrue hl =>
      refine iff_of_false nofun fun h => ?_
      cases h with
      | kept => exact hne rfl
      | read _ hle => omega
    case isFalse hl =>
      have hg : Gives digits base default entry c ↔ Numeral.WrittenIn base c entry := by
        constructor
        · intro h
          cases h with
          | kept => exact absurd rfl hne
          | read _ _ h => exact h
        · exact .read hne (by omega)
      rw [hg, ← Numeral.read?_eq_some_iff_writtenIn hb]
      cases Numeral.read? base entry <;> simp

theorem colour_eq_error_iff (hb : 2 ≤ base ∧ base ≤ 36) :
    colour digits base default entry = .error e ↔ Refused digits base entry e := by
  unfold colour
  split
  case isTrue he =>
    subst he
    refine iff_of_false nofun fun h => ?_
    cases h with
    | tooLong hl => exact absurd hl (Nat.not_lt_zero _)
    | notANumber hne => exact hne rfl
  case isFalse hne =>
    split
    case isTrue hl =>
      constructor
      · rintro ⟨⟩
        exact .tooLong (by omega)
      · intro h
        cases h with
        | tooLong => rfl
        | notANumber _ hle => omega
    case isFalse hl =>
      cases hr : Numeral.read? base entry with
      | some n =>
        refine iff_of_false nofun fun h => ?_
        cases h with
        | tooLong hlt => omega
        | notANumber _ _ h => exact h n ((Numeral.read?_eq_some_iff_writtenIn hb).mp hr)
      | none =>
        constructor
        · rintro ⟨⟩
          refine .notANumber hne (by omega) fun n hn => ?_
          rw [(Numeral.read?_eq_some_iff_writtenIn hb).mpr hn] at hr
          cases hr
        · intro h
          cases h with
          | tooLong hlt => omega
          | notANumber => rfl

theorem Gives.bounds (hb : 2 ≤ base ∧ base ≤ 36) {c : Int} (h : Gives digits base default entry c)
    (hne : entry ≠ []) : c.natAbs < base ^ digits ∧ (digits = 1 → 0 ≤ c) := by
  cases h with
  | kept => exact absurd rfl hne
  | read _ hl h =>
    constructor
    · calc c.natAbs < base ^ entry.length := h.natAbs_lt (by omega)
        _ ≤ base ^ digits := Nat.pow_le_pow_right (by omega) hl
    · intro hd
      have hpos := List.length_pos_of_ne_nil hne
      exact h.nonneg (by omega)

theorem override_cons_eq_ok_iff (hb : 2 ≤ base ∧ base ≤ 36) :
    override digits base (default :: defaults) (entry :: texts) = .ok colours ↔
      ∃ first rest, colours = first :: rest ∧ Gives digits base default entry first ∧
        override digits base defaults texts = .ok rest := by
  simp only [override, ← colour_eq_ok_iff hb]
  cases colour digits base default entry with
  | error e => simp [bind, Except.bind]
  | ok first =>
    cases override digits base defaults texts with
    | error e => simp [bind, Except.bind]
    | ok rest => simp [bind, Except.bind, pure, Except.pure, eq_comm]

theorem override_cons_eq_error_iff (hb : 2 ≤ base ∧ base ≤ 36) :
    override digits base (default :: defaults) (entry :: texts) = .error e ↔
      Refused digits base entry e ∨ (∀ e, ¬ Refused digits base entry e) ∧
        override digits base defaults texts = .error e := by
  simp only [override, ← @colour_eq_error_iff digits base default _ _ hb]
  cases colour digits base default entry with
  | error e => simp [bind, Except.bind]
  | ok first =>
    cases override digits base defaults texts with
    | error e => simp [bind, Except.bind]
    | ok rest => simp [bind, Except.bind, pure, Except.pure]

theorem override_eq_ok_iff (hb : 2 ≤ base ∧ base ≤ 36) (hl : texts.length ≤ defaults.length) :
    override digits base defaults texts = .ok colours ↔ colours.length = defaults.length ∧
      ∀ k default colour, defaults[k]? = some default → colours[k]? = some colour →
        Gives digits base default (texts.getD k []) colour := by
  induction texts generalizing defaults colours with
  | nil =>
    rw [override, Except.ok.injEq]
    constructor
    · rintro rfl
      refine ⟨rfl, fun k default colour hd hc => ?_⟩
      exact gives_nil_iff.mpr (Option.some.inj (hd.symm.trans hc))
    · rintro ⟨hlen, h⟩
      refine List.ext_getElem hlen.symm fun k hd hc => ?_
      exact gives_nil_iff.mp (h k _ _ (List.getElem?_eq_getElem hd) (List.getElem?_eq_getElem hc))
  | cons text texts ih =>
    obtain ⟨default, defaults, rfl⟩ := List.exists_cons_of_length_pos (Nat.zero_lt_of_lt hl)
    have hl : texts.length ≤ defaults.length := by simpa using hl
    rw [override_cons_eq_ok_iff hb]
    constructor
    · rintro ⟨first, rest, rfl, hf, hr⟩
      obtain ⟨hlen, h⟩ := (ih hl).mp hr
      refine ⟨congrArg (· + 1) hlen, fun k default colour hd hc => ?_⟩
      cases k with
      | zero =>
        cases hd
        cases hc
        exact hf
      | succ k => exact h k default colour hd hc
    · rintro ⟨hlen, h⟩
      obtain ⟨first, rest, rfl⟩ := List.exists_cons_of_length_eq_add_one hlen
      have hrest : rest.length = defaults.length := by simpa using hlen
      exact ⟨first, rest, rfl, h 0 _ _ rfl rfl, (ih hl).mpr ⟨hrest, fun k => h (k + 1)⟩⟩

theorem override_eq_error_iff (hb : 2 ≤ base ∧ base ≤ 36) (hl : texts.length ≤ defaults.length) :
    override digits base defaults texts = .error e ↔ ∃ before text after, texts = before ++ text :: after ∧
      (∀ other ∈ before, ∀ e, ¬ Refused digits base other e) ∧ Refused digits base text e := by
  induction texts generalizing defaults with
  | nil =>
    rw [override]
    refine iff_of_false nofun ?_
    rintro ⟨before, text, after, he, -⟩
    exact List.append_ne_nil_of_right_ne_nil before (List.cons_ne_nil text after) he.symm
  | cons text texts ih =>
    obtain ⟨default, defaults, rfl⟩ := List.exists_cons_of_length_pos (Nat.zero_lt_of_lt hl)
    rw [override_cons_eq_error_iff hb, ih (by simpa using hl)]
    constructor
    · rintro (hr | ⟨hn, before, other, after, rfl, hbefore, hr⟩)
      · exact ⟨[], text, texts, rfl, List.forall_mem_nil _, hr⟩
      · exact ⟨text :: before, other, after, rfl, List.forall_mem_cons.mpr ⟨hn, hbefore⟩, hr⟩
    · rintro ⟨before, other, after, he, hbefore, hr⟩
      cases before with
      | nil =>
        obtain ⟨rfl, rfl⟩ := List.cons.inj he
        exact .inl hr
      | cons first before =>
        obtain ⟨rfl, rfl⟩ := List.cons.inj he
        obtain ⟨hn, hbefore⟩ := List.forall_mem_cons.mp hbefore
        exact .inr ⟨hn, before, other, after, rfl, hbefore, hr⟩

theorem parse_eq (text : Option String) (defaults : List Int) (digits base : Int) :
    parse text defaults digits base =
      if defaults.length < (entries text).length then .error .tooMany
      else override digits base defaults (entries text) := by
  cases text with
  | none => rw [entries, List.length_nil, if_neg (Nat.not_lt_zero _), override, parse]
  | some text => rfl

theorem parse_eq_ok_iff (hb : 2 ≤ base ∧ base ≤ 36) {text : Option String} :
    parse text defaults digits base = .ok colours ↔
      (entries text).length ≤ defaults.length ∧ colours.length = defaults.length ∧
        ∀ k default colour, defaults[k]? = some default → colours[k]? = some colour →
          Gives digits base default ((entries text).getD k []) colour := by
  rw [parse_eq]
  split
  case isTrue h => exact iff_of_false nofun fun ⟨hl, _⟩ => by omega
  case isFalse h =>
    have hl : (entries text).length ≤ defaults.length := by omega
    rw [override_eq_ok_iff hb hl, and_iff_right hl]

theorem parse_eq_error_iff (hb : 2 ≤ base ∧ base ≤ 36) {text : Option String} :
    parse text defaults digits base = .error e ↔
      defaults.length < (entries text).length ∧ e = .tooMany ∨
        (entries text).length ≤ defaults.length ∧ ∃ before entry after,
          entries text = before ++ entry :: after ∧ (∀ other ∈ before, ∀ e, ¬ Refused digits base other e) ∧
            Refused digits base entry e := by
  rw [parse_eq]
  split
  case isTrue h => simp [h, Nat.not_le_of_gt h, eq_comm]
  case isFalse h =>
    have hl : (entries text).length ≤ defaults.length := by omega
    rw [override_eq_error_iff hb hl]
    simp [h, hl]

theorem parsePair_eq_ok_iff (hb : 2 ≤ base ∧ base ≤ 36) {text : Option String}
    {background foreground first second : Int} :
    parsePair text background foreground digits base = .ok (first, second) ↔
      parse text [background, foreground] digits base = .ok [first, second] := by
  rw [parsePair]
  cases hp : parse text [background, foreground] digits base with
  | error e => simp [Except.map]
  | ok colours =>
    obtain ⟨a, b, rfl⟩ := List.length_eq_two.mp ((parse_eq_ok_iff hb).mp hp).2.1
    simp [Except.map]

/-- Colours that stand in the place of defaults in range are in range if they are read from single digits. -/
theorem single_digits_in_range (hb : 2 ≤ base ∧ base ≤ 36) {text : Option String}
    (hd : ∀ default ∈ defaults, 0 ≤ default ∧ default < base)
    (h : parse text defaults (1 : Nat) base = .ok colours) : ∀ colour ∈ colours, 0 ≤ colour ∧ colour < base := by
  obtain ⟨-, hlen, hgives⟩ := (parse_eq_ok_iff hb).mp h
  intro colour hm
  obtain ⟨k, hk, rfl⟩ := List.getElem_of_mem hm
  have hdefault : k < defaults.length := hlen ▸ hk
  have hg := hgives k _ _ (List.getElem?_eq_getElem hdefault) (List.getElem?_eq_getElem hk)
  by_cases hne : (entries text).getD k [] = []
  · rw [hne, gives_nil_iff] at hg
    rw [← hg]
    exact hd _ (List.getElem_mem hdefault)
  · obtain ⟨hlt, hnonneg⟩ := hg.bounds hb hne
    have h0 := hnonneg rfl
    rw [Nat.pow_one] at hlt
    omega

end Chip8.Palette
