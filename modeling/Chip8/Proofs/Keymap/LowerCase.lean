import Chip8.Proofs.Keymap.Parse

namespace Chip8

namespace Text.LetterCase

theorem lower_eq_error_iff (n : Int) :
    (∃ e, lower n = .error e) ↔ n < 0 ∨ 0x10FFFF < n ∨ n = 0x130 := by
  unfold lower
  split
  case isTrue h => exact iff_of_true ⟨_, rfl⟩ (by omega)
  case isFalse h =>
    split
    case isTrue h => exact iff_of_true ⟨_, rfl⟩ (by omega)
    case isFalse h =>
      split
      case isTrue h => exact iff_of_true ⟨_, rfl⟩ (.inr (.inr h))
      case isFalse h => exact iff_of_false nofun (by omega)

end Text.LetterCase

namespace Keymap

open Text

variable {lowerCase : Bool} {k : Keymap} {key : Fin 16} {entry : List Char} {e : LetterCase.Error}

theorem not_refusal_iff {e : Error} : ¬ e.Refusal ↔ ∃ l, e = .noLowerCase l := by
  cases e with
  | wrongCount count => exact iff_of_false (not_not.mpr (.wrongCount count)) nofun
  | notANumber entry => exact iff_of_false (not_not.mpr (.notANumber entry)) nofun
  | repeated host => exact iff_of_false (not_not.mpr (.repeated host)) nofun
  | noLowerCase l => exact iff_of_true nofun ⟨l, rfl⟩

theorem insert_eq_noLowerCase_iff : k.insert true key entry = .error (.noLowerCase e) ↔
    ∃ n, Numeral.Written n entry ∧ LetterCase.lower n = .error e := by
  have hh : k.insert true key entry = .error (.noLowerCase e) ↔ hostKey true entry = .error (.noLowerCase e) := by
    rw [insert_eq]
    cases hostKey true entry with
    | error e => simp [Except.bind]
    | ok host =>
      simp only [Except.bind]
      by_cases hm : host ∈ k.hosts <;> simp [hm]
  simp only [hh, hostKey, ← Numeral.read?_eq_some_iff]
  cases Numeral.read? 10 entry with
  | none => simp
  | some n => cases hl : LetterCase.lower n <;> simp [hl, Except.mapError]

theorem fill_cons_eq_error_iff {keys : List (Fin 16)} {text : List Char} {texts : List (List Char)} {e : Error} :
    k.fill lowerCase (key :: keys) (text :: texts) = .error e ↔
      k.insert lowerCase key text = .error e ∨ ∃ host, Names lowerCase text host ∧ host ∉ k.hosts ∧
        (k.enter host key).fill lowerCase keys texts = .error e := by
  rw [fill_cons]
  cases hi : k.insert lowerCase key text with
  | error e' =>
    have hn (host : Int) (hn : Names lowerCase text host) : host ∈ k.hosts := by
      by_contra hm
      rw [insert_eq_ok_iff.mpr ⟨host, hn, hm, rfl⟩] at hi
      cases hi
    constructor
    · exact .inl
    · rintro (h | ⟨host, hname, hm, -⟩)
      · exact h
      · exact absurd (hn host hname) hm
  | ok next =>
    obtain ⟨host, hn, hm, rfl⟩ := insert_eq_ok_iff.mp hi
    constructor
    · exact fun h => .inr ⟨host, hn, hm, h⟩
    · rintro (h | ⟨other, ho, hm', h⟩)
      · cases h
      · rw [insert_eq_ok_iff.mpr ⟨other, ho, hm', rfl⟩] at hi
        rw [← Except.ok.inj hi]
        exact h

/-- Some entry is an integer without a lower case, while the entries before it name different host keys, none of
them taken. -/
def Stumbles (taken : List Int) (texts : List (List Char)) (e : LetterCase.Error) : Prop :=
  ∃ before entry after hosts, texts = before ++ entry :: after ∧
    List.Forall₂ (Names true) before hosts ∧ (taken ++ hosts).Nodup ∧
    ∃ n, Numeral.Written n entry ∧ LetterCase.lower n = .error e

theorem stumbles_cons_iff {taken : List Int} (ht : taken.Nodup) {text : List Char} {texts : List (List Char)} :
    Stumbles taken (text :: texts) e ↔ (∃ n, Numeral.Written n text ∧ LetterCase.lower n = .error e) ∨
      ∃ host, Names true text host ∧ host ∉ taken ∧ Stumbles (taken ++ [host]) texts e := by
  constructor
  · rintro ⟨before, entry, after, hosts, he, hn, hd, hl⟩
    cases before with
    | nil =>
      obtain ⟨rfl, rfl⟩ := List.cons.inj he
      exact .inl hl
    | cons first before =>
      obtain ⟨rfl, rfl⟩ := List.cons.inj he
      obtain ⟨host, hosts, hname, hrest, rfl⟩ := List.forall₂_cons_left_iff.mp hn
      have hm : host ∉ taken := fun hm => (List.nodup_append.mp hd).2.2 _ hm _ List.mem_cons_self rfl
      exact .inr ⟨host, hname, hm, before, entry, after, hosts, rfl, hrest, by simpa using hd, hl⟩
  · rintro (hl | ⟨host, hname, -, before, entry, after, hosts, rfl, hn, hd, hl⟩)
    · exact ⟨[], text, texts, [], rfl, .nil, by simpa using ht, hl⟩
    · exact ⟨text :: before, entry, after, host :: hosts, rfl, .cons hname hn, by simpa using hd, hl⟩

theorem fill_eq_noLowerCase_iff {keys : List (Fin 16)} {texts : List (List Char)}
    (hl : keys.length = texts.length) (hk : k.hosts.Nodup) :
    k.fill true keys texts = .error (.noLowerCase e) ↔ Stumbles k.hosts texts e := by
  induction texts generalizing k keys with
  | nil =>
    refine iff_of_false ?_ ?_
    · rw [fill, List.zip_nil_right]
      intro h
      cases h
    · rintro ⟨before, entry, after, hosts, he, -⟩
      exact List.append_ne_nil_of_right_ne_nil before (List.cons_ne_nil entry after) he.symm
  | cons text texts ih =>
    obtain ⟨key, keys, rfl⟩ := List.exists_cons_of_length_eq_add_one hl
    have hl : keys.length = texts.length := by simpa using hl
    rw [fill_cons_eq_error_iff, stumbles_cons_iff hk, insert_eq_noLowerCase_iff]
    refine or_congr_right (exists_congr fun host => and_congr_right fun _ => and_congr_right fun hm => ?_)
    have hhosts : (k.enter host key).hosts = k.hosts ++ [host] := by simp [enter, hosts]
    rw [ih hl (nodup_hosts_enter.mpr ⟨hk, hm⟩), hhosts]

theorem parse_eq_noLowerCase_iff {text : String} : parse text lowerCase = .error (.noLowerCase e) ↔
    lowerCase = true ∧ (Fields.split text.toList).length = 16 ∧ Stumbles [] (Fields.split text.toList) e := by
  cases lowerCase with
  | false =>
    refine iff_of_false (fun h => ?_) (fun h => Bool.false_ne_true h.1)
    exact not_refusal_iff.mpr ⟨e, rfl⟩ (parse_refusal h)
  | true =>
    rw [parse_eq]
    by_cases hl : (Fields.split text.toList).length = 16
    · rw [if_pos hl, fill_eq_noLowerCase_iff (k := ⟨[]⟩) (by rw [hl, List.length_finRange]) List.nodup_nil]
      simp [hl, hosts]
    · simp [hl]

/-- A keymap is read or refused, whatever its text, unless its numbers are taken in lower case and one of sixteen
entries is an integer without a lower case, while those before it name different host keys. Then reading it fails
as finding the lower case does. An integer has no lower case if it is no character code, or that of the one
character whose lower case is two characters. -/
theorem read_or_refused_unless_stumbling (text : String) (lowerCase : Bool) :
    ((∃ k, parse text lowerCase = .ok k) ∨ (∃ e, parse text lowerCase = .error e ∧ e.Refusal) ↔
      ¬ (lowerCase = true ∧ (Fields.split text.toList).length = 16 ∧
        ∃ e, Stumbles [] (Fields.split text.toList) e)) ∧
    (∀ e, parse text lowerCase = .error (.noLowerCase e) ↔
      lowerCase = true ∧ (Fields.split text.toList).length = 16 ∧ Stumbles [] (Fields.split text.toList) e) ∧
    ∀ n, (∃ e, LetterCase.lower n = .error e) ↔ n < 0 ∨ 0x10FFFF < n ∨ n = 0x130 := by
  refine ⟨?_, fun e => parse_eq_noLowerCase_iff, LetterCase.lower_eq_error_iff⟩
  simp only [← exists_and_left, ← parse_eq_noLowerCase_iff]
  cases hp : parse text lowerCase with
  | ok k => simp
  | error e =>
    have hr := not_refusal_iff (e := e)
    simp only [reduceCtorEq, exists_false, Except.error.injEq, exists_eq_left', false_or, ← hr, not_not]

/-- The number of an arrow key of a window, taken for a character of a terminal. -/
theorem keymap_fails_unrefused :
    ¬ ∀ text lowerCase, (∃ k, parse text lowerCase = .ok k) ∨
      ∃ e, parse text lowerCase = .error e ∧ e.Refusal := by
  intro h
  have hp : parse "120,49,50,51,113,119,101,97,115,100,122,99,52,114,102,1073741906" true =
      .error (.noLowerCase (.notACharacter 1073741906)) := rfl
  obtain ⟨k, hk⟩ | ⟨e, he, hr⟩ :=
    h "120,49,50,51,113,119,101,97,115,100,122,99,52,114,102,1073741906" true
  · rw [hp] at hk
    cases hk
  · rw [hp] at he
    cases he
    cases hr

end Keymap

end Chip8
