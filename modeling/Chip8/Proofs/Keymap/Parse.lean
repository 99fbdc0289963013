import Mathlib.Data.List.Forall2
import Mathlib.Data.List.Nodup
import Chip8.Keymap
import Chip8.Proofs.Text.Numeral

namespace Chip8.Keymap

open Text

/-- The refusals of a keymap. What else may come up is that a number has no lower case. -/
inductive Error.Refusal : Error → Prop where
  | wrongCount (count : Nat) : Refusal (.wrongCount count)
  | notANumber (entry : String) : Refusal (.notANumber entry)
  | repeated (hostKey : Int) : Refusal (.repeated hostKey)

/-- The entry is a written form of the host key, or of an integer that the host key is the lower case of. -/
def Names (lowerCase : Bool) (entry : List Char) (host : Int) : Prop :=
  ∃ n, Numeral.Written n entry ∧ if lowerCase then LetterCase.lower n = .ok host else n = host

theorem names_false_iff {entry : List Char} {host : Int} :
    Names false entry host ↔ Numeral.Written host entry := by
  simp [Names]

theorem Names.comma_notMem {lowerCase : Bool} {entry : List Char} {host : Int}
    (h : Names lowerCase entry host) : ',' ∉ entry :=
  let ⟨_, hw, _⟩ := h
  hw.comma_notMem

theorem hostKey_eq_ok_iff {lowerCase : Bool} {entry : List Char} {host : Int} :
    hostKey lowerCase entry = .ok host ↔ Names lowerCase entry host := by
  simp only [hostKey, Names, ← Numeral.read?_eq_some_iff]
  cases Numeral.read? 10 entry with
  | none => simp
  | some n =>
    cases lowerCase with
    | false => simp
    | true => cases hl : LetterCase.lower n <;> simp [hl, Except.mapError]

theorem hostKey_refusal {entry : List Char} {e : Error} (h : hostKey false entry = .error e) : e.Refusal := by
  unfold hostKey at h
  split at h
  · cases h
    exact .notANumber _
  · cases h

def hosts (k : Keymap) : List Int :=
  k.entries.map (·.1)

def enter (k : Keymap) (host : Int) (key : Fin 16) : Keymap :=
  ⟨k.entries ++ [(host, key)]⟩

theorem nodup_hosts_enter {k : Keymap} {host : Int} {key : Fin 16} :
    (k.enter host key).hosts.Nodup ↔ k.hosts.Nodup ∧ host ∉ k.hosts := by
  have hc : (k.enter host key).hosts = k.hosts.concat host := by simp [enter, hosts]
  rw [hc, List.nodup_concat, and_comm]

theorem key?_eq_none_iff {k : Keymap} {host : Int} : k.key? host = none ↔ host ∉ k.hosts := by
  simp only [key?, hosts, Option.map_eq_none_iff, List.find?_eq_none, beq_iff_eq, List.mem_map, not_exists,
    not_and]

theorem key?_eq_some_iff {k : Keymap} (hk : k.hosts.Nodup) {host : Int} {key : Fin 16} :
    k.key? host = some key ↔ (host, key) ∈ k.entries := by
  have mem {key : Fin 16} (h : k.key? host = some key) : (host, key) ∈ k.entries := by
    obtain ⟨⟨found, _⟩, hf, rfl⟩ := Option.map_eq_some_iff.mp h
    obtain rfl : found = host := by simpa using List.find?_some hf
    exact List.mem_of_find?_eq_some hf
  refine ⟨mem, fun h => ?_⟩
  cases hf : k.key? host with
  | none => exact absurd (List.mem_map_of_mem h) (key?_eq_none_iff.mp hf)
  | some other =>
    have he := List.inj_on_of_nodup_map hk h (mem hf) rfl
    rw [(Prod.mk.inj he).2]

variable {lowerCase : Bool} {k k' : Keymap} {key : Fin 16} {entry : List Char}

theorem insert_eq (lowerCase : Bool) (k : Keymap) (key : Fin 16) (entry : List Char) :
    k.insert lowerCase key entry = (hostKey lowerCase entry).bind fun host =>
      if host ∈ k.hosts then .error (.repeated host) else .ok (k.enter host key) := by
  rw [insert]
  refine congrArg (hostKey lowerCase entry).bind (funext fun host => ?_)
  by_cases hm : host ∈ k.hosts
  · have hs : (k.key? host).isSome = true := by
      rw [Option.isSome_iff_ne_none, ne_eq, key?_eq_none_iff, not_not]
      exact hm
    rw [if_pos hm, hs]
    rfl
  · rw [if_neg hm, key?_eq_none_iff.mpr hm]
    rfl

theorem insert_eq_ok_iff : k.insert lowerCase key entry = .ok k' ↔
    ∃ host, Names lowerCase entry host ∧ host ∉ k.hosts ∧ k.enter host key = k' := by
  simp only [← hostKey_eq_ok_iff, insert_eq]
  cases hostKey lowerCase entry with
  | error e => simp [Except.bind]
  | ok host =>
    simp only [Except.bind, Except.ok.injEq, exists_eq_left']
    by_cases hm : host ∈ k.hosts <;> simp [hm]

theorem insert_refusal {e : Error} (h : k.insert false key entry = .error e) : e.Refusal := by
  rw [insert_eq] at h
  cases hh : hostKey false entry with
  | error e' =>
    rw [hh] at h
    cases h
    exact hostKey_refusal hh
  | ok host =>
    rw [hh] at h
    simp only [Except.bind] at h
    split at h
    · cases h
      exact .repeated host
    · cases h

def fill (lowerCase : Bool) (k : Keymap) (keys : List (Fin 16)) (texts : List (List Char)) :
    Except Error Keymap :=
  (keys.zip texts).foldlM (fun k (key, entry) => k.insert lowerCase key entry) k

theorem fill_cons (lowerCase : Bool) (k : Keymap) (key : Fin 16) (keys : List (Fin 16)) (text : List Char)
    (texts : List (List Char)) : k.fill lowerCase (key :: keys) (text :: texts) =
      (k.insert lowerCase key text).bind fun k => k.fill lowerCase keys texts :=
  rfl

variable {keys : List (Fin 16)} {texts : List (List Char)}

theorem fill_cons_eq_ok_iff {text : List Char} : k.fill lowerCase (key :: keys) (text :: texts) = .ok k' ↔
    ∃ host, Names lowerCase text host ∧ host ∉ k.hosts ∧
      (k.enter host key).fill lowerCase keys texts = .ok k' := by
  rw [fill_cons]
  constructor
  · intro h
    cases hi : k.insert lowerCase key text with
    | error e =>
      rw [hi] at h
      cases h
    | ok next =>
      rw [hi] at h
      obtain ⟨host, hn, hm, rfl⟩ := insert_eq_ok_iff.mp hi
      exact ⟨host, hn, hm, h⟩
  · rintro ⟨host, hn, hm, h⟩
    rw [insert_eq_ok_iff.mpr ⟨host, hn, hm, rfl⟩]
    exact h

theorem fill_eq_ok_iff (hl : keys.length = texts.length) (hk : k.hosts.Nodup) :
    k.fill lowerCase keys texts = .ok k' ↔ ∃ hosts, List.Forall₂ (Names lowerCase) texts hosts ∧
      k'.hosts.Nodup ∧ k'.entries = k.entries ++ hosts.zip keys := by
  -- over any keymap without repetitions, which is what the entries before leave
  induction texts generalizing k keys with
  | nil =>
    obtain rfl : keys = [] := List.length_eq_zero_iff.mp hl
    constructor
    · rintro ⟨⟩
      exact ⟨[], .nil, hk, by simp⟩
    · rintro ⟨_, ⟨⟩, -, he⟩
      rw [List.zip_nil_left, List.append_nil] at he
      exact congrArg (fun entries => Except.ok (Keymap.mk entries)) he.symm
  | cons text texts ih =>
    obtain ⟨key, keys, rfl⟩ := List.exists_cons_of_length_eq_add_one hl
    have hl : keys.length = texts.length := by simpa using hl
    rw [fill_cons_eq_ok_iff]
    constructor
    · rintro ⟨host, hn, hm, h⟩
      obtain ⟨hosts, hs, hd, he⟩ := (ih hl (nodup_hosts_enter.mpr ⟨hk, hm⟩)).mp h
      exact ⟨host :: hosts, .cons hn hs, hd, by simpa [enter] using he⟩
    · rintro ⟨_, hs, hd, he⟩
      obtain ⟨host, hosts, hn, ht, rfl⟩ := List.forall₂_cons_left_iff.mp hs
      have he : k'.entries = (k.enter host key).entries ++ hosts.zip keys := by simpa [enter] using he
      have hnext : (k.enter host key).hosts.Nodup := by
        rw [Keymap.hosts, he, List.map_append] at hd
        exact hd.of_append_left
      exact ⟨host, hn, (nodup_hosts_enter.mp hnext).2, (ih hl hnext).mpr ⟨hosts, ht, hd, he⟩⟩

theorem fill_error {e : Error} (h : k.fill lowerCase keys texts = .error e) :
    ∃ k key, ∃ text ∈ texts, insert lowerCase k key text = .error e := by
  induction texts generalizing k keys with
  | nil =>
    rw [fill, List.zip_nil_right] at h
    cases h
  | cons text texts ih =>
    cases keys with
    | nil => cases h
    | cons key keys =>
      rw [fill_cons] at h
      cases hi : k.insert lowerCase key text with
      | error e' =>
        rw [hi] at h
        cases h
        exact ⟨k, key, text, List.mem_cons_self, hi⟩
      | ok next =>
        rw [hi] at h
        obtain ⟨k, key, text, hm, hi⟩ := ih h
        exact ⟨k, key, text, List.mem_cons_of_mem _ hm, hi⟩

theorem parse_eq (text : String) (lowerCase : Bool) : parse text lowerCase =
    if (Fields.split text.toList).length = 16
    then fill lowerCase ⟨[]⟩ (List.finRange 16) (Fields.split text.toList)
    else .error (.wrongCount (Fields.split text.toList).length) := by
  simp only [parse, ne_eq, ite_not]
  rfl

theorem parse_refusal {text : String} {e : Error} (h : parse text false = .error e) : e.Refusal := by
  rw [parse_eq] at h
  split at h
  · obtain ⟨_, _, _, -, hi⟩ := fill_error h
    exact insert_refusal hi
  · cases h
    exact .wrongCount _

theorem hosts_zip {hosts : List Int} (hl : hosts.length = 16)
    (he : k.entries = hosts.zip (List.finRange 16)) : k.hosts = hosts := by
  rw [Keymap.hosts, he]
  exact List.map_fst_zip (by rw [hl, List.length_finRange])

theorem parse_eq_ok_iff {text : String} : parse text lowerCase = .ok k ↔
    ∃ texts hosts, text.toList = Fields.join texts ∧ texts.length = 16 ∧
      List.Forall₂ (Names lowerCase) texts hosts ∧ hosts.Nodup ∧
      k.entries = hosts.zip (List.finRange 16) := by
  have hempty : (Keymap.mk []).hosts.Nodup := List.nodup_nil
  rw [parse_eq]
  constructor
  · intro h
    split at h
    case isTrue hl =>
      obtain ⟨hosts, hn, hd, he⟩ := (fill_eq_ok_iff (by rw [hl, List.length_finRange]) hempty).mp h
      rw [hosts_zip (hn.length_eq ▸ hl) he] at hd
      exact ⟨_, hosts, (Fields.join_split _).symm, hl, hn, hd, he⟩
    case isFalse => cases h
  · rintro ⟨texts, hosts, ht, hl, hn, hd, he⟩
    have hc : ∀ text ∈ texts, ',' ∉ text :=
      (List.forall₂_and_left texts hosts).mp (hn.imp fun _ _ h => ⟨h.comma_notMem, h⟩) |>.1
    have hs : Fields.split text.toList = texts := by
      rw [ht]
      exact Fields.split_join (List.ne_nil_of_length_eq_add_one hl) hc
    rw [hs, if_pos hl, fill_eq_ok_iff (by rw [hl, List.length_finRange]) hempty]
    exact ⟨hosts, hn, by rwa [hosts_zip (hn.length_eq ▸ hl) he], he⟩

/-- Sixteen different integers are read in any of their written forms, and every integer has one that does not
have more digits than are read. Nothing else is read: a keymap comes from sixteen entries that name different
host keys, which stand for the sixteen keys in order. Where numbers are not taken in lower case, every other
text is refused. -/
theorem parse_exact :
    (∀ (numbers : List Int) (texts : List (List Char)), numbers.length = 16 → numbers.Nodup →
      List.Forall₂ Numeral.Written numbers texts →
      parse (String.ofList (Fields.join texts)) false = .ok ⟨numbers.zip (List.finRange 16)⟩) ∧
    (∀ n : Int, (∃ text, Numeral.Written n text) ↔ n.natAbs < 10 ^ Numeral.maxDigits) ∧
    (∀ (text : String) (lowerCase : Bool) (k : Keymap), parse text lowerCase = .ok k ↔
      ∃ texts hosts, text.toList = Fields.join texts ∧ texts.length = 16 ∧
        List.Forall₂ (Names lowerCase) texts hosts ∧ hosts.Nodup ∧
        k.entries = hosts.zip (List.finRange 16)) ∧
    (∀ (text : String) (lowerCase : Bool) (k : Keymap), parse text lowerCase = .ok k →
      ∀ host key, k.key? host = some key ↔ (host, key) ∈ k.entries) ∧
    ∀ (text : String) (e : Error), parse text false = .error e → e.Refusal := by
  refine ⟨fun numbers texts hl hd hw => ?_, Numeral.exists_written_iff, fun _ _ _ => parse_eq_ok_iff,
    fun text lowerCase k h host key => ?_, fun _ _ => parse_refusal⟩
  · rw [parse_eq_ok_iff, String.toList_ofList]
    refine ⟨texts, numbers, rfl, hw.length_eq ▸ hl, ?_, hd, rfl⟩
    exact hw.flip.imp fun _ _ h => names_false_iff.mpr h
  · obtain ⟨texts, hosts, -, hl, hn, hd, he⟩ := parse_eq_ok_iff.mp h
    exact key?_eq_some_iff (by rwa [hosts_zip (hn.length_eq ▸ hl) he])

theorem parse_exact_spelled :
    (∃ k, parse " 120,+0049,5_0,-51,५२,113\t,119,101,97,115,100,122,99,114,102,118" false = .ok k ∧
      k.hosts = [120, 49, 50, -51, 52, 113, 119, 101, 97, 115, 100, 122, 99, 114, 102, 118] ∧
      (k.key? (-51)).map Fin.val = some 3) ∧
    ∃ e, parse "120,49" false = .error e ∧ e.Refusal := by
  obtain ⟨read, -, -, found, refused⟩ := parse_exact
  have hw : List.Forall₂ Numeral.Written
      [120, 49, 50, -51, 52, 113, 119, 101, 97, 115, 100, 122, 99, 114, 102, 118]
      (Fields.split " 120,+0049,5_0,-51,५२,113\t,119,101,97,115,100,122,99,114,102,118".toList) :=
    Numeral.forall₂_written_iff.mpr (by decide)
  have h := read _ _ rfl (by decide) hw
  rw [Fields.join_split, String.ofList_toList] at h
  have hkey := (found _ _ _ h (-51) 3).mpr (by decide)
  have hshort : parse "120,49" false = .error (.wrongCount 2) := rfl
  exact ⟨⟨_, h, rfl, by rw [hkey]; rfl⟩, _, hshort, refused _ _ hshort⟩

end Chip8.Keymap
