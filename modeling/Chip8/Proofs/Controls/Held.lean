import Mathlib.Data.List.Forall2
import Chip8.Controls.KeyEvents
import Chip8.Proofs.Keymap.Parse
import Chip8.Proofs.LastOf

namespace Chip8

namespace Keymap

variable {k : Keymap} {text : String} {lowerCase : Bool} {host : Int} {key : Fin 16}

theorem entries_of_parse (h : parse text lowerCase = .ok k) :
    k.hosts.Nodup ∧ k.entries.map (·.2) = List.finRange 16 := by
  obtain ⟨texts, hosts, -, hl, hn, hd, he⟩ := parse_eq_ok_iff.mp h
  have hlen : hosts.length = 16 := hn.length_eq ▸ hl
  constructor
  · rwa [hosts_zip hlen he]
  · rw [he]
    exact List.map_snd_zip (by rw [hlen, List.length_finRange])

theorem exists_host_of_parse (h : parse text lowerCase = .ok k) (key : Fin 16) :
    ∃ host, (host, key) ∈ k.entries := by
  have hm : key ∈ k.entries.map (·.2) := by
    rw [(entries_of_parse h).2]
    exact List.mem_finRange key
  obtain ⟨⟨host, _⟩, he, rfl⟩ := List.mem_map.mp hm
  exact ⟨host, he⟩

theorem key?_eq_some_iff_of_parse (h : parse text lowerCase = .ok k) (hm : (host, key) ∈ k.entries)
    (other : Int) : k.key? other = some key ↔ other = host := by
  obtain ⟨hhosts, hkeys⟩ := entries_of_parse h
  have hd : (k.entries.map (·.2)).Nodup := hkeys ▸ List.nodup_finRange 16
  rw [key?_eq_some_iff hhosts]
  constructor
  · intro ho
    exact (Prod.mk.inj (List.inj_on_of_nodup_map hd ho hm rfl)).1
  · rintro rfl
    exact hm

end Keymap

namespace KeyEvent

def Stops (event : KeyEvent) : Prop :=
  event = .quit ∨ event = .up KeyEvents.escape

/-- The event says anew whether the host key is held. Letting go of escape stops the program instead. -/
def Effective (host : Int) (event : KeyEvent) : Prop :=
  event = .down host ∨ event = .up host ∧ host ≠ KeyEvents.escape

def LastDown (host : Int) (events : List KeyEvent) : Prop :=
  ∃ before after, events = before ++ .down host :: after ∧ ∀ event ∈ after, ¬ event.Effective host

/-- The event is of no known type, or of a host key that stands for no key. -/
def Foreign (keymap : Keymap) (event : KeyEvent) : Prop :=
  event = .other ∨ ∃ host ∉ keymap.hosts, event = .down host ∨ event = .up host

theorem lastDown_iff {host : Int} {events : List KeyEvent} :
    LastDown host events ↔ LastOf (Effective host) (· = .down host) events := by
  constructor
  · rintro ⟨before, after, rfl, ha⟩
    exact ⟨before, _, after, rfl, .inl rfl, rfl, ha⟩
  · rintro ⟨before, _, after, rfl, -, rfl, ha⟩
    exact ⟨before, after, rfl, ha⟩

theorem lastDown_cons_iff {host : Int} {event : KeyEvent} {events : List KeyEvent} :
    LastDown host (event :: events) ↔
      LastDown host events ∨ event = .down host ∧ ∀ later ∈ events, ¬ later.Effective host := by
  have hd : event.Effective host ∧ event = .down host ↔ event = .down host :=
    and_iff_right_of_imp .inl
  rw [lastDown_iff, lastDown_iff, lastOf_cons_iff, hd]

end KeyEvent

namespace KeyEvents

open KeyEvent

variable {k : KeyEvents} {host : Int} {key : Fin 16} {event : KeyEvent} {events : List KeyEvent}

def polls : List (List KeyEvent) → KeyEvents → List Bool × KeyEvents
  | [], k => ([], k)
  | batch :: batches, k =>
    let (stop, k) := poll batch k
    let (stops, k) := polls batches k
    (stop :: stops, k)

theorem get_setHeld (k : KeyEvents) (host : Int) (down : Bool) (key : Fin 16) :
    (k.setHeld host down).held.get key =
      if k.keymap.key? host = some key then down else k.held.get key := by
  unfold setHeld
  cases hk : k.keymap.key? host with
  | none => rw [if_neg (by simp)]
  | some found =>
    have hget : (k.held.setIfInBounds found.val down).get key =
        if found.val = key.val then down else k.held.get key := Vector.getElem_setIfInBounds key.isLt
    simp only [hget, Option.some.injEq, Fin.ext_iff]

theorem keymap_setHeld (k : KeyEvents) (host : Int) (down : Bool) :
    (k.setHeld host down).keymap = k.keymap := by
  unfold setHeld
  split <;> rfl

theorem keymap_handle (k : KeyEvents) (event : KeyEvent) : (k.handle event).2.keymap = k.keymap := by
  cases event with
  | quit | other => rfl
  | down host => exact k.keymap_setHeld host true
  | up host =>
    by_cases he : host = escape
    · simp only [handle, if_pos he]
    · simp only [handle, if_neg he]
      exact k.keymap_setHeld host false

theorem handle_stop_iff (k : KeyEvents) (event : KeyEvent) : (k.handle event).1 = true ↔ event.Stops := by
  cases event with
  | quit => simp [handle, Stops]
  | down host => simp [handle, Stops]
  | up host => by_cases he : host = escape <;> simp [handle, Stops, he]
  | other => simp [handle, Stops]

theorem get_handle_iff (hk : ∀ other, k.keymap.key? other = some key ↔ other = host) :
    (k.handle event).2.held.get key = true ↔
      event = .down host ∨ k.held.get key = true ∧ ¬ event.Effective host := by
  cases event with
  | quit | other => simp [handle, Effective]
  | down other =>
    simp only [handle, get_setHeld, hk, Effective]
    by_cases ho : other = host <;> simp [ho]
  | up other =>
    by_cases he : other = escape
    · simp only [handle, if_pos he, Effective]
      by_cases ho : other = host
      · simp [← ho, he]
      · simp [ho]
    · simp only [handle, if_neg he, get_setHeld, hk, Effective]
      by_cases ho : other = host
      · simp [← ho, he]
      · simp [ho]

theorem handle_of_foreign (hf : event.Foreign k.keymap) : (k.handle event).2 = k := by
  have unmapped {host : Int} {down : Bool} (h : host ∉ k.keymap.hosts) : k.setHeld host down = k := by
    unfold setHeld
    rw [Keymap.key?_eq_none_iff.mpr h]
  rcases hf with rfl | ⟨host, hh, rfl | rfl⟩
  · rfl
  · exact unmapped hh
  · by_cases he : host = escape
    · simp only [handle, if_pos he]
    · simp only [handle, if_neg he]
      exact unmapped hh

theorem poll_cons (event : KeyEvent) (events : List KeyEvent) (k : KeyEvents) :
    poll (event :: events) k =
      ((k.handle event).1 || (poll events (k.handle event).2).1, (poll events (k.handle event).2).2) :=
  rfl

theorem poll_append (before after : List KeyEvent) (k : KeyEvents) :
    (poll (before ++ after) k).2 = (poll after (poll before k).2).2 := by
  induction before generalizing k with
  | nil => rfl
  | cons event before ih => exact ih (k.handle event).2

theorem poll_stop_iff : (poll events k).1 = true ↔ ∃ event ∈ events, event.Stops := by
  induction events generalizing k with
  | nil => simp [poll]
  | cons event events ih => simp only [poll_cons, Bool.or_eq_true, handle_stop_iff, ih, List.exists_mem_cons_iff]

theorem keymap_poll (events : List KeyEvent) (k : KeyEvents) : (poll events k).2.keymap = k.keymap := by
  induction events generalizing k with
  | nil => rfl
  | cons event events ih => exact (ih _).trans (k.keymap_handle event)

theorem get_poll_iff (hk : ∀ other, k.keymap.key? other = some key ↔ other = host) :
    (poll events k).2.held.get key = true ↔
      LastDown host events ∨ k.held.get key = true ∧ ∀ event ∈ events, ¬ event.Effective host := by
  induction events generalizing k with
  | nil => simp [poll, LastDown]
  | cons event events ih =>
    rw [poll_cons, ih (by rwa [keymap_handle]), get_handle_iff hk, lastDown_cons_iff, List.forall_mem_cons,
      or_and_right, or_assoc, and_assoc]

theorem polls_cons (batch : List KeyEvent) (batches : List (List KeyEvent)) (k : KeyEvents) :
    polls (batch :: batches) k =
      ((poll batch k).1 :: (polls batches (poll batch k).2).1, (polls batches (poll batch k).2).2) :=
  rfl

theorem polls_flatten (batches : List (List KeyEvent)) (k : KeyEvents) :
    (polls batches k).2 = (poll batches.flatten k).2 := by
  induction batches generalizing k with
  | nil => rfl
  | cons batch batches ih =>
    rw [List.flatten_cons, poll_append, ← ih, polls_cons]

theorem polls_answers (batches : List (List KeyEvent)) (k : KeyEvents) :
    List.Forall₂ (fun batch stop => stop = true ↔ ∃ event ∈ batch, event.Stops) batches
      (polls batches k).1 := by
  induction batches generalizing k with
  | nil => exact .nil
  | cons batch batches ih => exact .cons poll_stop_iff (ih (poll batch k).2)

theorem true_mem_polls_iff {batches : List (List KeyEvent)} :
    true ∈ (polls batches k).1 ↔ ∃ event ∈ batches.flatten, event.Stops := by
  induction batches generalizing k with
  | nil => simp [polls]
  | cons batch batches ih =>
    rw [polls_cons, List.mem_cons, ih, eq_comm, poll_stop_iff, List.flatten_cons]
    simp only [List.mem_append, or_and_right, exists_or]

theorem polls_append (earlier later : List (List KeyEvent)) (k : KeyEvents) :
    polls (earlier ++ later) k =
      ((polls earlier k).1 ++ (polls later (polls earlier k).2).1, (polls later (polls earlier k).2).2) := by
  induction earlier generalizing k with
  | nil => rfl
  | cons batch earlier ih =>
    rw [List.cons_append, polls_cons, polls_cons, ih]
    rfl

theorem poll_of_foreign (before after : List KeyEvent) (hf : event.Foreign k.keymap) :
    (poll (before ++ event :: after) k).2 = (poll (before ++ after) k).2 ∧
      (event ≠ .up escape → (poll (before ++ event :: after) k).1 = (poll (before ++ after) k).1) := by
  constructor
  · have hh : ((poll before k).2.handle event).2 = (poll before k).2 :=
      handle_of_foreign (by rwa [keymap_poll])
    rw [poll_append, poll_append, poll_cons, hh]
  · intro he
    have hs : ¬ event.Stops := by
      rintro (rfl | rfl)
      · obtain hq | ⟨_, -, hq | hq⟩ := hf <;> cases hq
      · exact he rfl
    rw [Bool.eq_iff_iff, poll_stop_iff, poll_stop_iff]
    simp only [List.mem_append, List.mem_cons, or_and_right, exists_or, exists_eq_left, hs, false_or]

/-- A key is held if of all events that are effective for its host key, in all batches, the last is its going down.
A poll tells whether its own batch holds an event that stops the program, and that event keeps none after it from
being handled. How the events are cut into batches changes neither the keys nor whether some poll stops the
program, and events of unknown types or of host keys that stand for no key may be left out, but that escape still
stops the program. -/
theorem held_by_last_event {text : String} {lowerCase : Bool} {keymap : Keymap}
    (h : Keymap.parse text lowerCase = .ok keymap) (batches : List (List KeyEvent)) :
    (∀ key, (∃ host, (host, key) ∈ keymap.entries) ∧ ∀ host, (host, key) ∈ keymap.entries →
      ((polls batches (start keymap)).2.held.get key = true ↔ LastDown host batches.flatten)) ∧
    List.Forall₂ (fun batch stop => stop = true ↔ ∃ event ∈ batch, event.Stops) batches
      (polls batches (start keymap)).1 ∧
    (∀ others : List (List KeyEvent), others.flatten = batches.flatten →
      (polls others (start keymap)).2 = (polls batches (start keymap)).2 ∧
        (true ∈ (polls others (start keymap)).1 ↔ true ∈ (polls batches (start keymap)).1)) ∧
    ∀ earlier before event after later, batches = earlier ++ (before ++ event :: after) :: later →
      event.Foreign keymap →
        (polls (earlier ++ (before ++ after) :: later) (start keymap)).2 = (polls batches (start keymap)).2 ∧
          (event ≠ .up escape →
            polls (earlier ++ (before ++ after) :: later) (start keymap) = polls batches (start keymap)) := by
  refine ⟨fun key => ⟨Keymap.exists_host_of_parse h key, fun host hm => ?_⟩, polls_answers _ _,
    fun others ho => ⟨?_, ?_⟩, ?_⟩
  · have hstart : (start keymap).held.get key = false := Vector.getElem_replicate key.isLt
    rw [polls_flatten, get_poll_iff (Keymap.key?_eq_some_iff_of_parse h hm), hstart]
    simp
  · rw [polls_flatten, polls_flatten, ho]
  · rw [true_mem_polls_iff, true_mem_polls_iff, ho]
  · rintro earlier before event after later rfl hf
    have hk : (polls earlier (start keymap)).2.keymap = keymap := by
      rw [polls_flatten, keymap_poll]
      rfl
    obtain ⟨hkeys, hstop⟩ := poll_of_foreign (k := (polls earlier (start keymap)).2) before after (hk ▸ hf)
    simp only [polls_append, polls_cons, hkeys, true_and]
    intro he
    rw [hstop he]

theorem held_by_last_event_of_escape :
    ∃ keymap key other,
      Keymap.parse "27,49,50,51,113,119,101,97,115,100,122,99,52,114,102,118" false = .ok keymap ∧
      (27, key) ∈ keymap.entries ∧ (49, other) ∈ keymap.entries ∧
      let polled := polls [[.down 27, .quit, .down 49, .up 27], [.up 49, .other]] (start keymap)
      polled.2.held.get key = true ∧ polled.2.held.get other = false ∧ polled.1 = [true, false] := by
  obtain ⟨keymap, h, key, hkey, other, hother⟩ : ∃ keymap,
      Keymap.parse "27,49,50,51,113,119,101,97,115,100,122,99,52,114,102,118" false = .ok keymap ∧
        ∃ key, (27, key) ∈ keymap.entries ∧ ∃ other, (49, other) ∈ keymap.entries :=
    ⟨_, rfl, _, .head _, _, .tail _ (.head _)⟩
  obtain ⟨held, answers, -⟩ :=
    held_by_last_event h [[.down 27, .quit, .down 49, .up 27], [.up 49, .other]]
  refine ⟨keymap, key, other, h, hkey, hother, ?_, ?_, ?_⟩
  · refine ((held key).2 27 hkey).mpr ⟨[], _, rfl, ?_⟩
    simp [Effective, escape]
  · rw [Bool.eq_false_iff, ne_eq, (held other).2 49 hother]
    simp only [List.flatten_cons, List.flatten_nil, List.cons_append, List.nil_append, lastDown_cons_iff]
    simp [LastDown, Effective, escape]
  · generalize (polls [[.down 27, .quit, .down 49, .up 27], [.up 49, .other]] (start keymap)).1 = stops at answers
    obtain ⟨first, _, hfirst, hrest, rfl⟩ := List.forall₂_cons_left_iff.mp answers
    obtain ⟨second, _, hsecond, hnil, rfl⟩ := List.forall₂_cons_left_iff.mp hrest
    cases hnil
    have hs : second = false := by simpa [Stops, escape] using hsecond
    rw [hfirst.mpr ⟨.quit, by simp, .inl rfl⟩, hs]

end KeyEvents

end Chip8
