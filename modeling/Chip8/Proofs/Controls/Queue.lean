import Mathlib.Logic.Relation
import Chip8.Controls.Typing

namespace Chip8

namespace Text.LetterCase

theorem lowerCode_eq_of_lt (code : Nat) (h : code < 65 ∨ lowerCode code < 65) : lowerCode code = code := by
  -- no capital is below A, nor is its small letter
  have hruns : ∀ r ∈ runs, 65 ≤ r.first ∧ 65 ≤ r.first + r.shift := by decide +kernel
  rw [lowerCode] at h ⊢
  split at h
  · next r hr =>
    obtain ⟨hfirst, hshift⟩ := hruns r (List.mem_of_find?_eq_some hr)
    have hholds := List.find?_some hr
    simp only [Run.holds, Bool.and_eq_true, decide_eq_true_eq] at hholds
    omega
  · rfl

theorem lower_eq_ok {code lowered : Int} (h : lower code = .ok lowered) :
    0 ≤ code ∧ lowered = lowerCode code.toNat := by
  rw [lower] at h
  split at h
  · cases h
  · split at h
    · cases h
    · split at h <;> cases h
      exact ⟨by omega, rfl⟩

theorem lower_of_neg {code : Int} (h : code < 0) : (lower code).toOption = none := by
  rw [lower]
  split
  · rfl
  · rw [if_pos (.inl h)]
    rfl

end Text.LetterCase

namespace Typing

open Relation (ReflTransGen)

def put? (k : Keymap) : Int × Nat → Option Typed
  | (code, queued) =>
    if code ∈ quitCodes then some .quit
    else if queued < queueSize then ((Text.LetterCase.lower code).toOption.bind k.key?).map .key
    else none

structure Poll where
  release : Float
  /-- What was queued when it began. -/
  found : List Typed
  taken : List Typed
  /-- The answer and what was queued then, unless the poll is under way. -/
  answer : Option (Bool × List Typed)

structure Traffic where
  typing : Typing
  /-- The numbers handled, each with how many entries were queued at that time. -/
  handled : List (Int × Nat)
  /-- The latest first. -/
  polls : List Poll

inductive Step : Traffic → Traffic → Prop where
  | read {t t' : Typing} {handled : List (Int × Nat)} {polls : List Poll} {code : Int} {ended : Bool}
      (hr : t.readCode code = .ok (ended, t')) (hq : code ∈ quitCodes → t.queue.length < queueSize) :
      Step ⟨t, handled, polls⟩ ⟨t', handled ++ [(code, t.queue.length)], polls⟩
  | call {t : Typing} {handled : List (Int × Nat)} {polls : List Poll} (now : Float)
      (hi : ∀ p ∈ polls, p.answer ≠ none) :
      Step ⟨t, handled, polls⟩ ⟨t, handled, ⟨now + holdTime, t.queue, [], none⟩ :: polls⟩
  | take {t : Typing} {handled : List (Int × Nat)} {polls : List Poll} {release : Float}
      {found taken queue : List Typed} {entry : Typed} {stop : Bool} {held : Vector Float 16}
      (hq : t.queue = entry :: queue) (hd : drain release [entry] t.heldUntil = (stop, [], held)) :
      Step ⟨t, handled, ⟨release, found, taken, none⟩ :: polls⟩
        ⟨{ t with queue, heldUntil := held }, handled,
          ⟨release, found, taken ++ [entry], if stop then some (true, queue) else none⟩ :: polls⟩
  | empty {t : Typing} {handled : List (Int × Nat)} {polls : List Poll} {release : Float}
      {found taken : List Typed} (hq : t.queue = []) :
      Step ⟨t, handled, ⟨release, found, taken, none⟩ :: polls⟩
        ⟨t, handled, ⟨release, found, taken, some (false, [])⟩ :: polls⟩

def releaseOf (key : Fin 16) (polls : List Poll) : Float :=
  ((polls.find? fun p => .key key ∈ p.taken).map Poll.release).getD 0

/-- What a poll took and what it left when it returned: all keys up to a request to stop, which it took as
well, or else all there was. -/
structure Answers (stop : Bool) (taken left : List Typed) : Prop where
  stops : stop = true ↔ .quit ∈ taken ++ left
  upTo : stop = true → ∃ keys : List (Fin 16), taken = keys.map .key ++ [.quit]
  all : stop = false → left = []

structure Poll.Fair (p : Poll) (queue : List Typed) : Prop where
  underWay : p.answer = none → p.found <+: p.taken ++ queue ∧ ∃ keys : List (Fin 16), p.taken = keys.map .key
  returned : ∀ stop left, p.answer = some (stop, left) →
    p.found <+: p.taken ++ left ∧ Answers stop p.taken left

structure Accounted (k : Keymap) (r : Traffic) : Prop where
  keymap : r.typing.keymap = k
  bounded : r.typing.queue.length ≤ queueSize
  order : r.polls.reverse.flatMap Poll.taken ++ r.typing.queue = r.handled.filterMap (put? k)
  held : ∀ key, r.typing.heldUntil.get key = releaseOf key r.polls
  fair : ∀ p ∈ r.polls, p.Fair r.typing.queue
  earlier : ∀ p ∈ r.polls.tail, p.answer ≠ none

variable {k : Keymap} {r r' : Traffic} {t t' : Typing} {handled : List (Int × Nat)} {p : Poll}
  {polls : List Poll} {release : Float} {found taken queue queue' : List Typed} {code : Int} {ended : Bool}

theorem mem_quitCodes_iff {lowered : Int} (h : Text.LetterCase.lower code = .ok lowered) :
    lowered ∈ quitCodes ↔ code ∈ quitCodes := by
  obtain ⟨hcode, rfl⟩ := Text.LetterCase.lower_eq_ok h
  have heq := Text.LetterCase.lowerCode_eq_of_lt code.toNat
  simp only [quitCodes, List.mem_cons, List.not_mem_nil, or_false]
  omega

theorem readCode_isOk (t : Typing) (h : code < 0 ∨ ∃ lowered, Text.LetterCase.lower code = .ok lowered) :
    ∃ ended t', t.readCode code = .ok (ended, t') := by
  rw [readCode]
  split
  · exact ⟨_, _, rfl⟩
  · next hn =>
    obtain ⟨lowered, hl⟩ := h.resolve_left hn
    rw [hl]
    exact ⟨_, _, rfl⟩

theorem eq_of_readCode (h : t.readCode code = .ok (ended, t')) :
    t' = { t with queue := t.queue ++ (put? t.keymap (code, t.queue.length)).toList } := by
  rw [readCode] at h
  split at h
  · next hn =>
    cases h
    have hq : code ∉ quitCodes := by
      simp only [quitCodes, List.mem_cons, List.not_mem_nil, or_false]
      omega
    simp [put?, hq, Text.LetterCase.lower_of_neg hn]
  · cases hl : Text.LetterCase.lower code with
    | error e =>
      rw [hl] at h
      cases h
    | ok lowered =>
      have hq := mem_quitCodes_iff hl
      rw [hl] at h
      simp only [Except.map, List.contains_iff_mem, hq, Except.ok.injEq] at h
      simp only [put?, hl, Except.toOption, Option.bind_some]
      by_cases hc : code ∈ quitCodes
      · rw [if_pos hc] at h ⊢
        cases h
        rfl
      · rw [if_neg hc] at h ⊢
        cases hkey : t.keymap.key? lowered with
        | none =>
          rw [hkey] at h
          cases h
          simp
        | some key =>
          rw [hkey] at h
          by_cases hfull : t.queue.length < queueSize
          · simp only [if_pos hfull] at h ⊢
            cases h
            rfl
          · simp only [if_neg hfull] at h ⊢
            cases h
            simp

theorem taken_cons (p : Poll) (polls : List Poll) :
    (p :: polls).reverse.flatMap Poll.taken = polls.reverse.flatMap Poll.taken ++ p.taken := by
  rw [List.reverse_cons, List.flatMap_append, List.flatMap_singleton]

theorem releaseOf_cons (key : Fin 16) (p : Poll) (polls : List Poll) :
    releaseOf key (p :: polls) = if .key key ∈ p.taken then p.release else releaseOf key polls := by
  rw [releaseOf, List.find?_cons]
  by_cases h : .key key ∈ p.taken
  · simp [h]
  · simp [h, releaseOf]

theorem Poll.Fair.of_returned (h : p.Fair queue) (ha : p.answer ≠ none) : p.Fair queue' :=
  ⟨fun hn => absurd hn ha, h.returned⟩

theorem Poll.Fair.append (h : p.Fair queue) (more : List Typed) : p.Fair (queue ++ more) := by
  refine ⟨fun hn => ?_, h.returned⟩
  obtain ⟨hfound, hkeys⟩ := h.underWay hn
  rw [← List.append_assoc]
  exact ⟨hfound.trans (List.prefix_append _ _), hkeys⟩

theorem Accounted.read (h : Accounted k ⟨t, handled, polls⟩) (hr : t.readCode code = .ok (ended, t'))
    (hq : code ∈ quitCodes → t.queue.length < queueSize) :
    Accounted k ⟨t', handled ++ [(code, t.queue.length)], polls⟩ := by
  obtain rfl := eq_of_readCode hr
  have hk : t.keymap = k := h.keymap
  refine ⟨hk, ?_, ?_, h.held, fun p hp => (h.fair p hp).append _, h.earlier⟩
  · have hb : t.queue.length ≤ queueSize := h.bounded
    rw [List.length_append, put?]
    split
    · next hc => exact hq hc
    · split
      · next hlt => cases (Text.LetterCase.lower code).toOption.bind t.keymap.key? <;> simp <;> omega
      · exact hb
  · have horder := h.order
    rw [← List.append_assoc, horder, hk, List.filterMap_append]
    rfl

theorem Accounted.call (h : Accounted k ⟨t, handled, polls⟩) (hi : ∀ p ∈ polls, p.answer ≠ none)
    (release : Float) : Accounted k ⟨t, handled, ⟨release, t.queue, [], none⟩ :: polls⟩ := by
  refine ⟨h.keymap, h.bounded, ?_, fun key => ?_, ?_, hi⟩
  · rw [taken_cons, List.append_nil]
    exact h.order
  · rw [releaseOf_cons, if_neg List.not_mem_nil]
    exact h.held key
  · exact List.forall_mem_cons.mpr ⟨⟨fun _ => ⟨List.prefix_rfl, [], rfl⟩, nofun⟩, h.fair⟩

theorem Accounted.empty (h : Accounted k ⟨t, handled, ⟨release, found, taken, none⟩ :: polls⟩)
    (hq : t.queue = []) :
    Accounted k ⟨t, handled, ⟨release, found, taken, some (false, [])⟩ :: polls⟩ := by
  obtain ⟨hfound, keys, rfl⟩ := (h.fair _ List.mem_cons_self).underWay rfl
  refine ⟨h.keymap, h.bounded, ?_, fun key => ?_, ?_, h.earlier⟩
  · have horder := h.order
    rw [taken_cons] at horder ⊢
    exact horder
  · have hheld := h.held key
    rw [releaseOf_cons] at hheld ⊢
    exact hheld
  · refine List.forall_mem_cons.mpr ⟨⟨nofun, ?_⟩, fun p hp => h.fair p (List.mem_cons_of_mem _ hp)⟩
    rintro stop left ⟨⟩
    rw [hq] at hfound
    exact ⟨hfound, ⟨by simp, nofun, fun _ => rfl⟩⟩

theorem Accounted.take {entry : Typed} {stop : Bool} {held : Vector Float 16}
    (h : Accounted k ⟨t, handled, ⟨release, found, taken, none⟩ :: polls⟩)
    (hq : t.queue = entry :: queue) (hd : drain release [entry] t.heldUntil = (stop, [], held)) :
    Accounted k ⟨{ t with queue, heldUntil := held }, handled,
      ⟨release, found, taken ++ [entry], if stop then some (true, queue) else none⟩ :: polls⟩ := by
  obtain ⟨hfound, keys, rfl⟩ := (h.fair _ List.mem_cons_self).underWay rfl
  have hkey (key : Fin 16) := h.held key
  simp only [releaseOf_cons] at hkey
  rw [hq, List.append_cons] at hfound
  have hlen : queue.length ≤ queueSize := by
    have hb : t.queue.length ≤ queueSize := h.bounded
    rw [hq, List.length_cons] at hb
    omega
  have horder := h.order
  rw [taken_cons, hq, List.append_assoc] at horder
  have htail (p : Poll) (hp : p ∈ polls) : p.Fair queue :=
    (h.fair p (List.mem_cons_of_mem _ hp)).of_returned (h.earlier p hp)
  refine ⟨h.keymap, hlen, ?_, ?_, List.forall_mem_cons.mpr ⟨?_, htail⟩, h.earlier⟩
  · rw [taken_cons, List.append_assoc, List.append_assoc]
    exact horder
  · intro key
    rw [releaseOf_cons]
    cases entry with
    | quit =>
      cases hd
      simpa using hkey key
    | key last =>
      cases hd
      have hget : (t.heldUntil.set last.val release last.isLt).get key =
          if last = key then release else t.heldUntil.get key := by
        simp only [Fin.ext_iff]
        exact Vector.getElem_set last.isLt key.isLt
      rw [hget, hkey key]
      by_cases he : last = key
      · simp [he]
      · simp [he, Ne.symm he]
  · cases entry with
    | quit =>
      cases hd
      refine ⟨nofun, ?_⟩
      rintro stop left ⟨⟩
      exact ⟨hfound, ⟨by simp, fun _ => ⟨keys, rfl⟩, nofun⟩⟩
    | key last =>
      cases hd
      exact ⟨fun _ => ⟨hfound, keys ++ [last], by simp⟩, nofun⟩

theorem Step.accounted (hs : Step r r') (h : Accounted k r) : Accounted k r' := by
  cases hs with
  | read hr hq => exact h.read hr hq
  | call now hi => exact h.call hi (now + holdTime)
  | take hq hd => exact h.take hq hd
  | empty hq => exact h.empty hq

theorem accounted_start (k : Keymap) : Accounted k ⟨start k, [], []⟩ :=
  ⟨rfl, Nat.zero_le _, rfl, fun key => Vector.getElem_replicate key.isLt, nofun, nofun⟩

theorem accounted_of_steps (hr : ReflTransGen Step ⟨start k, [], []⟩ r) : Accounted k r := by
  induction hr with
  | refl => exact accounted_start k
  | tail _ hs ih => exact hs.accounted ih

theorem steps_drain (handled : List (Int × Nat)) (polls : List Poll) (release : Float)
    (found taken : List Typed) (hq : t.queue = queue) :
    let drained := drain release queue t.heldUntil
    ∃ more, more ++ drained.2.1 = queue ∧
      ReflTransGen Step ⟨t, handled, ⟨release, found, taken, none⟩ :: polls⟩
        ⟨{ t with queue := drained.2.1, heldUntil := drained.2.2 }, handled,
          ⟨release, found, taken ++ more, some (drained.1, drained.2.1)⟩ :: polls⟩ := by
  -- over what has been taken already, to which each entry adds itself
  induction queue generalizing t taken with
  | nil =>
    obtain ⟨keymap, _, heldUntil, stopped⟩ := t
    obtain rfl := hq
    refine ⟨[], rfl, ?_⟩
    rw [List.append_nil]
    exact .single (.empty rfl)
  | cons entry queue ih =>
    cases entry with
    | quit => exact ⟨[.quit], rfl, .single (.take hq rfl)⟩
    | key key =>
      let t' : Typing := { t with queue, heldUntil := t.heldUntil.set key.val release key.isLt }
      obtain ⟨more, hmore, hsteps⟩ := ih (t := t') (taken ++ [.key key]) rfl
      rw [List.append_assoc] at hsteps
      exact ⟨.key key :: more, congrArg _ hmore, .head (.take hq rfl) hsteps⟩

theorem steps_poll (t : Typing) (handled : List (Int × Nat)) (hi : ∀ p ∈ polls, p.answer ≠ none)
    (now : Float) :
    let polled := t.poll now
    ∃ taken, taken ++ polled.2.queue = t.queue ∧
      ReflTransGen Step ⟨t, handled, polls⟩
        ⟨polled.2, handled,
          ⟨now + holdTime, t.queue, taken, some (polled.1, polled.2.queue)⟩ :: polls⟩ := by
  obtain ⟨taken, htaken, hsteps⟩ := steps_drain handled polls (now + holdTime) t.queue [] (t := t) rfl
  exact ⟨taken, htaken, .head (.call now hi) hsteps⟩

/-- However the steps of a reader and of polls are mixed, the queue stays within its size, and what was taken
out of it together with what is left is what the numbers handled put in, in their order. A poll that returned
took all that was queued meanwhile up to a request to stop, and tells whether there was one. A key counts as held
up to the release time of the latest poll that took it. The reader copes with all numbers that mean nothing or
have a lower case, and a poll that nothing comes between is one way for the steps to go. -/
theorem taken_then_queued (hr : ReflTransGen Step ⟨start k, [], []⟩ r) :
    r.typing.queue.length ≤ queueSize ∧
    r.polls.reverse.flatMap Poll.taken ++ r.typing.queue = r.handled.filterMap (put? k) ∧
    (∀ p ∈ r.polls, ∀ stop left, p.answer = some (stop, left) →
      p.found <+: p.taken ++ left ∧ Answers stop p.taken left) ∧
    (∀ key, r.typing.heldUntil.get key = releaseOf key r.polls) ∧
    (∀ code, (code < 0 ∨ ∃ lowered, Text.LetterCase.lower code = .ok lowered) →
      ∃ ended t, r.typing.readCode code = .ok (ended, t)) ∧
    ((∀ p ∈ r.polls, p.answer ≠ none) → ∀ now, let polled := r.typing.poll now
      ∃ taken, taken ++ polled.2.queue = r.typing.queue ∧ Answers polled.1 taken polled.2.queue ∧
        ReflTransGen Step r ⟨polled.2, r.handled,
          ⟨now + holdTime, r.typing.queue, taken, some (polled.1, polled.2.queue)⟩ :: r.polls⟩) := by
  have h := accounted_of_steps hr
  refine ⟨h.bounded, h.order, fun p hp => (h.fair p hp).returned, h.held,
    fun code hc => readCode_isOk r.typing hc, fun hi now => ?_⟩
  obtain ⟨taken, htaken, hsteps⟩ := steps_poll r.typing r.handled hi now
  have hfair := (accounted_of_steps (hr.trans hsteps)).fair _ List.mem_cons_self
  exact ⟨taken, htaken, (hfair.returned _ _ rfl).2, hsteps⟩

theorem taken_then_queued_stopped :
    ∃ k key r, Keymap.parse Keymap.defaultText true = .ok k ∧ k.key? 120 = some key ∧
      ReflTransGen Step ⟨start k, [], []⟩ r ∧ r.handled = [(88, 0), (27, 1)] ∧
      r.polls.map Poll.answer = [some (true, [])] ∧
      r.polls.reverse.flatMap Poll.taken ++ r.typing.queue = [.key key, .quit] ∧
      r.typing.heldUntil.get key = 1 + holdTime := by
  obtain ⟨k, hk, key, hkey⟩ : ∃ k, Keymap.parse Keymap.defaultText true = .ok k ∧
      ∃ key, k.key? 120 = some key := ⟨_, rfl, _, rfl⟩
  have hlower : Text.LetterCase.lower 88 = .ok 120 := rfl
  obtain ⟨r, hr, hhandled, hpolls⟩ : ∃ r, ReflTransGen Step ⟨start k, [], []⟩ r ∧
      r.handled = [(88, 0), (27, 1)] ∧
      r.polls = [⟨1 + holdTime, [.key key], [.key key, .quit], some (true, [])⟩] := by
    have hx : (start k).readCode 88 = .ok (false, (start k).enqueue (.key key)) := by
      simp [readCode, hlower, start, hkey, quitCodes, queueSize, Except.map]
    have hquit (t : Typing) : t.readCode 27 = .ok (true, t.enqueue .quit) := rfl
    have hroom : 1 < queueSize := by decide
    have htyped : ReflTransGen Step ⟨start k, [], []⟩ ⟨(start k).enqueue (.key key), [(88, 0)], []⟩ :=
      .single (.read hx nofun)
    have hpoll := (htyped.tail (.call 1 nofun)).tail (.read (hquit _) fun _ => hroom)
    exact ⟨_, (hpoll.tail (.take rfl rfl)).tail (.take rfl rfl), rfl, rfl⟩
  obtain ⟨-, horder, -, hheld, -⟩ := taken_then_queued hr
  refine ⟨k, key, r, hk, hkey, hr, hhandled, ?_, ?_, ?_⟩
  · rw [hpolls]
    rfl
  · rw [horder, hhandled]
    simp [put?, hlower, hkey, quitCodes, queueSize, Except.toOption]
  · rw [hheld, hpolls, releaseOf_cons, if_pos List.mem_cons_self]

end Typing

end Chip8
