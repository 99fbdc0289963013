import Chip8.Proofs.Cycle.Outcome
import Chip8.Proofs.Host.Loop
import Chip8.Proofs.Machine.Valid

namespace Chip8.Host

variable {σ τ : Type} {p : Processor} {c : Controls σ} {clock : Clock} {r next r' final : Run σ}
  {log : List Event} {result : Except CycleError Unit} {held : KeyStates} {session : Session} {n : Nat}

/-- From one state of a run to another, cycles with the keys that the log says were asked for. -/
structure Follows (p : Processor) (c : Controls σ) (r : Run σ) (log : List Event)
    (result : Except CycleError Unit) (r' : Run σ) : Prop where
  logged : r'.log.toList = r.log.toList ++ log
  count : log.count .cycle = (c.answers r.controls log).length
  ends : p.Ends r.host.session (c.answers r.controls log) result r'.host.session

theorem Follows.none : Follows p c r [] (.ok ()) r where
  logged := (List.append_nil _).symm
  count := rfl
  ends := .returned rfl

theorem Last.follows (hl : Last p c clock r result final) : ∃ log, Follows p c r log result final := by
  cases hl with
  | @stopped _ _ log ht =>
    have hturn := turn_turned p c (clock r.readings) r.host r.controls
    rw [ht] at hturn
    cases hturn with
    | stopped hs hq =>
      refine ⟨log, Array.toList_append, ?_, ?_⟩
      · rw [answers_of_quiet hq, count_cycle_of_quiet hq, List.length_nil]
      · rw [answers_of_quiet hq, hs]
        exact .returned rfl
  | @failed _ _ log _ ht =>
    have hturn := turn_turned p c (clock r.readings) r.host r.controls
    rw [ht] at hturn
    cases hturn with
    | failed hc ha hn =>
      refine ⟨log, Array.toList_append, ?_, ?_⟩
      · rw [ha, hn, List.length_singleton]
      · have hnone : p.runKeyed [] r.host.session = .ok () r.host.session := rfl
        rw [ha]
        exact .failed hnone hc

theorem Next.follows (hn : Next p c clock r next) (hf : Follows p c next log result final) :
    ∃ more, Follows p c r more result final ∧ more.count .cycle = log.count .cycle + 1 := by
  cases hn with
  | @completed _ controls events _ ht =>
    have hturn := turn_turned p c (clock r.readings) r.host r.controls
    rw [ht] at hturn
    cases hturn with
    | @completed _ _ _ held hc ha hs hn =>
      have ha : c.answers r.controls (events ++ log) = held :: c.answers controls log := by
        rw [Controls.answers_append, ha, hs, List.singleton_append]
      have hn : (events ++ log).count .cycle = log.count .cycle + 1 := by
        rw [List.count_append, hn, Nat.add_comm]
      refine ⟨events ++ log, ⟨?_, ?_, ?_⟩, hn⟩
      · rw [hf.logged, Array.toList_append, List.append_assoc]
      · rw [hn, ha, List.length_cons, hf.count]
      · rw [ha]
        exact hf.ends.cons hc

theorem Turns.follows (ht : Turns p c clock r n r') (hf : Follows p c r' log result final) :
    ∃ more, Follows p c r more result final ∧ more.count .cycle = log.count .cycle + n := by
  induction ht with
  | none => exact ⟨log, hf, rfl⟩
  | next hn _ ih =>
    obtain ⟨more, hm, hcount⟩ := ih hf
    obtain ⟨all, ha, hall⟩ := hn.follows hm
    exact ⟨all, ha, by omega⟩

theorem run_follows {fuel : Nat} (hr : run p c clock fuel r = some (result, final)) :
    ∃ log, Follows p c r log result final := by
  obtain ⟨n, r', ht, hl⟩ := run_turns hr
  obtain ⟨log, hf⟩ := hl.follows
  obtain ⟨more, hm, -⟩ := ht.follows hf
  exact ⟨more, hm⟩

/-- A session that a host comes to, and how many cycles have been run by then: between two turns, or when
the run has ended. -/
inductive Reached (p : Processor) (c : Controls σ) (clock : Clock) (r : Run σ) : Nat → Session → Prop where
  | between {n : Nat} {r' : Run σ} (h : Turns p c clock r n r') : Reached p c clock r n r'.host.session
  | ended {fuel n : Nat} {result : Except CycleError Unit} {final : Run σ}
      (h : run p c clock fuel r = some (result, final))
      (hn : final.log.toList.count .cycle = r.log.toList.count .cycle + n) :
      Reached p c clock r n final.host.session

theorem Reached.follows (h : Reached p c clock r n session) :
    ∃ log result final, Follows p c r log result final ∧ final.host.session = session ∧
      log.count .cycle = n := by
  cases h with
  | between h =>
    obtain ⟨log, hf, hn⟩ := h.follows .none
    exact ⟨log, _, _, hf, rfl, hn.trans (Nat.zero_add n)⟩
  | ended h hn =>
    obtain ⟨log, hf⟩ := run_follows h
    rw [hf.logged, List.count_append] at hn
    exact ⟨log, _, _, hf, rfl, Nat.add_left_cancel hn⟩

theorem answers_of_constant {s : σ} (hk : ∀ s, c.keys s = held) :
    c.answers s log = List.replicate (c.answers s log).length held := by
  induction log generalizing s with
  | nil => rfl
  | cons e log ih =>
    cases e with
    | keys =>
      rw [Controls.answers, hk]
      exact congrArg (held :: ·) ih
    | report | poll | shown | cycle => exact ih

theorem Reached.ends (h : Reached p c clock r n session) (hk : ∀ s, c.keys s = held) :
    ∃ result, p.Ends r.host.session (List.replicate n held) result session := by
  obtain ⟨log, result, final, hf, rfl, hn⟩ := h.follows
  refine ⟨result, ?_⟩
  rw [← hn, hf.count, ← answers_of_constant hk]
  exact hf.ends

/-- Whatever the clock and the speed, a run that ends leaves the session as cycles without a host do,
each after the keys that were held then, and fails with the same error if it fails. The sessions of two
hosts whose keys never change, and are the same, are therefore equal after equal numbers of cycles. -/
theorem run_hostless (p : Processor) (c : Controls σ) (clock : Clock) (r : Run σ) :
    (∀ fuel result final, run p c clock fuel r = some (result, final) →
      ∃ log, final.log.toList = r.log.toList ++ log ∧
        log.count .cycle = (c.answers r.controls log).length ∧
        p.Ends r.host.session (c.answers r.controls log) result final.host.session) ∧
    ∀ (c' : Controls τ) (clock' : Clock) (r' : Run τ) (held : KeyStates),
      (∀ s, c.keys s = held) → (∀ s, c'.keys s = held) → r.host.session = r'.host.session →
      ∀ n session session', Reached p c clock r n session → Reached p c' clock' r' n session' →
        session = session' := by
  constructor
  · intro fuel result final hr
    obtain ⟨log, hf⟩ := run_follows hr
    exact ⟨log, hf.logged, hf.count, hf.ends⟩
  · intro c' clock' r' held hk hk' hs n session session' h h'
    obtain ⟨_, he⟩ := h.ends hk
    obtain ⟨_, he'⟩ := h'.ends hk'
    rw [← hs] at he'
    exact (he.unique he').2

def jumping (interval : Option Float) (keypad : Keypad) : Host where
  session := Session.start { Machine.initial with
    memory := (Memory.zero _).overlay 0x200 [0x12, 0x00], keypad }
  shown := Screen.blank _ _
  interval := interval
  nextFrame := 1
  nextReport := 1
  frames := 0
  cycles := 0

theorem run_hostless_jumping :
    let p : Processor := ⟨fun _ => -1, false⟩
    let c := Controls.scripted [[5]] 1
    let c' : Controls Unit := { poll := fun _ => (false, ()), keys := fun _ => c.keys 0 }
    let r : Run Nat := ⟨jumping none Keypad.released, 0, 0, #[]⟩
    let r' : Run Unit := ⟨jumping (some 1) Keypad.released, (), 0, #[]⟩
    (∃ final log, run p c Float.ofNat 2 r = some (.ok (), final) ∧
      p.Ends r.host.session (c.answers 0 log) (.ok ()) final.host.session) ∧
    ∃ session, Reached p c Float.ofNat r 1 session ∧ Reached p c' Float.ofNat r' 1 session := by
  intro p c c' r r'
  have hcycle (held : KeyStates) (interval : Option Float) :
      p.keyedCycle held (jumping interval Keypad.released).session =
        .ok () (jumping interval ⟨held⟩).session := by
    have hf : (jumping interval ⟨held⟩).session.machine.fetch = .ok 0x1200 := by
      rw [Machine.fetch_eq (a := 0x200) rfl (by decide)]
      simp [jumping, Session.start]
    rw [Processor.keyedCycle_eq]
    exact Processor.cycle_eq_ok_iff.mpr ⟨rfl, 0x1200, .jump 0x200, hf, by rfl, rfl, rfl⟩
  have hdue : ¬ (1 : Float) ≤ Float.ofNat 0 := by decide
  have hturn {σ : Type} (c : Controls σ) (s : σ) (interval : Option Float) :
      (jumping interval Keypad.released).turn p c (Float.ofNat 0) s =
        (.completed, jumping interval ⟨c.keys s⟩, c.asked s, [.keys (c.keys s), .cycle]) :=
    turn_of_not_due hdue hdue (hcycle (c.keys s) interval)
  have hrun : ∃ final, run p c Float.ofNat 2 r = some (.ok (), final) := by
    have hstop := turn_of_stop (p := p) (c := c) (s := 0) (h := (jumping none ⟨c.keys 0⟩).count)
      (show (1 : Float) ≤ Float.ofNat 1 by decide) rfl
    have hrest (log : Array Event) : ∃ final,
        run p c Float.ofNat 1 ⟨(jumping none ⟨c.keys 0⟩).count, 0, 1, log⟩ = some (.ok (), final) := by
      rw [run]
      simp only [hstop]
      exact ⟨_, rfl⟩
    rw [run]
    simp only [r, hturn c 0 none]
    exact hrest _
  have hwait : Waited Float.ofNat (Float.ofNat 0) 1 (some 1) 2 := by
    have hlate : ¬ Float.ofNat 1 < Float.ofNat 0 + 1 := by decide
    have hw : waitUntil Float.ofNat (Float.ofNat 0 + 1) 1 1 = some 2 := if_neg hlate
    exact .limited hw
  have hkeys (s : Nat) : c.keys s = c.keys 0 := by
    have hheld (n : Nat) : (([[5]] : List (List (Fin 16)))[n]?.or [[5]].getLast?).getD [] = [5] := by
      cases n <;> rfl
    simp only [c, Controls.scripted, hheld]
  have hnext := Next.completed (r := r) (hturn c 0 none) .unlimited
  have hnext' := Next.completed (r := r') (hturn c' () (some 1)) hwait
  have h := Reached.between (.next hnext .none)
  have h' := Reached.between (.next hnext' .none)
  obtain ⟨hends, hequal⟩ := run_hostless (τ := Unit) p c Float.ofNat r
  constructor
  · obtain ⟨final, hrun⟩ := hrun
    obtain ⟨log, -, -, he⟩ := hends 2 _ _ hrun
    exact ⟨final, log, hrun, he⟩
  · have he := hequal c' Float.ofNat r' (c.keys 0) hkeys (fun _ => rfl) rfl 1 _ _ h h'
    exact ⟨_, h, he ▸ h'⟩

end Chip8.Host
