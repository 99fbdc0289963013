import Chip8.Host
import Chip8.Proofs.Cycle.Keyed

namespace Chip8

namespace Controls

variable {σ : Type}

/-- The controls after everything that a log says was asked of them. -/
def after (c : Controls σ) : σ → List Host.Event → σ
  | s, [] => s
  | s, .poll _ :: log => c.after (c.poll s).2 log
  | s, .keys _ :: log => c.after (c.asked s) log
  | s, _ :: log => c.after s log

def answers (c : Controls σ) : σ → List Host.Event → List KeyStates
  | _, [] => []
  | s, .poll _ :: log => c.answers (c.poll s).2 log
  | s, .keys _ :: log => c.keys s :: c.answers (c.asked s) log
  | s, _ :: log => c.answers s log

theorem after_append (c : Controls σ) (s : σ) (log more : List Host.Event) :
    c.after s (log ++ more) = c.after (c.after s log) more := by
  induction log generalizing s with
  | nil => rfl
  | cons e log ih => cases e <;> exact ih _

theorem answers_append (c : Controls σ) (s : σ) (log more : List Host.Event) :
    c.answers s (log ++ more) = c.answers s log ++ c.answers (c.after s log) more := by
  induction log generalizing s with
  | nil => rfl
  | cons e log ih =>
    cases e with
    | keys held => exact congrArg (c.keys s :: ·) (ih _)
    | report | poll | shown | cycle => exact ih _

end Controls

namespace Host

variable {σ : Type} {c : Controls σ} {p : Processor} {now : Float} {h h' h'' : Host} {s s' s'' : σ}
  {log more : List Event}

def Event.Quiet (e : Event) : Prop :=
  e ≠ .cycle ∧ ∀ held, e ≠ .keys held

theorem answers_of_quiet (hq : ∀ e ∈ log, e.Quiet) : c.answers s log = [] := by
  induction log generalizing s with
  | nil => rfl
  | cons e log ih =>
    have hrest (s : σ) : c.answers s log = [] := ih fun e he => hq e (List.mem_cons_of_mem _ he)
    cases e with
    | keys held => exact absurd rfl ((hq _ List.mem_cons_self).2 held)
    | report | poll | shown | cycle => exact hrest _

theorem count_cycle_of_quiet (hq : ∀ e ∈ log, e.Quiet) : log.count .cycle = 0 :=
  List.count_eq_zero.mpr fun hm => (hq _ hm).1 rfl

theorem after_shown (c : Controls σ) (s : σ) (events : List Display.Event) :
    c.after s (events.map .shown) = s := by
  induction events with
  | nil => rfl
  | cons e events ih => exact ih

/-- What the host does on the side: the machine stays as it is, and nobody asks for keys. -/
structure Aside (c : Controls σ) (h : Host) (s : σ) (h' : Host) (s' : σ) (log : List Event) : Prop where
  session : h'.session = h.session
  controls : c.after s log = s'
  quiet : ∀ e ∈ log, e.Quiet

theorem Aside.trans (hl : Aside c h s h' s' log) (hm : Aside c h' s' h'' s'' more) :
    Aside c h s h'' s'' (log ++ more) where
  session := hm.session.trans hl.session
  controls := by rw [Controls.after_append, hl.controls, hm.controls]
  quiet e he := (List.mem_append.mp he).elim (hl.quiet e) (hm.quiet e)

theorem report_aside (c : Controls σ) (now : Float) (h : Host) (s : σ) :
    Aside c h s (h.report now).1 s (h.report now).2 := by
  rw [report]
  split
  · exact ⟨rfl, rfl, by simp [Event.Quiet]⟩
  · exact ⟨rfl, rfl, nofun⟩

theorem showFrame_aside {stop : Bool} (hf : h.showFrame c now s = (stop, h', s', log)) :
    Aside c h s h' s' log := by
  rw [showFrame] at hf
  split at hf
  · split at hf
    · next _ hp =>
      cases hf
      exact ⟨rfl, congrArg Prod.snd hp, by simp [Event.Quiet]⟩
    · next _ hp =>
      cases hf
      refine ⟨rfl, ?_, by simp [Event.Quiet]⟩
      rw [Controls.after, after_shown, hp]
  · cases hf
    exact ⟨rfl, rfl, nofun⟩

/-- How a turn ends, and what it has done to the machine by then. -/
inductive Turned (p : Processor) (c : Controls σ) (h : Host) (s : σ) :
    Ending × Host × σ × List Event → Prop where
  | stopped {h' : Host} {s' : σ} {log : List Event} (hs : h'.session = h.session)
      (hq : ∀ e ∈ log, e.Quiet) : Turned p c h s (.stopped, h', s', log)
  | completed {h' : Host} {s' : σ} {log : List Event} {held : KeyStates}
      (hc : p.keyedCycle held h.session = .ok () h'.session) (ha : c.answers s log = [held])
      (hs : c.after s log = s') (hn : log.count .cycle = 1) :
      Turned p c h s (.completed, h', s', log)
  | failed {h' : Host} {s' : σ} {log : List Event} {held : KeyStates} {e : CycleError}
      (hc : p.keyedCycle held h.session = .error e h'.session) (ha : c.answers s log = [held])
      (hn : log.count .cycle = 1) : Turned p c h s (.failed e, h', s', log)

/-- The host sets the keys and runs the cycle just as it would be done without it. -/
theorem cycle_setKeys (p : Processor) (held : KeyStates) (h : Host) :
    (∃ session, p.keyedCycle held h.session = .ok () session ∧
      (h.setKeys held).1.cycle p = (.completed, { h with session }, [.cycle])) ∨
    ∃ e session, p.keyedCycle held h.session = .error e session ∧
      (h.setKeys held).1.cycle p = (.failed e, { h with session }, [.cycle]) := by
  rw [cycle, Processor.keyedCycle_eq]
  split
  · next session hc => exact .inl ⟨session, hc, rfl⟩
  · next e session hc => exact .inr ⟨e, session, hc, rfl⟩

theorem Aside.turned_cycle (hl : Aside c h s h' s' log) (p : Processor) :
    Turned p c h s (((h'.setKeys (c.keys s')).1.cycle p).1, ((h'.setKeys (c.keys s')).1.cycle p).2.1,
      c.asked s', log ++ (h'.setKeys (c.keys s')).2 ++ ((h'.setKeys (c.keys s')).1.cycle p).2.2) := by
  have ha : c.answers s (log ++ [.keys (c.keys s'), .cycle]) = [c.keys s'] := by
    rw [Controls.answers_append, answers_of_quiet hl.quiet, hl.controls]
    rfl
  have hs : c.after s (log ++ [.keys (c.keys s'), .cycle]) = c.asked s' := by
    rw [Controls.after_append, hl.controls]
    rfl
  have hn : (log ++ [Event.keys (c.keys s'), Event.cycle]).count Event.cycle = 1 := by
    rw [List.count_append, count_cycle_of_quiet hl.quiet]
    rfl
  obtain ⟨session, hc, he⟩ | ⟨e, session, hc, he⟩ := cycle_setKeys p (c.keys s') h' <;>
    rw [hl.session] at hc <;> rw [he, setKeys, List.append_assoc, List.singleton_append]
  · exact .completed hc ha hs hn
  · exact .failed hc ha hn

theorem turn_turned (p : Processor) (c : Controls σ) (now : Float) (h : Host) (s : σ) :
    Turned p c h s (h.turn p c now s) := by
  have hr := report_aside c now h s
  rw [turn]
  split
  next hrep =>
    rw [hrep] at hr
    split
    · next hf =>
      have hl := hr.trans (showFrame_aside hf)
      exact .stopped hl.session hl.quiet
    · next hf => exact (hr.trans (showFrame_aside hf)).turned_cycle p

theorem turn_of_not_due {session : Session} (hr : ¬ h.nextReport ≤ now) (hf : ¬ h.nextFrame ≤ now)
    (hc : p.keyedCycle (c.keys s) h.session = .ok () session) :
    h.turn p c now s = (.completed, { h with session }, c.asked s, [.keys (c.keys s), .cycle]) := by
  have hreport : h.report now = (h, []) := by rw [report, if_neg hr]
  have hframe : h.showFrame c now s = (false, h, s, []) := by rw [showFrame, if_neg hf]
  rw [Processor.keyedCycle_eq] at hc
  simp only [turn, hreport, hframe, setKeys, cycle, hc, List.nil_append, List.singleton_append]

theorem turn_of_stop (hf : h.nextFrame ≤ now) (hp : c.poll s = (true, s')) :
    h.turn p c now s = (.stopped, (h.report now).1, s', (h.report now).2 ++ [.poll true]) := by
  have hf : (h.report now).1.nextFrame ≤ now := by
    rw [report]
    split <;> exact hf
  simp only [turn, showFrame, hf, if_true, hp]

inductive Waited (clock : Clock) (now : Float) (start : Nat) : Option Float → Nat → Prop where
  | unlimited : Waited clock now start none start
  | limited {interval : Float} {fuel readings : Nat}
      (hw : waitUntil clock (now + interval) fuel start = some readings) :
      Waited clock now start (some interval) readings

inductive Next (p : Processor) (c : Controls σ) (clock : Clock) (r : Run σ) : Run σ → Prop where
  | completed {host : Host} {controls : σ} {events : List Event} {readings : Nat}
      (ht : r.host.turn p c (clock r.readings) r.controls = (.completed, host, controls, events))
      (hw : Waited clock (clock r.readings) (r.readings + 1) host.interval readings) :
      Next p c clock r ⟨host.count, controls, readings, r.log ++ events.toArray⟩

inductive Last (p : Processor) (c : Controls σ) (clock : Clock) (r : Run σ) :
    Except CycleError Unit → Run σ → Prop where
  | stopped {host : Host} {controls : σ} {events : List Event}
      (ht : r.host.turn p c (clock r.readings) r.controls = (.stopped, host, controls, events)) :
      Last p c clock r (.ok ()) ⟨host, controls, r.readings + 1, r.log ++ events.toArray⟩
  | failed {host : Host} {controls : σ} {events : List Event} {e : CycleError}
      (ht : r.host.turn p c (clock r.readings) r.controls = (.failed e, host, controls, events)) :
      Last p c clock r (.error e) ⟨host, controls, r.readings + 1, r.log ++ events.toArray⟩

inductive Turns (p : Processor) (c : Controls σ) (clock : Clock) : Run σ → Nat → Run σ → Prop where
  | none {r : Run σ} : Turns p c clock r 0 r
  | next {r next r' : Run σ} {n : Nat} (hn : Next p c clock r next) (h : Turns p c clock next n r') :
      Turns p c clock r (n + 1) r'

variable {clock : Clock} {r final : Run σ} {result : Except CycleError Unit} {fuel : Nat}

theorem run_cases (hr : run p c clock (fuel + 1) r = some (result, final)) :
    Last p c clock r result final ∨
      ∃ next, Next p c clock r next ∧ run p c clock fuel next = some (result, final) := by
  rw [run] at hr
  split at hr
  next ht =>
  split at hr
  · cases hr
    exact .inl (.stopped ht)
  · cases hr
    exact .inl (.failed ht)
  · dsimp only at hr
    split at hr
    · next hi => exact .inr ⟨_, .completed ht (hi ▸ .unlimited), hr⟩
    · next hi =>
      split at hr
      · cases hr
      · next hw => exact .inr ⟨_, .completed ht (hi ▸ .limited hw), hr⟩

theorem run_turns (hr : run p c clock fuel r = some (result, final)) :
    ∃ n r', Turns p c clock r n r' ∧ Last p c clock r' result final := by
  induction fuel generalizing r with
  | zero => cases hr
  | succ fuel ih =>
    obtain hl | ⟨next, hn, hrest⟩ := run_cases hr
    · exact ⟨0, r, .none, hl⟩
    · obtain ⟨n, r', ht, hl⟩ := ih hrest
      exact ⟨n + 1, r', .next hn ht, hl⟩

end Host

end Chip8
