import Mathlib.Algebra.GroupWithZero.Nat
import Chip8.Proofs.Display.Act
import Chip8.Proofs.Host.Hostless
import Chip8.Proofs.Screen.Paint
import Chip8.Proofs.Text.Parts

namespace Chip8

def Display.Event.isTitle : Display.Event → Bool
  | title _ => true
  | _ => false

namespace Host

def Event.isRefresh : Event → Bool
  | shown (.refresh _) => true
  | _ => false

def Event.rates? : Event → Option (Nat × Nat)
  | report frames cycles => some (frames, cycles)
  | _ => none

def rates (log : List Event) : List (Nat × Nat) :=
  log.filterMap Event.rates?

inductive Titled : List Event → Prop where
  | none : Titled []
  | report (frames cycles : Nat) : Titled [.report frames cycles]

variable {σ : Type}

/-- What may come next: a poll that lets the program go on, and one frame. -/
inductive Framed (c : Controls σ) : σ → List Event → σ → Prop where
  | none {s : σ} : Framed c s [] s
  | frame {s s' : σ} (hp : c.poll s = (false, s')) (pixels : List (Int × Int × Bool)) :
      Framed c s (.poll false :: (Display.frameEvents pixels).map .shown) s'

structure Point (σ : Type) where
  session : Session
  controls : σ

def Run.point (r : Run σ) : Point σ :=
  ⟨r.host.session, r.controls⟩

/-- All calls of a turn in their order, and where they lead, by how the turn ends. -/
inductive Ordered (p : Processor) (c : Controls σ) : Ending → Point σ → List Event → Point σ → Prop where
  | stopped {session : Session} {s s' : σ} {log : List Event} (ht : Titled log)
      (hp : c.poll s = (true, s')) :
      Ordered p c .stopped ⟨session, s⟩ (log ++ [.poll true]) ⟨session, s'⟩
  | completed {session session' : Session} {s s' : σ} {log more : List Event} (ht : Titled log)
      (hf : Framed c s more s') (hc : p.keyedCycle (c.keys s') session = .ok () session') :
      Ordered p c .completed ⟨session, s⟩ (log ++ more ++ [.keys (c.keys s'), .cycle])
        ⟨session', c.asked s'⟩
  | failed {session session' : Session} {s s' : σ} {log more : List Event} {e : CycleError}
      (ht : Titled log) (hf : Framed c s more s')
      (hc : p.keyedCycle (c.keys s') session = .error e session') :
      Ordered p c (.failed e) ⟨session, s⟩ (log ++ more ++ [.keys (c.keys s'), .cycle])
        ⟨session', c.asked s'⟩

/-- Steps one after another, each from where the one before it leads. -/
inductive Chained {α β : Type} (Step : α → β → α → Prop) : α → List β → α → Prop where
  | nil {x : α} : Chained Step x [] x
  | cons {x y z : α} {b : β} {bs : List β} (h : Step x b y) (hs : Chained Step y bs z) :
      Chained Step x (b :: bs) z

def endingOf : Except CycleError Unit → Ending
  | .ok () => .stopped
  | .error e => .failed e

structure Course where
  turns : List (List Event)
  last : List Event
  result : Except CycleError Unit

def Course.log (k : Course) : List Event :=
  k.turns.flatten ++ k.last

def Course.InOrder (p : Processor) (c : Controls σ) (x : Point σ) (k : Course) (z : Point σ) : Prop :=
  ∃ y, Chained (Ordered p c .completed) x k.turns y ∧ Ordered p c (endingOf k.result) y k.last z

/-- One run after another on the same host, with their results. -/
inductive Runs (p : Processor) (c : Controls σ) (clock : Clock) :
    Run σ → List (Except CycleError Unit) → Run σ → Prop where
  | none {r : Run σ} : Runs p c clock r [] r
  | run {r r' final : Run σ} {results : List (Except CycleError Unit)}
      {result : Except CycleError Unit} {fuel : Nat} (h : Runs p c clock r results r')
      (hr : run p c clock fuel r' = some (result, final)) :
      Runs p c clock r (results ++ [result]) final

/-- From one state of the counters to another, as a log has it, with so many turns completed. -/
structure Counted (h : Host) (log : List Event) (h' : Host) (n : Nat) : Prop where
  cycles : ((rates log).map Prod.snd).sum + h'.cycles = h.cycles + n
  frames : ((rates log).map Prod.fst).sum + h'.frames = h.frames + log.countP Event.isRefresh
  polls : log.countP Event.isRefresh = log.count (.poll false)
  /-- Every title shows rates. -/
  titles : (log.filterMap Event.display?).filter Display.Event.isTitle =
    (rates log).map fun rate => reportTitle rate.1 rate.2

variable {p : Processor} {c : Controls σ} {clock : Clock} {now : Float} {h h' h'' : Host}
  {s s' : σ} {log more : List Event} {ending : Ending} {m n : Nat} {r r' final : Run σ}
  {result : Except CycleError Unit} {results : List (Except CycleError Unit)}

theorem Chained.concat {α β : Type} {Step : α → β → α → Prop} {x y z : α} {b : β} {bs : List β}
    (hs : Chained Step x bs y) (h : Step y b z) : Chained Step x (bs ++ [b]) z := by
  induction hs with
  | nil => exact .cons h .nil
  | cons hb _ ih => exact .cons hb (ih h)

theorem Chained.forall_mem {α β : Type} {Step : α → β → α → Prop} {P : β → Prop} {x z : α} {bs : List β}
    (hs : Chained Step x bs z) (hp : ∀ x b y, Step x b y → P b) : ∀ b ∈ bs, P b := by
  induction hs with
  | nil => exact List.forall_mem_nil _
  | cons h _ ih => exact List.forall_mem_cons.mpr ⟨hp _ _ _ h, ih⟩

/-- The title tells the two rates apart, as neither numeral has a blank in it. -/
theorem reportTitle_inj {a b : Nat × Nat} : reportTitle a.1 a.2 = reportTitle b.1 b.2 ↔ a = b := by
  have hnumeral {m n : Nat} (h : toString m = toString n) : m = n := by
    have hdigits := congrArg (fun text => Nat.ofDigitChars 10 text.toList 0) h
    simpa [Nat.toString_eq_ofList_toDigits, Nat.ofDigitChars_ten_toDigits] using hdigits
  have hwords (frames cycles : Nat) :
      Text.words (toString frames ++ " FPS, " ++ toString cycles ++ " OPS") =
        [toString frames, "FPS,", toString cycles, "OPS"] := by
    have hall : ∀ word ∈ [toString frames, "FPS,", toString cycles, "OPS"], ' ' ∉ word.toList := by
      have hblank := Text.notMem_toString (c := ' ') rfl
      simp only [List.forall_mem_cons]
      exact ⟨hblank frames, by decide, hblank cycles, by decide, List.forall_mem_nil _⟩
    have htext : toString frames ++ " FPS, " ++ toString cycles ++ " OPS" =
        (String.singleton ' ').intercalate [toString frames, "FPS,", toString cycles, "OPS"] := by
      apply String.toList_inj.mp
      simp only [String.intercalate_cons_cons, String.intercalate_singleton, String.toList_append,
        String.toList_singleton, String.reduceToList, List.append_assoc, List.cons_append, List.nil_append]
    rw [htext, Text.words, Text.parts_intercalate (List.cons_ne_nil _ _) hall]
  have htitle (rate : Nat × Nat) : reportTitle rate.1 rate.2 =
      .title (Banner.name ++ " - " ++ (toString rate.1 ++ " FPS, " ++ toString rate.2 ++ " OPS")) := by
    simp only [← String.append_assoc]
    rfl
  refine ⟨fun h => ?_, fun h => h ▸ rfl⟩
  rw [htitle, htitle, Display.Event.title.injEq, String.append_right_inj] at h
  have hw := congrArg Text.words h
  simp only [hwords, List.cons.injEq, and_true, true_and] at hw
  exact Prod.ext (hnumeral hw.1) (hnumeral hw.2)

theorem Counted.none (h : Host) : Counted h [] h 0 :=
  ⟨by simp [rates], by simp [rates], rfl, rfl⟩

theorem Counted.trans (hl : Counted h log h' n) (hm : Counted h' more h'' m) :
    Counted h (log ++ more) h'' (n + m) := by
  obtain ⟨hc, hf, hp, ht⟩ := hl
  obtain ⟨hc', hf', hp', ht'⟩ := hm
  constructor
  · simp only [rates, List.filterMap_append, List.map_append, List.sum_append] at *
    omega
  · simp only [rates, List.filterMap_append, List.map_append, List.sum_append, List.countP_append] at *
    omega
  · rw [List.countP_append, List.count_append, hp, hp']
  · simp only [rates, List.filterMap_append, List.filter_append, List.map_append] at *
    rw [ht, ht']

theorem rates_shown (events : List Display.Event) : rates (events.map .shown) = [] := by
  rw [rates, List.filterMap_map, List.filterMap_eq_nil_iff]
  intro e _
  rfl

theorem display_shown (events : List Display.Event) :
    (events.map .shown).filterMap Event.display? = events := by
  rw [List.filterMap_map]
  exact List.filterMap_some

theorem frame_eq {width height : Nat} (shown now : Screen width height) :
    ∃ pixels, shown.frame now = Display.frameEvents pixels := by
  refine ⟨(Screen.changed shown.lit now).map fun cell => (cell.1, cell.2, now.lit cell.1 cell.2), ?_⟩
  rw [Screen.frame, Screen.changes_eq, Display.frameEvents, List.map_map]
  cases Screen.changed shown.lit now <;> rfl

theorem Counted.of_frame {events : List Display.Event} {pixels : List (Int × Int × Bool)}
    (he : events = Display.frameEvents pixels) (hc : h'.cycles = h.cycles)
    (hf : h'.frames = h.frames + 1) : Counted h (.poll false :: events.map .shown) h' 0 := by
  subst he
  have hrates : rates (.poll false :: (Display.frameEvents pixels).map .shown) = [] := rates_shown _
  have hpixels (e : Event)
      (hm : e ∈ (pixels.map fun p => Display.Event.pixel p.1 p.2.1 p.2.2).map Event.shown) :
      ¬ e.isRefresh = true := by
    obtain ⟨d, hd, rfl⟩ := List.mem_map.mp hm
    obtain ⟨q, -, rfl⟩ := List.mem_map.mp hd
    exact Bool.false_ne_true
  have hrefresh : (Event.poll false :: (Display.frameEvents pixels).map .shown).countP Event.isRefresh = 1 := by
    rw [List.countP_cons_of_neg Bool.false_ne_true, Display.frameEvents, List.map_append,
      List.countP_append, List.countP_eq_zero.mpr hpixels]
    rfl
  have hpoll : (Event.poll false :: (Display.frameEvents pixels).map .shown).count (.poll false) = 1 := by
    rw [List.count_cons_self, List.count_eq_zero.mpr]
    intro hm
    obtain ⟨d, -, hd⟩ := List.mem_map.mp hm
    cases hd
  refine ⟨?_, ?_, hrefresh.trans hpoll.symm, ?_⟩
  · rw [hrates, hc]
    exact Nat.zero_add _
  · rw [hrates, hf, hrefresh]
    exact Nat.zero_add _
  · rw [hrates, List.filterMap_cons_none rfl, display_shown, Display.frameEvents, List.filter_append,
      List.filter_eq_nil_iff.mpr]
    · rfl
    · intro e he ht
      obtain ⟨q, -, rfl⟩ := List.mem_map.mp he
      cases ht

theorem Counted.of_eq {log : List Event} (hc : h'.cycles = h.cycles) (hf : h'.frames = h.frames)
    (hl : (∃ held, log = [.keys held, .cycle]) ∨ log = [.poll true]) : Counted h log h' 0 := by
  obtain ⟨held, rfl⟩ | rfl := hl
  all_goals
    exact ⟨(Nat.zero_add _).trans hc, (Nat.zero_add _).trans hf, rfl, rfl⟩

theorem Counted.count (hl : Counted h log h' n) : Counted h log h'.count (n + 1) := by
  refine ⟨?_, hl.frames, hl.polls, hl.titles⟩
  have := hl.cycles
  simp only [Host.count]
  omega

theorem report_counted (now : Float) (h : Host) :
    Titled (h.report now).2 ∧ Counted h (h.report now).2 (h.report now).1 0 := by
  rw [report]
  split
  · exact ⟨.report _ _, by simp [rates, Event.rates?], by simp [rates, Event.rates?, Event.isRefresh],
      rfl, rfl⟩
  · exact ⟨.none, .none h⟩

theorem showFrame_counted {stop : Bool} (hf : h.showFrame c now s = (stop, h', s', log)) :
    Counted h log h' 0 ∧
      if stop then log = [.poll true] ∧ c.poll s = (true, s') else Framed c s log s' := by
  rw [showFrame] at hf
  split at hf
  · split at hf
    · next hp =>
      cases hf
      exact ⟨.of_eq rfl rfl (.inr rfl), rfl, hp⟩
    · next hp =>
      cases hf
      obtain ⟨pixels, he⟩ := frame_eq h.shown h.session.machine.screen
      have hframed : Framed c s (.poll false :: (h.shown.frame h.session.machine.screen).map .shown) s' :=
        he ▸ .frame hp pixels
      exact ⟨Counted.of_frame he rfl rfl, hframed⟩
  · cases hf
    exact ⟨.none h, .none⟩

theorem turn_counted (ht : h.turn p c now s = (ending, h', s', log)) :
    Ordered p c ending ⟨h.session, s⟩ log ⟨h'.session, s'⟩ ∧ Counted h log h' 0 := by
  obtain ⟨ho, hr⟩ := report_counted now h
  have hs := (report_aside c now h s).session
  rw [turn] at ht
  split at ht
  next hrep =>
  rw [hrep] at ho hr hs
  split at ht
  · next hf =>
    obtain ⟨hc, rfl, hp⟩ := showFrame_counted hf
    have hs := (showFrame_aside hf).session.trans hs
    cases ht
    exact ⟨hs ▸ .stopped ho hp, hr.trans hc⟩
  · next h'' s'' more hf =>
    obtain ⟨hc, hl⟩ := showFrame_counted hf
    have hs := (showFrame_aside hf).session.trans hs
    have hcounted (session : Session) :
        Counted h'' [.keys (c.keys s''), .cycle] { h'' with session } 0 := .of_eq rfl rfl (.inl ⟨_, rfl⟩)
    obtain ⟨session, hcycle, he⟩ | ⟨e, session, hcycle, he⟩ := cycle_setKeys p (c.keys s'') h'' <;>
      rw [hs] at hcycle <;> simp only [setKeys] at he ht <;>
        rw [he, List.append_assoc, List.singleton_append] at ht <;> cases ht
    · exact ⟨.completed ho hl hcycle, (hr.trans hc).trans (hcounted session)⟩
    · exact ⟨.failed ho hl hcycle, (hr.trans hc).trans (hcounted session)⟩

theorem Next.counted (hn : Next p c clock r r') :
    ∃ log, r'.log.toList = r.log.toList ++ log ∧ Ordered p c .completed r.point log r'.point ∧
      Counted r.host log r'.host 1 := by
  cases hn with
  | completed ht hw =>
    obtain ⟨ho, hc⟩ := turn_counted ht
    exact ⟨_, Array.toList_append, ho, hc.count⟩

theorem Last.counted (hl : Last p c clock r result final) :
    ∃ log, final.log.toList = r.log.toList ++ log ∧
      Ordered p c (endingOf result) r.point log final.point ∧ Counted r.host log final.host 0 := by
  cases hl with
  | stopped ht | failed ht =>
    obtain ⟨ho, hc⟩ := turn_counted ht
    exact ⟨_, Array.toList_append, ho, hc⟩

theorem Turns.counted (ht : Turns p c clock r n r') :
    ∃ turns : List (List Event), turns.length = n ∧
      Chained (Ordered p c .completed) r.point turns r'.point ∧
      r'.log.toList = r.log.toList ++ turns.flatten ∧ Counted r.host turns.flatten r'.host n := by
  induction ht with
  | none => exact ⟨[], rfl, .nil, (List.append_nil _).symm, .none _⟩
  | next hn _ ih =>
    obtain ⟨log, hlog, ho, hc⟩ := hn.counted
    obtain ⟨turns, hlen, hall, hlogs, hcs⟩ := ih
    refine ⟨log :: turns, congrArg Nat.succ hlen, .cons ho hall, ?_, ?_⟩
    · rw [hlogs, hlog, List.append_assoc, List.flatten_cons]
    · rw [List.flatten_cons, Nat.add_comm]
      exact hc.trans hcs

theorem run_counted {fuel : Nat} (hr : run p c clock fuel r = some (result, final)) :
    ∃ k : Course, k.result = result ∧ k.InOrder p c r.point final.point ∧
      final.log.toList = r.log.toList ++ k.log ∧ Counted r.host k.log final.host k.turns.length := by
  obtain ⟨n, r', ht, hl⟩ := run_turns hr
  obtain ⟨turns, rfl, hall, hlogs, hcs⟩ := ht.counted
  obtain ⟨last, hlog, ho, hc⟩ := hl.counted
  refine ⟨⟨turns, last, result⟩, rfl, ⟨r'.point, hall, ho⟩, ?_, hcs.trans hc⟩
  rw [hlog, hlogs, List.append_assoc, Course.log]

theorem Runs.counted (hr : Runs p c clock r results r') :
    ∃ courses : List Course, courses.map Course.result = results ∧
      Chained (Course.InOrder p c) r.point courses r'.point ∧
      r'.log.toList = r.log.toList ++ courses.flatMap Course.log ∧
      Counted r.host (courses.flatMap Course.log) r'.host (courses.map (·.turns.length)).sum := by
  induction hr with
  | none => exact ⟨[], rfl, .nil, (List.append_nil _).symm, .none _⟩
  | run _ hr ih =>
    obtain ⟨courses, rfl, hall, hlogs, hcs⟩ := ih
    obtain ⟨k, rfl, hk, hlog, hc⟩ := run_counted hr
    refine ⟨courses ++ [k], List.map_append, hall.concat hk, ?_, ?_⟩
    · rw [hlog, hlogs, List.flatMap_append, List.flatMap_singleton, List.append_assoc]
    · rw [List.flatMap_append, List.flatMap_singleton, List.map_append, List.sum_append]
      exact hcs.trans hc

theorem start_counted {session : Session} {speed : Option Int} {told : List Display.Event}
    (hs : start session speed = .ok (h, told)) :
    h.session = session ∧ h.cycles = 0 ∧ h.frames = 0 ∧
      told.filter Display.Event.isTitle = [reportTitle 0 0] := by
  rw [start] at hs
  cases hi : intervalOf speed with
  | error e =>
    rw [hi] at hs
    cases hs
  | ok interval =>
    rw [hi] at hs
    cases hs
    exact ⟨rfl, rfl, rfl, rfl⟩

/-- Any number of runs of one host, and some turns of a further run. Each turn makes its calls in their order, on
what the turn before it has left: a title, a poll and a frame, the keys and the cycle that the keys and the session
come to. A run in which the poll asks to stop ends with that poll. The rates in all titles, which can be told
from the titles, and the counters since the latest one add up to the turns completed and to the frames that the
display was sent, one for each poll that did not ask to stop. -/
theorem rates_add_up {session : Session} {speed : Option Int} {told : List Display.Event}
    (hs : start session speed = .ok (h, told))
    (hr : Runs p c clock ⟨h, s, m, #[]⟩ results r) (ht : Turns p c clock r n r') :
    ∃ (courses : List Course) (turns : List (List Event)) (numbers : List (Nat × Nat)),
      (courses.map Course.result = results ∧ Chained (Course.InOrder p c) ⟨session, s⟩ courses r.point) ∧
      (turns.length = n ∧ Chained (Ordered p c .completed) r.point turns r'.point) ∧
      r'.log.toList = courses.flatMap Course.log ++ turns.flatten ∧
      (told ++ r'.log.toList.filterMap Event.display?).filter Display.Event.isTitle =
        numbers.map (fun rate => .title
          (Banner.name ++ " - " ++ toString rate.1 ++ " FPS, " ++ toString rate.2 ++ " OPS")) ∧
      (∀ others : List (Nat × Nat),
        (told ++ r'.log.toList.filterMap Event.display?).filter Display.Event.isTitle =
          others.map (fun rate => .title
            (Banner.name ++ " - " ++ toString rate.1 ++ " FPS, " ++ toString rate.2 ++ " OPS")) →
        others = numbers) ∧
      (numbers.map Prod.snd).sum + r'.host.cycles = (courses.map (·.turns.length)).sum + n ∧
      (numbers.map Prod.fst).sum + r'.host.frames = r'.log.toList.countP Event.isRefresh ∧
      r'.log.toList.countP Event.isRefresh = r'.log.toList.count (.poll false) := by
  obtain ⟨rfl, hcycles, hframes, htold⟩ := start_counted hs
  obtain ⟨courses, hres, hall, hlogs, hcs⟩ := hr.counted
  obtain ⟨turns, hlen, hturns, hlog, hts⟩ := ht.counted
  have hc := hcs.trans hts
  have hl : r'.log.toList = courses.flatMap Course.log ++ turns.flatten := by
    rw [hlog, hlogs]
    rfl
  rw [← hl] at hc
  have htitles : (told ++ r'.log.toList.filterMap Event.display?).filter Display.Event.isTitle =
      ((0, 0) :: rates r'.log.toList).map fun rate => reportTitle rate.1 rate.2 := by
    rw [List.filter_append, htold, hc.titles]
    rfl
  have hinj : Function.Injective fun rate : Nat × Nat => reportTitle rate.1 rate.2 :=
    fun _ _ => reportTitle_inj.mp
  refine ⟨courses, turns, (0, 0) :: rates r'.log.toList, ⟨hres, hall⟩, ⟨hlen, hturns⟩, hl, htitles, ?_, ?_,
    ?_, hc.polls⟩
  · intro others ho
    exact List.map_injective_iff.mpr hinj (ho.symm.trans htitles)
  · have hsum : _ + r'.host.cycles = h.cycles + _ := hc.cycles
    rw [List.map_cons, List.sum_cons]
    omega
  · have hsum : _ + r'.host.frames = h.frames + _ := hc.frames
    rw [List.map_cons, List.sum_cons]
    omega

theorem rates_add_up_jumping :
    let p : Processor := ⟨fun _ => -1, false⟩
    let c := Controls.scripted [[5]] 1
    let clock : Clock := fun n => Float.ofNat n - 1
    ∃ h told r, start (jumping none Keypad.released).session (some 0) = .ok (h, told) ∧
      Runs p c clock ⟨h, 0, 0, #[]⟩ [.ok ()] r ∧ Turns p c clock r 0 r ∧
      ∃ (courses : List Course) (numbers : List (Nat × Nat)),
        courses.map Course.result = [.ok ()] ∧
        Chained (Course.InOrder p c) ⟨(jumping none Keypad.released).session, 0⟩ courses r.point ∧
        (told ++ r.log.toList.filterMap Event.display?).filter Display.Event.isTitle =
          numbers.map (fun rate => .title
            (Banner.name ++ " - " ++ toString rate.1 ++ " FPS, " ++ toString rate.2 ++ " OPS")) ∧
        (numbers.map Prod.snd).sum + r.host.cycles = (courses.map (·.turns.length)).sum := by
  intro p c clock
  let h : Host := { jumping none Keypad.released with nextFrame := 0, nextReport := 0 }
  have hs : start (jumping none Keypad.released).session (some 0) =
      .ok (h, [.resolution 64 32, reportTitle 0 0]) := rfl
  have hcycle : p.keyedCycle (c.keys 0) h.session = .ok () (jumping none ⟨c.keys 0⟩).session := by
    have hf : (jumping none ⟨c.keys 0⟩).session.machine.fetch = .ok 0x1200 := by
      rw [Machine.fetch_eq (a := 0x200) rfl (by decide)]
      simp [jumping, Session.start]
    rw [Processor.keyedCycle_eq]
    exact Processor.cycle_eq_ok_iff.mpr ⟨rfl, 0x1200, .jump 0x200, hf, by rfl, rfl, rfl⟩
  have hearly : ¬ h.nextFrame ≤ clock 0 := by decide
  have hfirst := turn_of_not_due (p := p) (c := c) (h := h) (s := 0) hearly hearly hcycle
  have hstop (g : Host) (hg : g.nextFrame = 0) :=
    have hf : g.nextFrame ≤ clock 1 := hg ▸ by decide
    turn_of_stop (p := p) (c := c) (s := 0) hf rfl
  have hrun : ∃ r, run p c clock 2 ⟨h, 0, 0, #[]⟩ = some (.ok (), r) := by
    have hrest (log : Array Event) (g : Host) (hg : g.nextFrame = 0) :
        ∃ r, run p c clock 1 ⟨g, 0, 1, log⟩ = some (.ok (), r) := by
      rw [run]
      simp only [hstop g hg]
      exact ⟨_, rfl⟩
    rw [run]
    simp only [hfirst]
    exact hrest _ _ rfl
  obtain ⟨r, hrun⟩ := hrun
  have hruns : Runs p c clock ⟨h, 0, 0, #[]⟩ [.ok ()] r := .run .none hrun
  obtain ⟨courses, turns, numbers, hcourses, -, -, htitles, -, hcycles, -⟩ := rates_add_up hs hruns .none
  exact ⟨h, _, r, hs, hruns, .none, courses, numbers, hcourses.1, hcourses.2, htitles, hcycles⟩

end Host

end Chip8
