import Chip8.Proofs.Startup.Played

namespace Chip8.Startup

variable {s : Surroundings} {settings : Settings}

/-- The options, the files and the libraries are such that the display can be made, and this is ready then. -/
structure Sound (s : Surroundings) (settings : Settings) (ready : Ready) : Prop where
  plugin : ∃ name, settings.renderer = ofOption (Option.map .value name) ∧
    Plugin.select s.installed name = .ok ready.plugin
  machine : ∃ filename program, settings.filename = .given filename ∧ s.file filename = .ok program ∧
    Machine.initial.loadProgram program = .ok ready.machine
  processor : ∃ debug fixedRandom, settings.debug = ofOption debug ∧
    settings.fixedRandom = ofOption fixedRandom ∧
    ready.processor = ⟨if fixedRandom.getD false then fun _ => 1 else s.random, debug.getD false⟩
  display : ∃ scale smoothing windowPalette terminalPalette cursor,
    settings.scale = ofOption scale ∧ settings.smoothing = ofOption smoothing ∧
    settings.windowPalette = ofOption windowPalette ∧
    settings.terminalPalette = ofOption terminalPalette ∧ settings.cursorMode = ofOption cursor ∧
    Display.create s.room ready.plugin ⟨scale, smoothing.bind (·.value?), windowPalette, terminalPalette,
      cursor.bind (·.value?)⟩ = .ok (ready.display, ready.opening)

theorem prepare_belongs (s : Surroundings) (settings : Settings) :
    Belongs .display (Sound s settings) (prepare s settings) := by
  unfold prepare
  -- each step leaves an equation about the options behind, and all of them together make the display sound
  refine ((does_print _).belongs (List.forall_mem_nil _)).bind fun _ _ => ?_
  refine (belongs_require _ _ (by simp [Failure.stage])).bind fun renderer hrenderer => ?_
  refine (belongs_demand _ rfl).bind fun name hname => ?_
  refine (belongs_ofExcept .plugin _ fun _ => rfl).bind fun plugin hplugin => ?_
  refine (belongs_require _ _ (by simp [Failure.stage])).bind fun filename hfilename => ?_
  cases filename with
  | none => exact belongs_throw rfl
  | some filename =>
    refine (belongs_ofExcept (.file filename) _ fun _ => rfl).bind fun program hprogram => ?_
    refine (belongs_ofExcept .program _ fun _ => rfl).bind fun machine hmachine => ?_
    refine (belongs_require _ _ (by simp [Failure.stage])).bind fun debug hdebug => ?_
    refine (belongs_require _ _ (by simp [Failure.stage])).bind fun fixedRandom hrandom => ?_
    refine (belongs_require _ _ (by simp [Failure.stage])).bind fun scale hscale => ?_
    refine (belongs_require _ _ (by simp [Failure.stage])).bind fun smoothing hsmoothing => ?_
    refine (belongs_require _ _ (by simp [Failure.stage])).bind fun windowPalette hwindow => ?_
    refine (belongs_require _ _ (by simp [Failure.stage])).bind fun terminalPalette hterminal => ?_
    refine (belongs_require _ _ (by simp [Failure.stage])).bind fun cursor hcursor => ?_
    refine (belongs_ofExcept .display _ fun _ => rfl).bind fun made hmade => ?_
    obtain ⟨display, opening⟩ := made
    exact belongs_pure {
      plugin := ⟨name, hname ▸ hrenderer, hplugin⟩
      machine := ⟨filename, program, hfilename, hprogram, hmachine⟩
      processor := ⟨debug, fixedRandom, hdebug, hrandom, rfl⟩
      display := ⟨scale, smoothing, windowPalette, terminalPalette, cursor, hscale, hsmoothing, hwindow,
        hterminal, hcursor, hmade⟩ }

@[simp]
theorem require_ofOption {α : Type} (option : String) (o : Option α) :
    require option (ofOption o) = pure o := by
  cases o <;> rfl

theorem Sound.prepare_eq {ready : Ready} (h : Sound s settings ready) :
    prepare s settings = (do print Banner.line; return ready) := by
  obtain ⟨⟨name, hrenderer, hplugin⟩, ⟨filename, program, hfilename, hprogram, hmachine⟩,
    ⟨debug, fixedRandom, hdebug, hrandom, hprocessor⟩,
    ⟨scale, smoothing, window, terminal, cursor, hscale, hsmoothing, hwindow, hterminal, hcursor, hmade⟩⟩ := h
  have hname : demand .noRenderer (Option.map .value name) = pure name := by
    rw [demand, Argument.demand_eq_ok_iff.mpr rfl]
    rfl
  have hfile : settings.filename = ofOption (some filename) := hfilename
  simp only [prepare, hrenderer, hfile, hdebug, hrandom, hscale, hsmoothing, hwindow, hterminal, hcursor,
    require_ofOption, hname, pure_bind, hplugin, hprogram, hmachine, hmade, ofExcept, ← hprocessor]

def Keyed (s : Surroundings) (settings : Settings) (plugin : Plugin) (inputs : Inputs) : Prop :=
  ∃ keymap, settings.keymap = .given (.value keymap) ∧ Inputs.start s plugin keymap = .ok inputs

theorem openInputs_belongs (s : Surroundings) (settings : Settings) (plugin : Plugin) :
    Belongs .controls (Keyed s settings plugin) (openInputs s settings plugin) := by
  refine (belongs_require _ _ (by simp [Failure.stage])).bind fun keymap hkeymap => ?_
  rcases keymap with _ | _ | keymap
  · exact belongs_throw rfl
  · exact belongs_throw rfl
  · refine (belongs_ofExcept .keymap _ fun _ => rfl).mono fun inputs hinputs => ?_
    exact ⟨keymap, hkeymap, hinputs⟩

theorem Keyed.openInputs_eq {plugin : Plugin} {inputs : Inputs} (h : Keyed s settings plugin inputs) :
    openInputs s settings plugin = pure inputs := by
  obtain ⟨keymap, hkeymap, hinputs⟩ := h
  have hgiven : settings.keymap = ofOption (some (.value keymap)) := hkeymap
  simp only [openInputs, hgiven, require_ofOption, pure_bind, hinputs, ofExcept]

/-- The run with the display opened, as it would be if nothing were closed. -/
def playOpen (s : Surroundings) (settings : Settings) (ready : Ready) : Task Unit := do
  let inputs ← openInputs s settings ready.plugin
  openControls inputs
  let speed ← clockSpeed settings
  runHost s ready.processor ready.display inputs (Session.start ready.machine) speed

def runOpen (s : Surroundings) (settings : Settings) : Task Unit := do
  let ready ← prepare s settings
  calls ready.opening
  note .displayOpened
  playOpen s settings ready

def Ready.opened (r : Ready) : List Activity :=
  r.opening.map .call ++ [.displayOpened]

def Ready.closed (r : Ready) : List Activity :=
  r.display.shutdown.map .call ++ [.displayClosed]

def Activity.closes : Activity → Bool
  | .call c => c.handsBack
  | .controlsClosed | .displayClosed => true
  | _ => false

theorem closes_of_allows {stage : Stage} {a : Activity} (h : stage.allows a = true) : a.closes = false := by
  cases stage <;> cases a <;> simp_all [Stage.allows, Activity.closes]

/-- The display hands its library back by the last of all its calls and by no other. A blank one has none. -/
def Ready.HandsBack (r : Ready) : Prop :=
  (∃ status, r.display = .blank status) ∧ r.closed = [.displayClosed] ∨
    ∃ calls last, r.closed = calls.map .call ++ [.call last, .displayClosed] ∧ Display.KeepsOpen calls ∧
      last.handsBack = true

/-- A run by how far it comes: how it ends, what it has done by then, what it closes after that, and the keys that
it leaves behind, if it came to have any. -/
inductive Course (s : Surroundings) (settings : Settings) :
    Except Failure Unit → List Activity → List Activity → Option Inputs → Prop where
  | unopened {e : Failure} (hn : ∀ ready, ¬ Sound s settings ready) (he : e.stage = .display) :
      Course s settings (.error e) [] [] none
  | keyless {ready : Ready} {e : Failure} (hr : Sound s settings ready) (hb : ready.HandsBack)
      (hn : ∀ inputs, ¬ Keyed s settings ready.plugin inputs) (he : e.stage = .controls) :
      Course s settings (.error e) ready.opened ready.closed none
  | played {ready : Ready} {inputs : Inputs} {result : Except Failure Unit} {keys : Option Inputs}
      {used : List Activity} (hr : Sound s settings ready) (hb : ready.HandsBack)
      (hk : Keyed s settings ready.plugin inputs) (hp : Played s settings ready inputs result keys used)
      (hu : ∀ a ∈ used, Stage.host.allows a = true) (he : ∀ e, result = .error e → e.stage = .host) :
      Course s settings result (ready.opened ++ .controlsOpened :: used) (.controlsClosed :: ready.closed)
        (some (keys.getD inputs))

theorem eq_nil_of_allows {stage : Stage} {done : List Activity} (hs : stage ≠ .host)
    (ha : ∀ a ∈ done, stage.allows a = true) : done = [] := by
  rw [List.eq_nil_iff_forall_not_mem]
  intro a hm
  have hallows := ha a hm
  cases stage with
  | host => exact hs rfl
  | display | controls => cases hallows

variable {ready : Ready} {inputs : Inputs} {done closing : List Activity} {keys : Option Inputs}
  {result : Except Failure Unit} {e : Failure}

theorem Does.opened {after : Ready → Task Unit} (hp : Does (prepare s settings) [] none (.ok ready))
    (ha : Does (after ready) done keys result) :
    Does (do
      let ready ← prepare s settings
      calls ready.opening
      note .displayOpened
      after ready) (ready.opened ++ done) keys result := by
  rw [Ready.opened, List.append_assoc]
  exact hp.bind ((does_calls ready.opening).bind ((does_note .displayOpened).bind ha))

theorem toList_closeDisplay (ready : Ready) (p : Progress) :
    (closeDisplay ready.display p).activities.toList = p.activities.toList ++ ready.closed := by
  simp [closeDisplay, Ready.closed]

theorem Does.closed {t : Task Unit} (ht : Does t done keys result) (ready : Ready) :
    Does (Startup.ensuring t (closeDisplay ready.display)) (done ++ ready.closed) keys result :=
  ht.ensuring (toList_closeDisplay ready) fun _ => rfl

theorem not_sound_of_error (hp : Does (prepare s settings) done keys (.error e)) :
    ¬ Sound s settings ready := by
  intro hr
  have hready : Does (prepare s settings) [] none (.ok ready) := by
    rw [hr.prepare_eq]
    exact (does_print _).bind (does_pure ready)
  cases hp.unique hready

theorem not_keyed_of_error {plugin : Plugin}
    (hp : Does (openInputs s settings plugin) done keys (.error e)) : ¬ Keyed s settings plugin inputs := by
  intro hk
  rw [hk.openInputs_eq] at hp
  cases hp.unique (does_pure inputs)

theorem runInputs_cases (hr : Sound s settings ready) :
    (∃ e, (∀ inputs, ¬ Keyed s settings ready.plugin inputs) ∧ e.stage = .controls ∧
      Does (playOpen s settings ready) [] none (.error e) ∧
      Does (runInputs s settings ready) [] none (.error e)) ∨
    ∃ inputs result keys used, Keyed s settings ready.plugin inputs ∧
      Played s settings ready inputs result keys used ∧
      Does (playOpen s settings ready) (.controlsOpened :: used) (some (keys.getD inputs)) result ∧
      Does (runInputs s settings ready) (.controlsOpened :: used ++ [.controlsClosed])
        (some (keys.getD inputs).shutdown) result := by
  obtain ⟨done, result, hi, ha, he, hk⟩ := openInputs_belongs s settings ready.plugin
  obtain rfl := eq_nil_of_allows (by decide) ha
  cases result with
  | error e =>
    exact .inl ⟨e, fun inputs => not_keyed_of_error hi, he e rfl, hi.bind_error, hi.bind_error⟩
  | ok inputs =>
    obtain ⟨_, _, _, _, _, _, _, _, _, _, hmade⟩ := hr.display
    obtain ⟨result, keys, used, hp, hd⟩ := runHost_played hmade inputs
    exact .inr ⟨inputs, result, keys, used, hk inputs rfl, hp, hi.bind (hd.uncontrolled inputs),
      hi.bind (hd.controlled inputs)⟩

theorem Sound.closes_eq_false (h : Sound s settings ready) : ∀ a ∈ ready.opened, a.closes = false := by
  obtain ⟨_, _, _, _, _, _, _, _, _, _, hmade⟩ := h.display
  have hk := Display.create_keepsOpen hmade
  simpa [Ready.opened, Activity.closes, Display.KeepsOpen, or_imp, forall_and] using hk

theorem Ready.handsBack (r : Ready) : r.HandsBack := by
  obtain ⟨hd, hs⟩ | ⟨calls, last, hs, hk, hl⟩ := r.display.shutdown_handsBack
  · refine .inl ⟨hd, ?_⟩
    rw [closed, hs]
    rfl
  · refine .inr ⟨calls, last, ?_, hk, hl⟩
    rw [closed, hs, List.map_append, List.append_assoc]
    rfl

theorem Course.closes_eq_false (h : Course s settings result done closing keys) :
    ∀ a ∈ done, a.closes = false := by
  cases h with
  | unopened => exact List.forall_mem_nil _
  | keyless hr => exact hr.closes_eq_false
  | played hr _ _ _ hu =>
    rw [List.forall_mem_append, List.forall_mem_cons]
    exact ⟨hr.closes_eq_false, rfl, fun a ha => closes_of_allows (hu a ha)⟩

theorem run_course (s : Surroundings) (settings : Settings) :
    ∃ result done closing keys, Course s settings result done closing keys ∧
      Does (runOpen s settings) done keys result ∧
      Does (run s settings) (done ++ closing) (keys.map Inputs.shutdown) result := by
  obtain ⟨done, result, hp, ha, he, hr⟩ := prepare_belongs s settings
  obtain rfl := eq_nil_of_allows (by decide) ha
  cases result with
  | error e =>
    have hc : Course s settings (.error e) [] [] none :=
      .unopened (fun ready => not_sound_of_error hp) (he e rfl)
    exact ⟨.error e, [], [], none, hc, hp.bind_error, hp.bind_error⟩
  | ok ready =>
    have hr := hr ready rfl
    have hb := ready.handsBack
    obtain ⟨e, hn, he, hopen, hrun⟩ | ⟨inputs, result, keys, used, hk, hplayed, hopen, hrun⟩ :=
      runInputs_cases hr
    · have hopen : Does (runOpen s settings) _ none (.error e) := hp.opened hopen
      have hrun : Does (run s settings) _ none (.error e) := hp.opened (hrun.closed ready)
      rw [List.append_nil] at hopen
      exact ⟨.error e, _, _, none, .keyless hr hb hn he, hopen, hrun⟩
    · -- the two closings come to stand side by side, after all that was done
      have hclosed := hrun.closed ready
      rw [List.append_assoc, List.singleton_append] at hclosed
      have hrun : Does (run s settings) _ _ result := hp.opened hclosed
      rw [← List.append_assoc] at hrun
      exact ⟨result, _, _, _, .played hr hb hk hplayed hplayed.allows hplayed.stage, hp.opened hopen, hrun⟩

/-- A run ends just as it would if nothing were closed. If the display cannot be made then no library is called.
If it can, it is closed once, by the very last calls, and just before it the controls if they could be made, as they
are then; nothing is closed earlier. A run that its fuel does not last for ends there. -/
theorem run_handed_back (s : Surroundings) (settings : Settings) :
    ∃ result done closing keys, Course s settings result done closing keys ∧
      Does (runOpen s settings) done keys result ∧
      Does (run s settings) (done ++ closing) (keys.map Inputs.shutdown) result ∧
      ∀ a ∈ done, a.closes = false := by
  obtain ⟨result, done, closing, keys, hc, hopen, hrun⟩ := run_course s settings
  exact ⟨result, done, closing, keys, hc, hopen, hrun, hc.closes_eq_false⟩

end Chip8.Startup
