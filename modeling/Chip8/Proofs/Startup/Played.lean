import Chip8.Proofs.Display.Listening
import Chip8.Proofs.Host.Rates
import Chip8.Proofs.Startup.Task

namespace Chip8.Startup

def hear (s : Surroundings) (e : Display.Event) (d : Display) : Display × List Activity :=
  ((d.handle s.terminal e).1, .told e :: (d.handle s.terminal e).2.map .call)

def heed (s : Surroundings) : Host.Event → Display → Display × List Activity
  | .report frames cycles, d => hear s (Host.reportTitle frames cycles) d
  | .poll _, d => (d, [.polled])
  | .shown e, d => hear s e d
  | .keys _, d => (d, [.asked])
  | .cycle, d => (d, [])

def heeded (s : Surroundings) (d : Display) (log : List Host.Event) : List Activity :=
  (Display.play (heed s) log (d, [])).2

def Paced (settings : Settings) (speed : Option Int) : Prop :=
  settings.clockSpeed = ofOption (speed.map .value)

def resolution : Display.Event :=
  .resolution screenWidth screenHeight

/-- How the host loop comes to an end, which keys it leaves behind if it has used any, and all that is done by
then. A display fails at its first resolution or not at all. -/
inductive Played (s : Surroundings) (settings : Settings) (ready : Ready) (inputs : Inputs) :
    Except Failure Unit → Option Inputs → List Activity → Prop where
  | unpaced {e : Failure} (hn : ∀ speed, ¬ Paced settings speed) (he : e.stage = .host) :
      Played s settings ready inputs (.error e) none []
  | tooFast {speed : Option Int} {e : Host.SpeedTooHigh} (hp : Paced settings speed)
      (hs : Host.start (Session.start ready.machine) speed = .error e) :
      Played s settings ready inputs (.error (.speed e)) none []
  | undrawn {speed : Option Int} {host : Host} {opening : List Display.Event} {fault : Display.Fault}
      (hp : Paced settings speed)
      (hs : Host.start (Session.start ready.machine) speed = .ok (host, opening))
      (hf : ready.display.fault? resolution = some fault) :
      Played s settings ready inputs (.error (.drawing fault)) none (hear s resolution ready.display).2
  | endless {speed : Option Int} {host : Host} {opening : List Display.Event} (hp : Paced settings speed)
      (hs : Host.start (Session.start ready.machine) speed = .ok (host, opening))
      (hr : Host.run ready.processor (Inputs.controls s) s.clock s.fuel ⟨host, inputs, 0, #[]⟩ = none) :
      Played s settings ready inputs (.error .outOfFuel) none
        (heeded s ready.display (opening.map .shown))
  | ended {speed : Option Int} {host : Host} {opening : List Display.Event} {final : Host.Run Inputs}
      {result : Except CycleError Unit} (hp : Paced settings speed)
      (hs : Host.start (Session.start ready.machine) speed = .ok (host, opening))
      (hr : Host.run ready.processor (Inputs.controls s) s.clock s.fuel ⟨host, inputs, 0, #[]⟩ =
        some (result, final)) :
      Played s settings ready inputs (result.mapError .cycle) (some final.controls)
        (heeded s ready.display (opening.map .shown ++ final.log.toList))

variable {s : Surroundings} {settings : Settings} {ready : Ready} {inputs : Inputs} {d : Display}
  {e : Display.Event} {log : List Host.Event} {result : Except Failure Unit} {keys : Option Inputs}
  {used : List Activity}

theorem allows_hear (s : Surroundings) (e : Display.Event) (d : Display) :
    ∀ a ∈ (hear s e d).2, Stage.host.allows a = true := by
  simpa [hear, Stage.allows, Display.KeepsOpen] using d.handle_keepsOpen s.terminal e

theorem allows_heeded (s : Surroundings) (d : Display) (log : List Host.Event) :
    ∀ a ∈ heeded s d log, Stage.host.allows a = true := by
  refine Display.play_induction (P := fun _ r => ∀ a ∈ r.2, Stage.host.allows a = true)
    (List.forall_mem_nil _) fun done e _ d calls h => ?_
  refine List.forall_mem_append.mpr ⟨h, ?_⟩
  cases e with
  | report frames cycles => exact allows_hear s _ d
  | shown e => exact allows_hear s e d
  | poll stop => exact List.forall_mem_singleton.mpr rfl
  | keys held => exact List.forall_mem_singleton.mpr rfl
  | cycle => exact List.forall_mem_nil _

theorem Played.allows (h : Played s settings ready inputs result keys used) :
    ∀ a ∈ used, Stage.host.allows a = true := by
  cases h with
  | unpaced | tooFast => exact List.forall_mem_nil _
  | undrawn => exact allows_hear s _ _
  | endless | ended => exact allows_heeded s _ _

theorem stage_of_mapError (x : Except CycleError Unit) :
    ∀ e, x.mapError .cycle = .error e → Failure.stage e = .host := by
  rintro e he
  cases x with
  | error e' =>
    cases he
    rfl
  | ok _ => cases he

theorem Played.stage (h : Played s settings ready inputs result keys used) :
    ∀ e, result = .error e → e.stage = .host := by
  cases h with
  | unpaced hn he =>
    rintro e ⟨⟩
    exact he
  | tooFast | undrawn | endless =>
    rintro e ⟨⟩
    rfl
  | ended => exact stage_of_mapError _

theorem heeded_append (s : Surroundings) (d : Display) (log more : List Host.Event) :
    heeded s d (log ++ more) =
      heeded s d log ++ heeded s (Display.play (heed s) log (d, [])).1 more := by
  rw [heeded, Display.play_append, Display.play_calls]
  rfl

theorem does_tell (hf : d.fault? e = none) :
    Does (tell s d e) (hear s e d).2 none (.ok (hear s e d).1) := by
  have hd : (hear s e d).2 = [.told e] ++ ((d.handle s.terminal e).2.map .call ++ []) := by simp [hear]
  simp only [tell, hf, hd]
  exact (does_note _).bind ((does_calls _).bind (does_pure _))

theorem does_tell_error {fault : Display.Fault} (hf : d.fault? e = some fault) :
    Does (tell s d e) (hear s e d).2 none (.error (.drawing fault)) := by
  have hd : (hear s e d).2 = [.told e] ++ ((d.handle s.terminal e).2.map .call ++ []) := by simp [hear]
  simp only [tell, hf, hd]
  exact (does_note _).bind ((does_calls _).bind (does_throw _))

/-- The display is told of the resolution in the opening only. -/
def Unresolved (log : List Host.Event) : Prop :=
  ∀ e ∈ log, ∀ told, e.display? = some told → told.resolves = false

theorem does_follow {e : Host.Event} (h : d.Listens) (hn : Unresolved [e]) :
    Does (follow s d e) (heed s e d).2 none (.ok (heed s e d).1) ∧ (heed s e d).1.Listens := by
  have htold (told : Display.Event) (he : e.display? = some told) :
      Does (tell s d told) (hear s told d).2 none (.ok (hear s told d).1) ∧ (hear s told d).1.Listens :=
    have hr := hn e (List.mem_singleton_self e) told he
    ⟨does_tell (h.fault? hr), h.handle hr s.terminal⟩
  cases e with
  | report frames cycles => exact htold _ rfl
  | shown e => exact htold e rfl
  | poll stop => exact ⟨(does_note .polled).bind (does_pure d), h⟩
  | keys held => exact ⟨(does_note .asked).bind (does_pure d), h⟩
  | cycle => exact ⟨does_pure d, h⟩

theorem does_follows (h : d.Listens) (hn : Unresolved log) :
    Does (log.foldlM (follow s) d) (heeded s d log) none
      (.ok (Display.play (heed s) log (d, [])).1) := by
  induction log generalizing d with
  | nil => exact does_pure d
  | cons e log ih =>
    obtain ⟨he, hlog⟩ := List.forall_mem_cons.mp hn
    obtain ⟨hd, hl⟩ := does_follow (s := s) h (List.forall_mem_singleton.mpr he)
    rw [List.foldlM_cons, heeded, Display.play, Display.play_calls]
    exact hd.bind (ih hl hlog)

theorem start_told {session : Session} {speed : Option Int} {host : Host} {opening : List Display.Event}
    (hs : Host.start session speed = .ok (host, opening)) :
    opening = [resolution, Host.reportTitle 0 0] := by
  rw [Host.start] at hs
  cases hi : Host.intervalOf speed with
  | error e =>
    rw [hi] at hs
    cases hs
  | ok interval =>
    rw [hi] at hs
    cases hs
    rfl

theorem unresolved_append {log more : List Host.Event} (hl : Unresolved log) (hm : Unresolved more) :
    Unresolved (log ++ more) :=
  List.forall_mem_append.mpr ⟨hl, hm⟩

theorem unresolved_frame (pixels : List (Int × Int × Bool)) :
    Unresolved ((Display.frameEvents pixels).map .shown) := by
  intro e he told ht
  obtain ⟨shown, hm, rfl⟩ := List.mem_map.mp he
  cases ht
  obtain hm | hm := List.mem_append.mp hm
  · obtain ⟨pixel, -, rfl⟩ := List.mem_map.mp hm
    rfl
  · cases List.mem_singleton.mp hm
    rfl

theorem unresolved_ordered {σ : Type} {p : Processor} {c : Controls σ} {ending : Host.Ending}
    {x y : Host.Point σ} (ho : Host.Ordered p c ending x log y) : Unresolved log := by
  have htitled {log : List Host.Event} (ht : Host.Titled log) : Unresolved log := by
    cases ht <;> simp [Unresolved, Host.Event.display?, Host.reportTitle, Display.Event.resolves]
  have hframed {s s' : σ} {log : List Host.Event} (hf : Host.Framed c s log s') : Unresolved log := by
    cases hf with
    | none => exact List.forall_mem_nil _
    | frame hp pixels => exact List.forall_mem_cons.mpr ⟨nofun, unresolved_frame pixels⟩
  have hcycled (held : KeyStates) : Unresolved [.keys held, .cycle] := by
    simp [Unresolved, Host.Event.display?]
  cases ho with
  | stopped ht hp => exact unresolved_append (htitled ht) (by simp [Unresolved, Host.Event.display?])
  | completed ht hf => exact unresolved_append (unresolved_append (htitled ht) (hframed hf)) (hcycled _)
  | failed ht hf => exact unresolved_append (unresolved_append (htitled ht) (hframed hf)) (hcycled _)

theorem unresolved_run {σ : Type} {p : Processor} {c : Controls σ} {clock : Clock} {fuel readings : Nat}
    {host : Host} {controls : σ} {result : Except CycleError Unit} {final : Host.Run σ}
    (hr : Host.run p c clock fuel ⟨host, controls, readings, #[]⟩ = some (result, final)) :
    Unresolved final.log.toList := by
  -- the order of the calls in each turn says what the display may be told
  obtain ⟨k, -, ⟨y, hturns, hlast⟩, hlog, -⟩ := Host.run_counted hr
  have hall := hturns.forall_mem fun _ _ _ => unresolved_ordered
  rw [hlog, Host.Course.log]
  refine unresolved_append ?_ (unresolved_append ?_ (unresolved_ordered hlast))
  · exact List.forall_mem_nil _
  · intro e he
    obtain ⟨turn, ht, he⟩ := List.mem_flatten.mp he
    exact hall turn ht e he

theorem clockSpeed_cases (settings : Settings) :
    (∃ e, (∀ speed, ¬ Paced settings speed) ∧ e.stage = .host ∧
      clockSpeed settings = throw e) ∨
    ∃ speed, Paced settings speed ∧ clockSpeed settings = pure speed := by
  simp only [clockSpeed, Paced]
  rcases settings.clockSpeed with _ | _ | _ | speed
  · refine .inl ⟨.missing "clock_speed", fun speed => ?_, rfl, rfl⟩
    cases speed <;> simp [ofOption]
  · exact .inr ⟨none, rfl, rfl⟩
  · refine .inl ⟨.noSpeed, fun speed => ?_, rfl, rfl⟩
    cases speed <;> simp [ofOption]
  · exact .inr ⟨some speed, rfl, rfl⟩

variable {room : Int} {options : Display.Settings} {opening : List Display.Event}

/-- Of the two events that come before the first turn, only the resolution can be too much. -/
theorem opening_cases (hc : Display.create room ready.plugin options = .ok (d, ready.opening))
    {session : Session} {speed : Option Int} {host : Host}
    (hs : Host.start session speed = .ok (host, opening)) :
    (∃ fault, d.fault? resolution = some fault ∧
      Does (opening.foldlM (tell s) d) (hear s resolution d).2 none (.error (.drawing fault))) ∨
    ∃ d', d'.Listens ∧ d' = (Display.play (heed s) (opening.map .shown) (d, [])).1 ∧
      Does (opening.foldlM (tell s) d) (heeded s d (opening.map .shown)) none (.ok d') := by
  rw [start_told hs, List.foldlM_cons]
  cases hf : d.fault? resolution with
  | some fault => exact .inl ⟨fault, rfl, (does_tell_error hf).bind_error⟩
  | none =>
    have hl := Display.listens_resolution hc (by decide) (by decide) hf s.terminal
    have htitle : Unresolved [.shown (Host.reportTitle 0 0)] := by
      simp [Unresolved, Host.Event.display?, Host.reportTitle, Display.Event.resolves]
    exact .inr ⟨_, hl.handle rfl s.terminal, rfl, (does_tell hf).bind (does_follows hl htitle)⟩

theorem does_ofExcept {ε α : Type} (failure : ε → Failure) (x : Except ε α) :
    Does (ofExcept failure x) [] none (x.mapError failure) := by
  cases x with
  | error e => exact does_throw _
  | ok a => exact does_pure a

theorem does_rest {final : Host.Run Inputs} {result : Except CycleError Unit} (hl : d.Listens)
    (hn : Unresolved final.log.toList) :
    Does (do
      modify fun progress =>
        { progress with
          printed := progress.printed ++ final.host.session.trace
          readings := progress.readings + final.readings
          inputs := some final.controls }
      let _ ← final.log.toList.foldlM (follow s) d
      ofExcept .cycle result) (heeded s d final.log.toList) (some final.controls)
      (result.mapError .cycle) := by
  have hdone : heeded s d final.log.toList = [] ++ (heeded s d final.log.toList ++ []) :=
    (List.append_nil _).symm
  rw [hdone]
  have hkept : Does (modify fun progress : Progress =>
      { progress with
        printed := progress.printed ++ final.host.session.trace
        readings := progress.readings + final.readings
        inputs := some final.controls }) [] (some final.controls) (.ok ()) :=
    does_modify (fun _ => (List.append_nil _).symm) fun _ => rfl
  exact hkept.bind_none ((does_follows hl hn).bind (does_ofExcept _ _))

theorem runHost_played
    (hc : Display.create room ready.plugin options = .ok (ready.display, ready.opening)) (inputs : Inputs) :
    ∃ result keys used, Played s settings ready inputs result keys used ∧
      Does (do
        let speed ← clockSpeed settings
        runHost s ready.processor ready.display inputs (Session.start ready.machine) speed) used keys
        result := by
  obtain ⟨e, hn, he, heq⟩ | ⟨speed, hp, heq⟩ := clockSpeed_cases settings <;> rw [heq]
  · exact ⟨_, _, _, .unpaced hn he, (does_throw e).bind_error⟩
  rw [pure_bind, runHost]
  cases hs : Host.start (Session.start ready.machine) speed with
  | error e => exact ⟨_, _, _, .tooFast hp hs, (does_throw _).bind_error⟩
  | ok started =>
    obtain ⟨host, opening⟩ := started
    obtain ⟨fault, hf, ho⟩ | ⟨d, hl, hd, ho⟩ := opening_cases (s := s) hc hs
    · exact ⟨_, _, _, .undrawn hp hs hf, (does_pure _).bind ho.bind_error⟩
    · -- from here on the display listens, so only the run decides
      rw [ofExcept, pure_bind]
      cases hr : Host.run ready.processor (Inputs.controls s) s.clock s.fuel ⟨host, inputs, 0, #[]⟩ with
      | none =>
        refine ⟨_, _, _, .endless hp hs hr, ?_⟩
        rw [← List.append_nil (heeded _ _ _)]
        simp only [hr]
        exact ho.bind (does_throw _)
      | some ran =>
        obtain ⟨result, final⟩ := ran
        refine ⟨_, _, _, .ended hp hs hr, ?_⟩
        rw [heeded_append, ← hd]
        simp only [hr]
        exact ho.bind (does_rest hl (unresolved_run hr))

end Chip8.Startup
