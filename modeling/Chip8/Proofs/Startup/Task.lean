import Chip8.Startup
import Chip8.Proofs.Display.Closing

namespace Chip8.Startup

inductive Stage where
  | display
  | controls
  | host
deriving DecidableEq

def Failure.stage : Failure → Stage
  | .missing option =>
    if option = "keymap" then .controls else if option = "clock_speed" then .host else .display
  | .noRenderer | .plugin _ | .noFilename | .file _ _ | .program _ | .display _ => .display
  | .noKeymap | .keymap _ => .controls
  | .noSpeed | .speed _ | .drawing _ | .cycle _ | .outOfFuel => .host

/-- What each part may do: the display and the controls are made without, and the host uses both. -/
def Stage.allows : Stage → Activity → Bool
  | .host, .told _ | .host, .polled | .host, .asked => true
  | .host, .call c => !c.handsBack
  | _, _ => false

variable {α β ε : Type} {t : Task α} {f : α → Task β} {done more : List Activity} {a : α} {e : Failure}
  {keys keys' : Option Inputs} {stage : Stage} {R : α → Prop} {S : β → Prop}

def ended (p : Progress) : Except Failure α → EStateM.Result Failure Progress α
  | .ok a => .ok a p
  | .error e => .error e p

/-- Whatever was done before, the task does this and ends so. The keys in use are these then, or else those that
were in use before. -/
def Does (t : Task α) (done : List Activity) (keys : Option Inputs) (result : Except Failure α) : Prop :=
  ∀ p, ∃ p', t p = ended p' result ∧ p'.activities.toList = p.activities.toList ++ done ∧
    p'.inputs = keys.or p.inputs

theorem Does.bind_keys {result : Except Failure β} (ht : Does t done keys (.ok a))
    (hf : Does (f a) more keys' result) : Does (t >>= f) (done ++ more) (keys'.or keys) result := by
  intro p
  obtain ⟨p', hp, hd, hk⟩ := ht p
  obtain ⟨p'', hp', hm, hk'⟩ := hf p'
  refine ⟨p'', ?_, by rw [hm, hd, List.append_assoc], by rw [hk', hk, Option.or_assoc]⟩
  change EStateM.bind t f p = _
  rw [EStateM.bind, hp]
  exact hp'

theorem Does.bind {result : Except Failure β} (ht : Does t done none (.ok a))
    (hf : Does (f a) more keys result) : Does (t >>= f) (done ++ more) keys result := by
  have h := ht.bind_keys hf
  rw [Option.or_none] at h
  exact h

theorem Does.bind_none {result : Except Failure β} (ht : Does t done keys (.ok a))
    (hf : Does (f a) more none result) : Does (t >>= f) (done ++ more) keys result :=
  ht.bind_keys hf

theorem Does.bind_error (ht : Does t done keys (.error e)) : Does (t >>= f) done keys (.error e) := by
  intro p
  obtain ⟨p', hp, hd⟩ := ht p
  refine ⟨p', ?_, hd⟩
  change EStateM.bind t f p = _
  rw [EStateM.bind, hp]
  rfl

theorem does_pure (a : α) : Does (pure a) [] none (.ok a) :=
  fun p => ⟨p, rfl, (List.append_nil _).symm, rfl⟩

theorem does_throw (e : Failure) : Does (throw e : Task α) [] none (.error e) :=
  fun p => ⟨p, rfl, (List.append_nil _).symm, rfl⟩

theorem does_modify {change : Progress → Progress}
    (hd : ∀ p, (change p).activities.toList = p.activities.toList ++ done)
    (hk : ∀ p, (change p).inputs = keys.or p.inputs) : Does (modify change) done keys (.ok ()) :=
  fun p => ⟨change p, rfl, hd p, hk p⟩

theorem does_note (activity : Activity) : Does (note activity) [activity] none (.ok ()) :=
  does_modify (fun _ => Array.toList_push) fun _ => rfl

theorem does_calls (cs : List Display.Call) : Does (calls cs) (cs.map .call) none (.ok ()) :=
  does_modify (fun _ => Array.toList_append) fun _ => rfl

theorem does_print (line : String) : Does (print line) [] none (.ok ()) :=
  does_modify (fun _ => (List.append_nil _).symm) fun _ => rfl

theorem does_openControls (inputs : Inputs) :
    Does (openControls inputs) [.controlsOpened] (some inputs) (.ok ()) :=
  does_modify (fun _ => Array.toList_push) fun _ => rfl

theorem Does.unique {result result' : Except Failure α} (h : Does t done keys result)
    (h' : Does t more keys' result') : result = result' := by
  obtain ⟨p, hp, -⟩ := h .start
  obtain ⟨q, hq, -⟩ := h' .start
  rw [hp] at hq
  cases result <;> cases result' <;> cases hq <;> rfl

theorem Does.ensuring {t : Task Unit} {result : Except Failure Unit} {after : Progress → Progress}
    (ht : Does t done keys result) (ha : ∀ p, (after p).activities.toList = p.activities.toList ++ more)
    (hk : ∀ p, (after p).inputs = p.inputs) : Does (ensuring t after) (done ++ more) keys result := by
  intro p
  obtain ⟨p', hp, hd, hk'⟩ := ht p
  refine ⟨after p', ?_, by rw [ha, hd, List.append_assoc], (hk p').trans hk'⟩
  rw [Startup.ensuring, hp]
  cases result <;> rfl

theorem Does.uncontrolled {t : Task Unit} {result : Except Failure Unit} (ht : Does t done keys result)
    (inputs : Inputs) :
    Does (do openControls inputs; t) (.controlsOpened :: done) (some (keys.getD inputs)) result := by
  have hkeys : keys.or (some inputs) = some (keys.getD inputs) := by cases keys <;> rfl
  rw [← hkeys]
  exact (does_openControls inputs).bind_keys ht

/-- The keys that are closed are those that the task has left behind, or else those that were opened. -/
theorem Does.controlled {t : Task Unit} {result : Except Failure Unit} (ht : Does t done keys result)
    (inputs : Inputs) :
    Does (do openControls inputs; Startup.ensuring t closeControls) (.controlsOpened :: done ++ [.controlsClosed])
      (some (keys.getD inputs).shutdown) result := by
  intro p
  obtain ⟨p', hp, hd, hk⟩ := ht
    { p with activities := p.activities.push .controlsOpened, inputs := some inputs }
  refine ⟨closeControls p', ?_, ?_, ?_⟩
  · change Startup.ensuring t closeControls _ = _
    rw [Startup.ensuring, hp]
    cases result <;> rfl
  · simp [closeControls, hd]
  · rw [closeControls, hk]
    cases keys <;> rfl

/-- A task that belongs to a part of the run: it does no more than that part may do, fails in no other way,
and what it returns is right. -/
def Belongs (stage : Stage) (R : α → Prop) (t : Task α) : Prop :=
  ∃ done result, Does t done none result ∧ (∀ a ∈ done, stage.allows a = true) ∧
    (∀ e, result = .error e → e.stage = stage) ∧ ∀ a, result = .ok a → R a

theorem belongs_pure (h : R a) : Belongs stage R (pure a) :=
  ⟨[], .ok a, does_pure a, List.forall_mem_nil _, nofun, by
    rintro _ ⟨⟩
    exact h⟩

theorem belongs_throw (h : e.stage = stage) : Belongs stage R (throw e) :=
  ⟨[], .error e, does_throw e, List.forall_mem_nil _, by
    rintro _ ⟨⟩
    exact h, nofun⟩

theorem Does.belongs {t : Task Unit} (h : Does t done none (.ok ())) (ha : ∀ a ∈ done, stage.allows a = true) :
    Belongs stage (fun _ => True) t :=
  ⟨done, .ok (), h, ha, nofun, fun _ _ => trivial⟩

theorem Belongs.bind (ht : Belongs stage R t) (hf : ∀ a, R a → Belongs stage S (f a)) :
    Belongs stage S (t >>= f) := by
  obtain ⟨done, result, hd, ha, he, hr⟩ := ht
  cases result with
  | error e => exact ⟨done, .error e, hd.bind_error, ha, by
      rintro _ ⟨⟩
      exact he e rfl, nofun⟩
  | ok a =>
    obtain ⟨more, result, hm, hb, he, hs⟩ := hf a (hr a rfl)
    refine ⟨done ++ more, result, hd.bind hm, ?_, he, hs⟩
    intro b hb'
    exact (List.mem_append.mp hb').elim (ha b) (hb b)

theorem Belongs.mono {S : α → Prop} (ht : Belongs stage R t) (h : ∀ a, R a → S a) : Belongs stage S t := by
  obtain ⟨done, result, hd, ha, he, hr⟩ := ht
  exact ⟨done, result, hd, ha, he, fun a hok => h a (hr a hok)⟩

theorem belongs_ofExcept (failure : ε → Failure) (x : Except ε α) (h : ∀ e, (failure e).stage = stage) :
    Belongs stage (fun a => x = .ok a) (ofExcept failure x) := by
  cases x with
  | error e => exact belongs_throw (h e)
  | ok a => exact belongs_pure rfl

theorem belongs_require (option : String) (setting : Setting α) (h : (Failure.missing option).stage = stage) :
    Belongs stage (fun o => setting = ofOption o) (require option setting) := by
  cases setting with
  | missing => exact belongs_throw h
  | default => exact belongs_pure rfl
  | given a => exact belongs_pure rfl

theorem belongs_demand (o : Option (Argument α)) (h : e.stage = stage) :
    Belongs stage (fun v => o = v.map .value) (demand e o) := by
  cases hd : Argument.demand e o with
  | error e' =>
    have he : e' = e := by
      rcases o with _ | _ | a <;> cases hd
      rfl
    rw [demand, hd, he]
    exact belongs_throw h
  | ok v =>
    rw [demand, hd]
    exact belongs_pure (Argument.demand_eq_ok_iff.mp hd)

end Chip8.Startup
