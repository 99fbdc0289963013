import Chip8.Display

namespace Chip8.Display

theorem exists_of_bind_eq_ok {ε α β : Type} {x : Except ε α} {f : α → Except ε β} {b : β}
    (h : x >>= f = .ok b) : ∃ a, x = .ok a ∧ f a = .ok b := by
  cases x with
  | error e => cases h
  | ok a => exact ⟨a, rfl, h⟩

theorem eq_ok_of_mapError {ε δ α : Type} {x : Except ε α} {f : ε → δ} {a : α} (h : x.mapError f = .ok a) :
    x = .ok a := by
  cases x with
  | error e => cases h
  | ok b => exact congrArg _ (Except.ok.inj h)

theorem exists_of_map_eq_ok {ε α β : Type} {x : Except ε α} {f : α → β} {b : β} (h : x.map f = .ok b) :
    ∃ a, x = .ok a ∧ f a = b := by
  cases x with
  | error e => cases h
  | ok a => exact ⟨a, rfl, Except.ok.inj h⟩

namespace Window

/-- The call draws, and in no other colours than the window's own. -/
def Draws (w : Window) : WindowCall → Prop
  | .fill _ colour => colour = w.dark ∨ colour = w.lit
  | .fillCell _ colour _ _ _ _ => colour = w.dark ∨ colour = w.lit
  | .initDisplay => False
  | .setMode _ _ => False
  | .quitDisplay => False
  | _ => True

variable (w : Window)

theorem draws_smooth (times next : Nat) (s : Surface) : ∀ c ∈ (smooth times next s).2, w.Draws c := by
  induction times generalizing next s with
  | zero => exact List.forall_mem_nil _
  | succ times ih => exact List.forall_mem_cons.mpr ⟨trivial, ih _ _⟩

theorem draws_refresh (changed : Bool) : ∀ c ∈ (w.refresh changed).2, w.Draws c := by
  unfold refresh
  split
  · refine List.forall_mem_append.mpr ⟨w.draws_smooth _ _ _, ?_⟩
    simp [Draws]
  · exact List.forall_mem_nil _

theorem draws_setResolution (width height : Int) : ∀ c ∈ (w.setResolution width height).2, w.Draws c := by
  by_cases h : width = 0 ∨ height = 0
  · simp [setResolution, h]
  · simp only [setResolution, h, if_false, List.forall_mem_cons]
    exact ⟨trivial, .inl rfl, draws_refresh _ true⟩

theorem draws_setPixel (x y : Int) (lit : Bool) : ∀ c ∈ (w.setPixel x y lit).getD [], w.Draws c := by
  unfold setPixel
  cases w.offscreen with
  | none => exact List.forall_mem_nil _
  | some surface => cases lit <;> simp [Draws]

theorem refresh_colours (changed : Bool) :
    (w.refresh changed).1.dark = w.dark ∧ (w.refresh changed).1.lit = w.lit := by
  unfold refresh
  split <;> exact ⟨rfl, rfl⟩

theorem setResolution_colours (width height : Int) :
    (w.setResolution width height).1.dark = w.dark ∧ (w.setResolution width height).1.lit = w.lit := by
  by_cases h : width = 0 ∨ height = 0
  · simp [setResolution, h]
  · simp only [setResolution, h, if_false]
    exact refresh_colours _ true

end Window

/-- The call draws. It chooses no colours, and neither takes the terminal over nor gives it back. -/
def TerminalCall.Draws : TerminalCall → Prop
  | newPad _ _ => True
  | background _ => True
  | addText _ _ _ _ => True
  | clearScreen => True
  | refreshScreen => True
  | resize _ _ => True
  | refreshPad _ _ => True
  | _ => False

namespace Terminal

variable (t : Terminal)

theorem draws_setTitle (text : String) : ∀ c ∈ (t.setTitle text).2, c.Draws := by
  simp only [setTitle]
  split <;> simp [TerminalCall.Draws]

theorem draws_setResolution (width height : Int) : ∀ c ∈ (t.setResolution width height).2, c.Draws := by
  by_cases h : width = 0 ∨ height = 0
  · simp [setResolution, h]
  · simp only [setResolution, h, if_false, List.forall_mem_cons, List.forall_mem_append]
    refine ⟨⟨trivial, trivial, fun c hc => ?_⟩, draws_setTitle _ _⟩
    obtain ⟨y, -, hc⟩ := List.mem_flatMap.mp hc
    obtain ⟨x, -, rfl⟩ := List.mem_map.mp hc
    exact trivial

theorem draws_refresh (host : TerminalHost) (changed : Bool) : ∀ c ∈ (t.refresh host changed).2, c.Draws := by
  simp only [refresh]
  split
  · cases host.resizable <;> simp [TerminalCall.Draws]
  · split <;> simp [TerminalCall.Draws]

theorem draws_setPixel (x y : Int) (lit : Bool) : ∀ c ∈ (t.setPixel x y lit).getD [], c.Draws := by
  unfold setPixel
  split <;> simp [pixelCall, TerminalCall.Draws]

end Terminal

theorem create_cases {room : Int} {plugin : Plugin} {settings : Settings} {d : Display} {opening : List Call}
    (h : create room plugin settings = .ok (d, opening)) :
    (∃ w calls, d = window w ∧ opening = calls.map .window ∧
      Window.create ⟨settings.scale, settings.windowPalette, settings.smoothing⟩ = .ok (w, calls)) ∨
    (∃ t calls, d = terminal t ∧ opening = calls.map .terminal ∧
      Terminal.create room ⟨settings.scale, settings.terminalPalette, settings.cursor⟩ = .ok (t, calls)) ∨
    ∃ s, d = blank s ∧ opening = [] := by
  cases plugin with
  | window =>
    obtain ⟨⟨w, calls⟩, hw, he⟩ := exists_of_map_eq_ok h
    cases he
    exact .inl ⟨w, calls, rfl, rfl, hw⟩
  | terminal =>
    obtain ⟨⟨t, calls⟩, ht, he⟩ := exists_of_map_eq_ok h
    cases he
    exact .inr (.inl ⟨t, calls, rfl, rfl, ht⟩)
  | blank =>
    cases h
    exact .inr (.inr ⟨_, rfl, rfl⟩)

def Draws : Display → Call → Prop
  | window w, .window c => w.Draws c
  | terminal _, .terminal c => c.Draws
  | _, _ => False

theorem draws_window {w : Window} {calls : List WindowCall} (h : ∀ c ∈ calls, w.Draws c) :
    ∀ c ∈ calls.map .window, Draws (window w) c :=
  List.forall_mem_map.mpr h

theorem draws_terminal {t : Terminal} {calls : List TerminalCall} (h : ∀ c ∈ calls, c.Draws) :
    ∀ c ∈ calls.map .terminal, Draws (terminal t) c :=
  List.forall_mem_map.mpr h

theorem handle_draws (host : TerminalHost) (d : Display) (event : Event) :
    ∀ c ∈ (d.handle host event).2, d.Draws c := by
  have pixels {κ : Type} (wrap : κ → Call) (calls : Option (List κ)) :
      (calls.map (List.map wrap)).getD [] = (calls.getD []).map wrap := by
    cases calls <;> rfl
  cases d with
  | window w =>
    cases event with
    | resolution width height => exact draws_window (w.draws_setResolution width height)
    | pixel x y lit =>
      rw [handle, setPixel, pixels]
      exact draws_window (w.draws_setPixel x y lit)
    | refresh changed => exact draws_window (w.draws_refresh changed)
    | title text => exact draws_window (List.forall_mem_singleton.mpr trivial)
  | terminal t =>
    cases event with
    | resolution width height => exact draws_terminal (t.draws_setResolution width height)
    | pixel x y lit =>
      rw [handle, setPixel, pixels]
      exact draws_terminal (t.draws_setPixel x y lit)
    | refresh changed => exact draws_terminal (t.draws_refresh host changed)
    | title text => exact draws_terminal (t.draws_setTitle text)
  | blank s => cases event <;> exact List.forall_mem_nil _

/-- Displays of one library, and in the same colours if they are windows. -/
def SameColours : Display → Display → Prop
  | window w, window v => v.dark = w.dark ∧ v.lit = w.lit
  | terminal _, terminal _ => True
  | blank _, blank _ => True
  | _, _ => False

theorem handle_sameColours (host : TerminalHost) (d : Display) (event : Event) :
    d.SameColours (d.handle host event).1 := by
  cases d with
  | window w =>
    cases event with
    | resolution width height => exact w.setResolution_colours width height
    | pixel x y lit => exact ⟨rfl, rfl⟩
    | refresh changed => exact w.refresh_colours changed
    | title text => exact ⟨rfl, rfl⟩
  | terminal t => cases event <;> exact trivial
  | blank s => cases event <;> exact trivial

end Chip8.Display
