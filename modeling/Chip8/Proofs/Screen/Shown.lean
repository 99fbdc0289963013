import Chip8.Host
import Chip8.Proofs.Screen.Paint

namespace Chip8.Screen.View

variable {width height : Nat}

inductive Act where
  | clear
  | draw (x y : Int) (sprite : List UInt8)
  | refresh
deriving DecidableEq

/-- The view after an act, and what the display is told. A drawing that fails leaves the cells switched so
far. -/
def act (v : View width height) : Act → View width height × List Display.Event
  | .clear => ({ v with screen := v.screen.clear }, [])
  | .draw x y sprite =>
    match drawSprite x y sprite v.screen with
    | .ok _ screen => ({ v with screen }, [])
    | .error _ screen => ({ v with screen }, [])
  | .refresh => v.refresh

def play : List Act → View width height × List Display.Event → View width height × List Display.Event
  | [], r => r
  | a :: acts, (v, told) =>
    let (w, events) := v.act a
    play acts (w, told ++ events)

variable {r : View width height × List Display.Event} {acts : List Act}

theorem play_append (before after : List Act) (r : View width height × List Display.Event) :
    play (before ++ after) r = play after (play before r) := by
  induction before generalizing r with
  | nil => rfl
  | cons a before ih => exact ih _

theorem act_of_ne_refresh (v : View width height) {a : Act} (h : a ≠ .refresh) :
    (v.act a).1.shown = v.shown ∧ (v.act a).2 = [] := by
  cases a with
  | clear => exact ⟨rfl, rfl⟩
  | draw x y sprite =>
    simp only [act]
    cases drawSprite x y sprite v.screen <;> exact ⟨rfl, rfl⟩
  | refresh => exact absurd rfl h

theorem play_of_no_refresh (h : .refresh ∉ acts) :
    (play acts r).1.shown = r.1.shown ∧ (play acts r).2 = r.2 := by
  induction acts generalizing r with
  | nil => exact ⟨rfl, rfl⟩
  | cons a acts ih =>
    obtain ⟨hs, ht⟩ := act_of_ne_refresh r.1 fun he => h (he ▸ List.mem_cons_self)
    obtain ⟨hs', ht'⟩ := ih (r := (_, r.2 ++ (r.1.act a).2)) fun hm => h (List.mem_cons_of_mem _ hm)
    refine ⟨hs'.trans hs, ht'.trans ?_⟩
    rw [ht, List.append_nil]

def Told (r : View width height × List Display.Event) : Prop :=
  Picture.dark.paintAll r.2 = r.1.shown.lit

theorem lit_blank (x y : Int) : (blank width height).lit x y = false := by
  by_cases h : OnScreen width height x y
  · rw [lit_eq_getElem _ h.address_lt h rfl]
    simp [blank]
  · exact lit_of_not_onScreen _ h

theorem told_start (screen : Screen width height) : Told (start screen) := by
  funext x y
  exact (lit_blank x y).symm

theorem frames_refresh (h : Told r) :
    Frames (Picture.dark.paintAll r.2) r.1.screen r.1.refresh.2 := by
  rw [h]
  exact frames_frame _ _

theorem told_refresh (h : Told r) : Told (r.1.refresh.1, r.2 ++ r.1.refresh.2) := by
  have hoff (x y : Int) (hs : ¬ OnScreen width height x y) : r.1.shown.lit x y = false :=
    lit_of_not_onScreen _ hs
  simp only [Told, Picture.paintAll_append]
  rw [h]
  exact (frames_frame r.1.shown r.1.screen).paintAll hoff

theorem told_act (h : Told r) (a : Act) : Told ((r.1.act a).1, r.2 ++ (r.1.act a).2) := by
  by_cases ha : a = .refresh
  · subst ha
    exact told_refresh h
  · obtain ⟨hs, ht⟩ := act_of_ne_refresh r.1 ha
    rw [Told, hs, ht, List.append_nil]
    exact h

theorem told_play (h : Told r) (acts : List Act) : Told (play acts r) := by
  induction acts generalizing r with
  | nil => exact h
  | cons a acts ih => exact ih (told_act h a)

/-- A screen is put on a display and then cleared, drawn on and shown in any order. Painting all that the
display has been told gives the screen as it was at the latest frame, and a dark picture before the first.
Each frame holds just the cells that differ from what the display shows, once and row by row, and then whether
there were any. A host begins and refreshes its display in this way. -/
theorem shown_of_told (screen : Screen width height) :
    (∀ acts, .refresh ∉ acts →
      Picture.dark.paintAll (play acts (start screen)).2 = Picture.dark) ∧
    (∀ before after, .refresh ∉ after →
      let r := play before (start screen)
      Frames (Picture.dark.paintAll r.2) r.1.screen r.1.refresh.2 ∧
      (play (before ++ .refresh :: after) (start screen)).2 = r.2 ++ r.1.refresh.2 ∧
      Picture.dark.paintAll (play (before ++ .refresh :: after) (start screen)).2 =
        r.1.screen.lit) ∧
    (∀ session speed h told, Host.start session speed = .ok (h, told) →
      (h.view, told) = ((start session.machine.screen).1,
        (start session.machine.screen).2 ++ [Host.reportTitle 0 0])) ∧
    ∀ h : Host, (h.refresh.1.view, h.refresh.2) = h.view.refresh := by
  refine ⟨fun acts hn => ?_, fun before after hn => ?_, fun session speed h told hs => ?_,
    fun h => rfl⟩
  · rw [(play_of_no_refresh hn).2]
    rfl
  · intro r
    have hr : Told r := told_play (told_start screen) before
    have hp : play (before ++ .refresh :: after) (start screen) =
        play after (r.1.refresh.1, r.2 ++ r.1.refresh.2) := play_append before (.refresh :: after) _
    obtain ⟨-, ht⟩ := play_of_no_refresh (r := (r.1.refresh.1, r.2 ++ r.1.refresh.2)) hn
    refine ⟨frames_refresh hr, hp ▸ ht, ?_⟩
    rw [hp, ht]
    exact told_refresh hr
  · rw [Host.start] at hs
    cases hi : Host.intervalOf speed with
    | error e =>
      rw [hi] at hs
      cases hs
    | ok interval =>
      rw [hi] at hs
      cases hs
      rfl

theorem shown_of_told_cleared :
    let before : List Act := [.draw 3 1 [0xC0], .refresh, .clear]
    let after : List Act := [.draw 0 0 [0xFF]]
    let screen : Screen 4 2 := ⟨Vector.replicate 8 true⟩
    .refresh ∉ after ∧
      Picture.dark.paintAll (play (before ++ .refresh :: after) (start screen)).2 =
        (blank 4 2).lit := by
  intro before after screen
  have hn : .refresh ∉ after := by decide
  exact ⟨hn, ((shown_of_told screen).2.1 before after hn).2.2⟩

end Chip8.Screen.View
