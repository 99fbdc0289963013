import Chip8.Proofs.Display.Stable
import Chip8.Proofs.Display.Calls

namespace Chip8.Display

def Event.resolves : Event → Bool
  | resolution _ _ => true
  | _ => false

/-- The display can draw pixels, and it has room for each title that it would show. -/
def Listens : Display → Prop
  | window w => w.offscreen.isSome = true
  | terminal t => t.hasPad = true ∧ (0 < t.titleWidth → Size.error? t.room t.titleWidth = none)
  | blank _ => True

variable {d : Display} {e : Event}

theorem Listens.fault? (h : d.Listens) (hn : e.resolves = false) : d.fault? e = none := by
  cases d with
  | window w =>
    obtain ⟨surface, hs⟩ := Option.isSome_iff_exists.mp h
    cases e with
    | pixel x y lit => simp [Display.fault?, setPixel, Window.setPixel, hs]
    | resolution width height => cases hn
    | refresh changed => rfl
    | title text => rfl
  | terminal t =>
    obtain ⟨hp, hwidth⟩ := h
    cases e with
    | pixel x y lit => simp [Display.fault?, setPixel, Terminal.setPixel, hp]
    | resolution width height => cases hn
    | refresh changed => rfl
    | title text =>
      rw [Display.fault?, Terminal.titleFault?, Terminal.showsTitle]
      split
      · next hs =>
        -- a title that is shown is shorter than its line, which has been found to be no longer than there is room
        have hs := (decide_eq_true_eq.mp hs).2
        rw [hwidth (by omega)]
        rfl
      · rfl
  | blank s => cases e <;> rfl

theorem listens_setTitle {t : Terminal} (h : (terminal t).Listens) (text : String) :
    (terminal (t.setTitle text).1).Listens := by
  rw [Terminal.setTitle]
  split <;> exact h

theorem listens_refresh {t : Terminal} (h : (terminal t).Listens) (host : TerminalHost) (changed : Bool) :
    (terminal (t.refresh host changed).1).Listens := by
  rw [Terminal.refresh]
  split
  · exact h
  · split <;> exact h

theorem Listens.handle (h : d.Listens) (hn : e.resolves = false) (host : TerminalHost) :
    (d.handle host e).1.Listens := by
  cases d with
  | window w =>
    cases e with
    | refresh changed =>
      rw [Display.handle, Display.refresh]
      unfold Window.refresh
      split <;> exact h
    | resolution width height => cases hn
    | pixel x y lit => exact h
    | title text => exact h
  | terminal t =>
    cases e with
    | refresh changed => exact listens_refresh h host changed
    | resolution width height => cases hn
    | pixel x y lit => exact h
    | title text => exact listens_setTitle h text
  | blank s => cases e <;> exact trivial

/-- A display listens from its first resolution on, if that is not too much for it. -/
theorem listens_resolution {room : Int} {plugin : Plugin} {settings : Settings} {opening : List Call}
    (hc : create room plugin settings = .ok (d, opening)) {width height : Int} (hw : width ≠ 0)
    (hh : height ≠ 0) (hf : d.fault? (.resolution width height) = none) (host : TerminalHost) :
    (d.handle host (.resolution width height)).1.Listens := by
  have hne : ¬ (width = 0 ∨ height = 0) := by omega
  obtain ⟨w, calls, rfl, -, -⟩ | ⟨t, calls, rfl, -, hmade⟩ | ⟨s, rfl, -⟩ := create_cases hc
  · simp [handle, setResolution, ofWindow, Window.setResolution, hne, Listens, Window.refresh]
  · have htitle := (Terminal.create_eq hmade).1
    have hl : (terminal (t.resized width height)).Listens := by
      refine ⟨by simp [Terminal.resized, hw, hh], fun hpos => ?_⟩
      rw [fault?, Terminal.resolutionFault?, if_neg hne, htitle, Terminal.titleFault?, if_pos,
        Option.map_eq_none_iff] at hf
      · exact hf
      · simpa [Terminal.showsTitle, Terminal.resized, hw, hh] using hpos
    have hs := listens_setTitle hl t.status.title
    simp only [handle, setResolution, ofTerminal, Terminal.setResolution, hne, if_false]
    exact hs
  · exact trivial

end Chip8.Display
