import Chip8.Proofs.Display.Calls
import Chip8.Proofs.Display.Current

namespace Chip8.Display

def Call.handsBack : Call → Bool
  | .window c => c == .quitDisplay
  | .terminal c => c == .leave

def KeepsOpen (calls : List Call) : Prop :=
  ∀ c ∈ calls, c.handsBack = false

theorem keepsOpen_window {calls : List WindowCall} (h : .quitDisplay ∉ calls) :
    KeepsOpen (calls.map .window) := by
  simpa [KeepsOpen, Call.handsBack, List.forall_mem_ne'] using h

theorem keepsOpen_terminal {calls : List TerminalCall} (h : .leave ∉ calls) :
    KeepsOpen (calls.map .terminal) := by
  simpa [KeepsOpen, Call.handsBack, List.forall_mem_ne'] using h

namespace Terminal

theorem leave_notMem_create {room : Int} {settings : Settings} {t : Terminal} {opening : List TerminalCall}
    (h : create room settings = .ok (t, opening)) : .leave ∉ opening := by
  simp only [create, bind, Except.bind, pure, Except.pure] at h
  repeat' split at h
  all_goals cases h
  all_goals simp

end Terminal

theorem Draws.keepsOpen {d : Display} {c : Call} (h : d.Draws c) : c.handsBack = false := by
  cases c with
  | window c =>
    have hne : c ≠ .quitDisplay := by
      rintro rfl
      cases d <;> exact h
    simpa [Call.handsBack] using hne
  | terminal c =>
    have hne : c ≠ .leave := by
      rintro rfl
      cases d <;> exact h
    simpa [Call.handsBack] using hne

theorem handle_keepsOpen (host : TerminalHost) (d : Display) (event : Event) :
    KeepsOpen (d.handle host event).2 :=
  fun c hc => (d.handle_draws host event c hc).keepsOpen

theorem create_keepsOpen {room : Int} {plugin : Plugin} {settings : Settings} {d : Display}
    {opening : List Call} (h : create room plugin settings = .ok (d, opening)) : KeepsOpen opening := by
  obtain ⟨w, calls, -, rfl, hc⟩ | ⟨t, calls, -, rfl, hc⟩ | ⟨s, -, rfl⟩ := create_cases h
  · refine keepsOpen_window ?_
    simp [(Window.create_eq hc).2.2]
  · exact keepsOpen_terminal (Terminal.leave_notMem_create hc)
  · exact List.forall_mem_nil _

/-- A library that was called is handed back by the last call of the shutdown, and by no other. -/
theorem shutdown_handsBack (d : Display) :
    (∃ s, d = blank s) ∧ d.shutdown = [] ∨
      ∃ calls last, d.shutdown = calls ++ [last] ∧ KeepsOpen calls ∧ last.handsBack = true := by
  cases d with
  | window w => exact .inr ⟨[], .window .quitDisplay, rfl, List.forall_mem_nil _, rfl⟩
  | terminal t =>
    let calls : List TerminalCall :=
      [.noCharBreak, .echo] ++ if t.cursor = some 1 then [] else [.setCursor (some 1)]
    have hc : .leave ∉ calls := by
      by_cases h : t.cursor = some 1 <;> simp [calls, h]
    have hs : (terminal t).shutdown = (calls ++ [TerminalCall.leave]).map .terminal := rfl
    exact .inr ⟨_, .terminal .leave, hs.trans List.map_append, keepsOpen_terminal hc, rfl⟩
  | blank s => exact .inl ⟨⟨s, rfl⟩, rfl⟩

end Chip8.Display
