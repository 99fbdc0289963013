import Mathlib.Data.List.Induction
import Chip8.Display.Event
import Chip8.Proofs.Screen.Picture

namespace Chip8.Display

inductive Act where
  | title (text : String)
  /-- Pixels by column, row and light, none of them or more. -/
  | frame (pixels : List (Int × Int × Bool))
deriving DecidableEq

def frameEvents (pixels : List (Int × Int × Bool)) : List Event :=
  pixels.map (fun p => .pixel p.1 p.2.1 p.2.2) ++ [.refresh (!pixels.isEmpty)]

def Act.events : Act → List Event
  | title text => [.title text]
  | frame pixels => frameEvents pixels

def Act.OnScreen (width height : Nat) : Act → Prop
  | title _ => True
  | frame pixels => ∀ p ∈ pixels, Screen.OnScreen width height p.1 p.2.1

variable {δ α κ : Type}

/-- A display after some acts, and all calls made by then. -/
def play (act : α → δ → δ × List κ) : List α → δ × List κ → δ × List κ
  | [], r => r
  | a :: acts, (d, calls) => play act acts ((act a d).1, calls ++ (act a d).2)

theorem play_append (act : α → δ → δ × List κ) (before after : List α) (r : δ × List κ) :
    play act (before ++ after) r = play act after (play act before r) := by
  induction before generalizing r with
  | nil => rfl
  | cons a before ih => exact ih _

theorem play_calls (act : α → δ → δ × List κ) (acts : List α) (d : δ) (calls : List κ) :
    play act acts (d, calls) =
      ((play act acts (d, [])).1, calls ++ (play act acts (d, [])).2) := by
  induction acts generalizing d calls with
  | nil => simp [play]
  | cons a acts ih => rw [play, play, ih, ih _ ([] ++ _), List.nil_append, List.append_assoc]

/-- What an act carries on from all acts before it holds of every list of acts. -/
theorem play_induction {act : α → δ → δ × List κ} {r : δ × List κ} {P : List α → δ × List κ → Prop}
    {acts : List α} (hr : P [] r)
    (ha : ∀ done, ∀ a ∈ acts, ∀ d calls, P done (d, calls) →
      P (done ++ [a]) ((act a d).1, calls ++ (act a d).2)) :
    P acts (play act acts r) := by
  induction acts using List.reverseRecOn with
  | nil => exact hr
  | append_singleton acts a ih =>
    rw [play_append]
    have hm {b : α} (hb : b ∈ acts) : b ∈ acts ++ [a] := List.mem_append_left _ hb
    exact ha acts a (List.mem_append_right _ (List.mem_singleton_self a)) _ _
      (ih fun done b hb => ha done b (hm hb))

end Chip8.Display
