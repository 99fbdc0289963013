import Chip8.Proofs.Cycle.Result
import Chip8.Proofs.Keypad.Snapshot

namespace Chip8.Processor

variable {p q : Processor} {s t : Session}

def starts (p : Processor) : List Act → Session → List Session
  | [], _ => []
  | .keys snapshot :: acts, s => p.starts acts (p.act (.keys snapshot) s)
  | .cycle :: acts, s => s :: p.starts acts (p.act .cycle s)

def errors (p : Processor) (acts : List Act) (s : Session) : List (Option CycleError) :=
  (p.starts acts s).map p.error?

theorem act_keys (p : Processor) (snapshot : List Keypad.Reading) (s : Session) :
    p.act (.keys snapshot) s =
      { s with machine := { s.machine with keypad := s.machine.keypad.offered snapshot } } := by
  rw [act, Keypad.offered]
  cases s.machine.keypad.setKeys snapshot <;> rfl

theorem play_append (p : Processor) (acts more : List Act) (s : Session) :
    p.play (acts ++ more) s = p.play more (p.play acts s) := by
  induction acts generalizing s with
  | nil => rfl
  | cons a acts ih => exact ih _

theorem starts_append (p : Processor) (acts more : List Act) (s : Session) :
    p.starts (acts ++ more) s = p.starts acts s ++ p.starts more (p.play acts s) := by
  induction acts generalizing s with
  | nil => rfl
  | cons a acts ih =>
    cases a with
    | keys snapshot => exact ih _
    | cycle => exact congrArg (s :: ·) (ih _)

theorem errors_append (p : Processor) (acts more : List Act) (s : Session) :
    p.errors (acts ++ more) s = p.errors acts s ++ p.errors more (p.play acts s) := by
  simp only [errors, starts_append, List.map_append]

/-- Two histories of the same acts, where `C` holds of every session that the first begins a cycle in. -/
theorem play_related {α : Type} (kind : CycleError → α) {R : Session → Session → Prop}
    {C : Session → Prop}
    (hkeys : ∀ snapshot s t, R s t → R (p.act (.keys snapshot) s) (q.act (.keys snapshot) t))
    (hcycle : ∀ s t, C s → R s t →
      R (p.act .cycle s) (q.act .cycle t) ∧ (p.error? s).map kind = (q.error? t).map kind)
    (acts : List Act) (hC : ∀ c ∈ p.starts acts s, C c) (h : R s t) :
    R (p.play acts s) (q.play acts t) ∧
      (p.errors acts s).map (Option.map kind) = (q.errors acts t).map (Option.map kind) := by
  induction acts generalizing s t with
  | nil => exact ⟨h, by simp only [errors, starts, List.map_nil]⟩
  | cons a acts ih =>
    cases a with
    | keys snapshot =>
      simp only [starts] at hC
      simp only [play, errors, starts]
      exact ih hC (hkeys snapshot s t h)
    | cycle =>
      simp only [starts, List.forall_mem_cons] at hC
      obtain ⟨hr, he⟩ := hcycle s t hC.1 h
      obtain ⟨hp, hm⟩ := ih hC.2 hr
      simp only [play, errors, starts, List.map_cons, he, List.cons.injEq, true_and]
      exact ⟨hp, hm⟩

def feed (keys : Nat → List Keypad.Reading) : Nat → List Act
  | 0 => []
  | n + 1 => feed keys n ++ [.keys (keys n), .cycle]

theorem play_feed_succ (p : Processor) (keys : Nat → List Keypad.Reading) (n : Nat) (s : Session) :
    p.play (feed keys (n + 1)) s =
      p.act .cycle (p.act (.keys (keys n)) (p.play (feed keys n) s)) := by
  rw [feed, play_append, play, play, play]

theorem errors_feed_succ (p : Processor) (keys : Nat → List Keypad.Reading) (n : Nat) (s : Session) :
    p.errors (feed keys (n + 1)) s =
      p.errors (feed keys n) s ++ [p.error? (p.act (.keys (keys n)) (p.play (feed keys n) s))] := by
  rw [feed, errors_append]
  simp only [errors, starts, List.map_cons, List.map_nil]

end Chip8.Processor
