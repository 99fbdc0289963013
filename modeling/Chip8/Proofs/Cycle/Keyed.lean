import Chip8.Controls
import Chip8.Proofs.Cycle.History

namespace Chip8

def KeyStates.snapshot (held : KeyStates) : List Keypad.Reading :=
  held.toList.map .flag

theorem setKeys_snapshot (k : Keypad) (held : KeyStates) :
    k.setKeys held.snapshot = .ok ⟨held⟩ := by
  have hl : held.snapshot.length = 16 := by
    rw [KeyStates.snapshot, List.length_map, Vector.length_toList]
  have hm : held.snapshot.map Keypad.Reading.pressed = held.toList := by
    rw [KeyStates.snapshot, List.map_map]
    exact List.map_id _
  rw [Keypad.setKeys, dif_pos hl]
  congr 2
  apply Vector.toList_inj.mp
  exact hm

namespace Processor

variable {p : Processor} {s t u : Session} {e : CycleError} {keys more : List KeyStates}

/-- Takes over a snapshot of the keys and runs a cycle. -/
def keyedCycle (p : Processor) (held : KeyStates) : EStateM CycleError Session Unit := fun s =>
  p.cycle (p.act (.keys held.snapshot) s)

/-- Cycles with these snapshots, up to the first cycle that is not completed. -/
def runKeyed (p : Processor) : List KeyStates → EStateM CycleError Session Unit
  | [] => pure ()
  | held :: keys => do
    p.keyedCycle held
    runKeyed p keys

theorem keyedCycle_eq (p : Processor) (held : KeyStates) (s : Session) :
    p.keyedCycle held s = p.cycle { s with machine := { s.machine with keypad := ⟨held⟩ } } := by
  simp only [keyedCycle, act, setKeys_snapshot]

theorem runKeyed_cons {held : KeyStates} (h : p.keyedCycle held s = .ok () t) :
    p.runKeyed (held :: keys) s = p.runKeyed keys t := by
  simp only [runKeyed, bind, EStateM.bind, h]

theorem runKeyed_cons_error {held : KeyStates} (h : p.keyedCycle held s = .error e t) :
    p.runKeyed (held :: keys) s = .error e t := by
  simp only [runKeyed, bind, EStateM.bind, h]

theorem runKeyed_append (h : p.runKeyed keys s = .ok () t) :
    p.runKeyed (keys ++ more) s = p.runKeyed more t := by
  induction keys generalizing s with
  | nil =>
    cases h
    rfl
  | cons held keys ih =>
    rw [List.cons_append]
    cases hc : p.keyedCycle held s with
    | ok _ u =>
      rw [runKeyed_cons hc] at h ⊢
      exact ih h
    | error e u =>
      rw [runKeyed_cons_error hc] at h
      cases h

/-- How cycles with snapshots end: all are completed, or all but the last, which fails. -/
inductive Ends (p : Processor) (s : Session) :
    List KeyStates → Except CycleError Unit → Session → Prop where
  | returned {keys : List KeyStates} {t : Session} (h : p.runKeyed keys s = .ok () t) :
      Ends p s keys (.ok ()) t
  | failed {keys : List KeyStates} {last : KeyStates} {t u : Session} {e : CycleError}
      (h : p.runKeyed keys s = .ok () t) (hc : p.keyedCycle last t = .error e u) :
      Ends p s (keys ++ [last]) (.error e) u

theorem Ends.cons {held : KeyStates} {result : Except CycleError Unit}
    (hc : p.keyedCycle held s = .ok () t) (h : p.Ends t keys result u) :
    p.Ends s (held :: keys) result u := by
  cases h with
  | returned h => exact .returned ((runKeyed_cons hc).trans h)
  | failed h hl => exact .failed ((runKeyed_cons hc).trans h) hl

theorem Ends.runKeyed_eq {result : Except CycleError Unit} (h : p.Ends s keys result t) :
    p.runKeyed keys s =
      match result with
      | .ok () => .ok () t
      | .error e => .error e t := by
  cases h with
  | returned h => exact h
  | failed h hc => rw [runKeyed_append h, runKeyed_cons_error hc]

theorem Ends.unique {result result' : Except CycleError Unit} (h : p.Ends s keys result t)
    (h' : p.Ends s keys result' u) : result = result' ∧ t = u := by
  have he := h.runKeyed_eq.symm.trans h'.runKeyed_eq
  cases result <;> cases result' <;> cases he <;> exact ⟨rfl, rfl⟩

end Processor

end Chip8
