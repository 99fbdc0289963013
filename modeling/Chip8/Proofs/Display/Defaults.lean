import Chip8.Startup

namespace Chip8

namespace Setting

/-- What a display takes an option for. Only one that is left out has the default of the display. -/
def orElse {α : Type} (left : Option α) : Setting α → Option α
  | missing => left
  | default => none
  | given a => some a

end Setting

namespace Display

structure Passed where
  scale : Setting (Argument Int)
  smoothing : Setting Int
  windowPalette : Setting (Argument String)
  terminalPalette : Setting (Argument String)
  cursor : Setting Int

inductive Choice where
  | scale
  | smoothing
  | windowPalette
  | terminalPalette
  | cursor
deriving DecidableEq

namespace Passed

def settings (o : Passed) : Settings :=
  let left : Settings := {}
  { scale := o.scale.orElse left.scale
    smoothing := o.smoothing.orElse left.smoothing
    windowPalette := o.windowPalette.orElse left.windowPalette
    terminalPalette := o.terminalPalette.orElse left.terminalPalette
    cursor := o.cursor.orElse left.cursor }

def put (o : Passed) (way : {α : Type} → Setting α) : Choice → Passed
  | .scale => { o with scale := way }
  | .smoothing => { o with smoothing := way }
  | .windowPalette => { o with windowPalette := way }
  | .terminalPalette => { o with terminalPalette := way }
  | .cursor => { o with cursor := way }

def leaveOut (o : Passed) : Choice → Passed :=
  o.put .missing

def passNone (o : Passed) : Choice → Passed :=
  o.put .default

end Passed

/-- What a display goes through. The size of the terminal changes without its being told. -/
inductive Operation where
  | tell (event : Event)
  | resize (rows columns : Int)
  | shutdown
deriving DecidableEq

/-- All that there is to see of a display after an operation. -/
structure Reply where
  calls : List Call
  fault : Option Fault
  display : Display
deriving DecidableEq

def operate (host : TerminalHost) (d : Display) : Operation → TerminalHost × Reply
  | .tell event => (host, ⟨(d.handle host event).2, d.fault? event, (d.handle host event).1⟩)
  | .resize rows columns => ({ host with rows, columns }, ⟨[], none, d⟩)
  | .shutdown => (host, ⟨d.shutdown, none, d⟩)

def replies (host : TerminalHost) (d : Display) : List Operation → List Reply
  | [] => []
  | op :: ops => (operate host d op).2 :: replies (operate host d op).1 (operate host d op).2.display ops

def observe (room : Int) (plugin : Plugin) (o : Passed) (host : TerminalHost) (ops : List Operation) :
    Except Error (List Reply) :=
  (create room plugin o.settings).map fun (d, calls) => ⟨calls, none, d⟩ :: replies host d ops

namespace Terminal

def withCursor (t : Terminal) (mode : Option Int) : Terminal :=
  { t with cursor := mode }

variable (t : Terminal) (mode : Option Int)

@[simp]
theorem withCursor_status : (t.withCursor mode).status = t.status := rfl

@[simp]
theorem withCursor_dark : (t.withCursor mode).dark = t.dark := rfl

@[simp]
theorem pixelCall_withCursor (x y : Int) (lit : Bool) :
    (t.withCursor mode).pixelCall x y lit = t.pixelCall x y lit := rfl

theorem setTitle_withCursor (text : String) :
    (t.withCursor mode).setTitle text = ((t.setTitle text).1.withCursor mode, (t.setTitle text).2) := by
  let titled : Terminal := { t with status := { t.status with title := text } }
  by_cases h : titled.showsTitle text ∧ titled.titleFault? text = none
  · have hs : t.setTitle text = _ := if_pos h
    rw [hs]
    exact if_pos h
  · have hs : t.setTitle text = _ := if_neg h
    rw [hs]
    exact if_neg h

theorem setResolution_withCursor (width height : Int) :
    (t.withCursor mode).setResolution width height =
      ((t.setResolution width height).1.withCursor mode, (t.setResolution width height).2) := by
  have hr : (t.withCursor mode).resized width height = (t.resized width height).withCursor mode := rfl
  have hs := (t.resized width height).setTitle_withCursor mode
  by_cases h : width = 0 ∨ height = 0
  · simp only [setResolution, if_pos h, hr]
  · simp only [setResolution, if_neg h, hr, hs, withCursor_status, withCursor_dark, pixelCall_withCursor]

theorem refresh_withCursor (host : TerminalHost) (changed : Bool) :
    (t.withCursor mode).refresh host changed =
      ((t.refresh host changed).1.withCursor mode, (t.refresh host changed).2) := by
  by_cases hs : t.size ≠ some (host.rows, host.columns)
  · have hr : t.refresh host changed = _ := if_pos hs
    rw [hr]
    exact if_pos hs
  · by_cases hd : (t.dirty || changed) = true ∧ t.hasPad = true
    · have hr : t.refresh host changed = _ := (if_neg hs).trans (if_pos hd)
      rw [hr]
      exact (if_neg hs).trans (if_pos hd)
    · have hr : t.refresh host changed = _ := (if_neg hs).trans (if_neg hd)
      rw [hr]
      exact (if_neg hs).trans (if_neg hd)

theorem shutdown_withCursor {mode : Option Int} (h : mode ≠ some 1) :
    (t.withCursor mode).shutdown = [.noCharBreak, .echo, .setCursor (some 1), .leave] := by
  simp [shutdown, withCursor, h]

end Terminal

def withCursor (mode : Option Int) : Display → Display
  | terminal t => terminal (t.withCursor mode)
  | d => d

theorem handle_withCursor (host : TerminalHost) (mode : Option Int) (d : Display) (event : Event) :
    (d.withCursor mode).handle host event =
      ((d.handle host event).1.withCursor mode, (d.handle host event).2) := by
  cases d with
  | terminal t =>
    cases event with
    | resolution width height =>
      simp only [withCursor, handle, setResolution, Terminal.setResolution_withCursor, ofTerminal]
    | pixel x y lit => rfl
    | refresh changed => simp only [withCursor, handle, refresh, Terminal.refresh_withCursor, ofTerminal]
    | title text => simp only [withCursor, handle, setTitle, Terminal.setTitle_withCursor, ofTerminal]
  | window w => cases event <;> rfl
  | blank s => cases event <;> rfl

theorem fault?_withCursor (mode : Option Int) (d : Display) (event : Event) :
    (d.withCursor mode).fault? event = d.fault? event := by
  cases d <;> cases event <;> rfl

theorem shutdown_withCursor {a b : Option Int} (ha : a ≠ some 1) (hb : b ≠ some 1) (d : Display) :
    (d.withCursor a).shutdown = (d.withCursor b).shutdown := by
  cases d with
  | terminal t => simp only [withCursor, shutdown, t.shutdown_withCursor ha, t.shutdown_withCursor hb]
  | window w => rfl
  | blank s => rfl

theorem withCursor_withCursor (a b : Option Int) (d : Display) :
    (d.withCursor b).withCursor a = d.withCursor a := by
  cases d <;> rfl

def Reply.withCursor (mode : Option Int) (r : Reply) : Reply :=
  { r with display := r.display.withCursor mode }

/-- Cursor modes other than that of the end show in nothing that a display does once it is made. -/
theorem replies_withCursor {a b : Option Int} (ha : a ≠ some 1) (hb : b ≠ some 1) (host : TerminalHost)
    (d : Display) (ops : List Operation) :
    replies host (d.withCursor a) ops = (replies host (d.withCursor b) ops).map (Reply.withCursor a) := by
  induction ops generalizing host d with
  | nil => rfl
  | cons op ops ih =>
    cases op with
    | tell event =>
      simp only [replies, operate, handle_withCursor, fault?_withCursor, ih, List.map_cons,
        Reply.withCursor, withCursor_withCursor]
    | resize rows columns =>
      simp only [replies, operate, ih, List.map_cons, Reply.withCursor, withCursor_withCursor]
    | shutdown =>
      simp only [replies, operate, ih, List.map_cons, Reply.withCursor, withCursor_withCursor,
        shutdown_withCursor ha hb]

theorem Terminal.create_withCursor (room : Int) (scale : Option (Argument Int)) (palette : Option (Argument String))
    (a b : Option Int) :
    Terminal.create room ⟨scale, palette, a⟩ = (Terminal.create room ⟨scale, palette, b⟩).map fun (t, calls) =>
      (t.withCursor a, calls.set 3 (.setCursor a)) := by
  simp only [create, bind, Except.bind, pure, Except.pure]
  cases Argument.demand Error.noScale scale with
  | error e => rfl
  | ok scale =>
    simp only
    cases (Size.check room (scale.getD defaultScale)).mapError Error.scale with
    | error e => rfl
    | ok _ =>
      cases Argument.demand Error.noPalette palette with
      | error e => rfl
      | ok palette =>
        cases palette with
        | none => rfl
        | some text =>
          simp only
          cases (Palette.parsePair (some text) black white 1 8).mapError Error.palette with
          | error e => rfl
          | ok colours => rfl

theorem create_passNone {room : Int} {plugin : Plugin} {c : Choice} (o : Passed)
    (h : ¬ (plugin = .terminal ∧ c = .cursor)) :
    create room plugin (o.passNone c).settings = create room plugin (o.leaveOut c).settings := by
  cases c with
  | cursor =>
    cases plugin with
    | terminal => exact absurd ⟨rfl, rfl⟩ h
    | window => rfl
    | blank => rfl
  | smoothing => cases plugin <;> rfl
  | _ => rfl

/-- What there is to see with no cursor mode in the place of a mode: no mode in the fourth call of all, and
none kept. -/
def modeless (seen : List Reply) : List Reply :=
  (seen.map (Reply.withCursor none)).modifyHead fun first =>
    { first with calls := first.calls.set 3 (.terminal (.setCursor none)) }

theorem create_withCursor (room : Int) (s : Settings) (a b : Option Int) :
    create room .terminal { s with cursor := a } =
      (create room .terminal { s with cursor := b }).map fun (d, calls) =>
        (d.withCursor a, calls.set 3 (.terminal (.setCursor a))) := by
  simp only [create, Terminal.create_withCursor room s.scale s.terminalPalette a b]
  cases Terminal.create room ⟨s.scale, s.terminalPalette, b⟩ with
  | error e => rfl
  | ok made => simp only [Except.map, List.map_set, withCursor]

theorem create_passNone_cursor (room : Int) (o : Passed) :
    create room .terminal (o.passNone .cursor).settings =
      (create room .terminal (o.leaveOut .cursor).settings).map fun (d, calls) =>
        (d.withCursor none, calls.set 3 (.terminal (.setCursor none))) :=
  create_withCursor room (o.leaveOut .cursor).settings none (some 0)

theorem exists_of_leaveOut {room : Int} {o : Passed} {d : Display} {calls : List Call}
    (h : create room .terminal (o.leaveOut .cursor).settings = .ok (d, calls)) :
    ∃ t : Terminal, d = (terminal t).withCursor (some 0) := by
  rw [create, Terminal.create_withCursor _ _ _ _ (some 0)] at h
  generalize Terminal.create _ _ = made at h
  cases made with
  | error e => cases h
  | ok made =>
    cases h
    exact ⟨made.1, rfl⟩

theorem observe_passNone_cursor (room : Int) (o : Passed) (host : TerminalHost) (ops : List Operation) :
    observe room .terminal (o.passNone .cursor) host ops =
      (observe room .terminal (o.leaveOut .cursor) host ops).map modeless := by
  rw [observe, observe, create_passNone_cursor]
  cases h : create room .terminal (o.leaveOut .cursor).settings with
  | error e => rfl
  | ok made =>
    obtain ⟨d, calls⟩ := made
    obtain ⟨t, rfl⟩ := exists_of_leaveOut h
    have hr := replies_withCursor (a := none) (b := some 0) (by decide) (by decide) host (terminal t) ops
    simp only [Except.map, modeless, withCursor_withCursor, hr, List.map_cons, List.modifyHead_cons,
      Reply.withCursor]

theorem modeless_ne {room : Int} {o : Passed} {host : TerminalHost} {ops : List Operation} {seen : List Reply}
    (h : observe room .terminal (o.leaveOut .cursor) host ops = .ok seen) : modeless seen ≠ seen := by
  rw [observe] at h
  cases hc : create room .terminal (o.leaveOut .cursor).settings with
  | error e =>
    rw [hc] at h
    cases h
  | ok made =>
    obtain ⟨d, calls⟩ := made
    obtain ⟨t, rfl⟩ := exists_of_leaveOut hc
    rw [hc] at h
    cases h
    intro hm
    cases congrArg (fun seen => seen.head?.map Reply.display) hm

/-- An option that is none does what one that is left out does: the same calls and all the same to see, whatever
the display goes through. Only the cursor mode of a terminal that can be made does not: no mode is handed to
the library in the place of mode 0, and is kept. -/
theorem none_as_left_out (room : Int) (plugin : Plugin) (c : Choice) (o : Passed) (host : TerminalHost)
    (ops : List Operation) :
    (observe room plugin (o.passNone c) host ops = observe room plugin (o.leaveOut c) host ops ↔
      ¬ (plugin = .terminal ∧ c = .cursor ∧ ∃ seen, observe room plugin (o.leaveOut c) host ops = .ok seen)) ∧
    observe room .terminal (o.passNone .cursor) host ops =
      (observe room .terminal (o.leaveOut .cursor) host ops).map modeless := by
  refine ⟨⟨?_, ?_⟩, observe_passNone_cursor room o host ops⟩
  · rintro h ⟨rfl, rfl, seen, hseen⟩
    rw [observe_passNone_cursor, hseen] at h
    exact modeless_ne hseen (Except.ok.inj h)
  · intro h
    by_cases ht : plugin = .terminal ∧ c = .cursor
    · obtain ⟨rfl, rfl⟩ := ht
      rw [observe_passNone_cursor]
      cases ho : observe room .terminal (o.leaveOut .cursor) host ops with
      | error e => rfl
      | ok seen => exact absurd ⟨rfl, rfl, seen, ho⟩ h
    · rw [observe, observe, create_passNone o ht]

/-- Terminals made with no cursor mode and without the option call the library differently. -/
theorem none_not_as_left_out :
    let o : Passed := ⟨.missing, .missing, .missing, .missing, .missing⟩
    let opening (mode : Option Int) : List Call :=
      [.terminal .start, .terminal .noEcho, .terminal .charBreak, .terminal (.setCursor mode)]
    let closing : List Call :=
      [.terminal .noCharBreak, .terminal .echo, .terminal (.setCursor (some 1)), .terminal .leave]
    let calls (o : Passed) :=
      (observe 80 .terminal o ⟨24, 80, true⟩ [.shutdown]).map (List.map Reply.calls)
    calls (o.passNone .cursor) = .ok [opening none, closing] ∧
    calls (o.leaveOut .cursor) = .ok [opening (some 0), closing] ∧
    calls (o.passNone .cursor) ≠ calls (o.leaveOut .cursor) := by
  intro o opening closing calls
  have hn : calls (o.passNone .cursor) = .ok [opening none, closing] := by rfl
  have hl : calls (o.leaveOut .cursor) = .ok [opening (some 0), closing] := by rfl
  refine ⟨hn, hl, fun h => ?_⟩
  rw [hn, hl] at h
  cases h

end Display

end Chip8
