import Chip8.Display.Window
import Chip8.Proofs.Display.Act
import Chip8.Proofs.Screen.Paint

namespace Chip8.Display

/-- The cells of a surface after a call, as far as they have been filled. -/
def fillOn (surface : Nat) (cells : Int → Int → Option Colour) : WindowCall → Int → Int → Option Colour
  | .newSurface n _ _ => if n = surface then fun _ _ => none else cells
  | .fill n colour => if n = surface then fun _ _ => some colour else cells
  | .fillCell n colour x y width height =>
    if n = surface then fun px py =>
      if (x ≤ px ∧ px < x + width) ∧ y ≤ py ∧ py < y + height then some colour else cells px py
    else cells
  | _ => cells

def filled (surface : Nat) (calls : List WindowCall) : Int → Int → Option Colour :=
  calls.foldl (fillOn surface) fun _ _ => none

def WindowCall.made? : WindowCall → Option Nat
  | newSurface n _ _ => some n
  | double _ target _ _ => some target
  | stretch _ target _ _ => some target
  | _ => none

/-- A surface and those made from it by doubling, which are numbered from `first` on. -/
def link (source first : Nat) : Nat → Nat
  | 0 => source
  | k + 1 => first + k

def doublings (source first : Nat) (width height : Int) (times : Nat) : List WindowCall :=
  (List.range times).map fun k =>
    .double (link source first k) (link source first (k + 1)) (width * Int.pow 2 (k + 1))
      (height * Int.pow 2 (k + 1))

namespace Window

/-- All that it takes to show a surface: it is doubled, stretched to the size of the window and copied there. -/
def showing (w : Window) (s : Surface) (first : Nat) : List WindowCall :=
  doublings s.number first s.width s.height w.smoothing.toNat ++
    [.stretch (link s.number first w.smoothing.toNat) (first + w.smoothing.toNat) w.width w.height,
      .blit (first + w.smoothing.toNat) 0 0, .flip]

def act : Act → Window → Window × List WindowCall
  | .title text, w => w.setTitle text
  | .frame pixels, w =>
    ((w.refresh (!pixels.isEmpty)).1,
      pixels.flatMap (fun p => (w.setPixel p.1 p.2.1 p.2.2).getD []) ++ (w.refresh (!pixels.isEmpty)).2)

def opened (width height : Nat) (w : Window) (opening : List WindowCall) : Window × List WindowCall :=
  ((w.setResolution width height).1, opening ++ (w.setResolution width height).2)

def colour (w : Window) (lit : Bool) : Colour :=
  if lit then w.lit else w.dark

/-- The surface has its pixels in the picture's colours, the window shows it, and nothing but captions has
changed since. Surfaces have been numbered from zero on. -/
structure Current (w : Window) (s : Surface) (shown : Picture) (v : Window) (calls : List WindowCall) :
    Prop where
  same : v = { w with status := v.status, offscreen := some s, surfaces := v.surfaces }
  cells : filled s.number calls = fun x y => some (w.colour (shown x y))
  numbered : calls.filterMap WindowCall.made? = List.range v.surfaces
  showing : ∃ before first after, calls = before ++ w.showing s first ++ after ∧
    .newSurface s.number s.width s.height ∈ before ∧ ∀ c ∈ after, ∃ text, c = .setCaption text

variable {v w : Window} {s : Surface} {shown : Picture} {calls : List WindowCall}

theorem link_succ (source first k : Nat) : link source first (k + 1) = link first (first + 1) k := by
  cases k with
  | zero => rfl
  | succ k => rw [link, link, Nat.add_assoc, Nat.add_comm 1]

theorem doublings_succ (source first : Nat) (width height : Int) (times : Nat) :
    doublings source first width height (times + 1) =
      .double source first (2 * width) (2 * height) ::
        doublings first (first + 1) (2 * width) (2 * height) times := by
  have hsize (n : Int) (k : Nat) : n * Int.pow 2 (k + 1) = 2 * n * Int.pow 2 k := by
    have hp : Int.pow 2 (k + 1) = Int.pow 2 k * 2 := rfl
    rw [hp, Int.mul_comm _ 2, ← Int.mul_assoc, Int.mul_comm n]
  rw [doublings, List.range_succ_eq_map, List.map_cons, List.map_map, doublings]
  simp only [Function.comp_def, Nat.succ_eq_add_one, link_succ, hsize]
  simp [link, Int.pow]

theorem smooth_eq (times first : Nat) (s : Surface) :
    (smooth times first s).1.number = link s.number first times ∧
      (smooth times first s).2 = doublings s.number first s.width s.height times := by
  induction times generalizing first s with
  | zero => exact ⟨rfl, rfl⟩
  | succ times ih =>
    obtain ⟨hlast, hcalls⟩ := ih (first + 1) ⟨first, 2 * s.width, 2 * s.height⟩
    rw [doublings_succ, ← hcalls, link_succ, smooth]
    exact ⟨hlast, rfl⟩

theorem refresh_eq (ho : v.offscreen = some s) :
    v.refresh true =
      ({ v with surfaces := v.surfaces + (v.smoothing.toNat + 1) }, v.showing s v.surfaces) := by
  obtain ⟨hlast, hcalls⟩ := smooth_eq v.smoothing.toNat v.surfaces s
  rw [showing, ← hlast, ← hcalls, refresh.eq_1 v s ho]
  rfl

theorem made_showing (w : Window) (s : Surface) (first : Nat) :
    (w.showing s first).filterMap WindowCall.made? =
      (List.range (w.smoothing.toNat + 1)).map (first + ·) := by
  rw [showing, List.filterMap_append, List.range_succ, List.map_append, doublings, List.filterMap_map]
  congr 1
  rw [← List.filterMap_eq_map]
  rfl

theorem fill_append (surface : Nat) (calls more : List WindowCall) :
    filled surface (calls ++ more) = more.foldl (fillOn surface) (filled surface calls) :=
  List.foldl_append

theorem fill_doublings (surface source first : Nat) (width height : Int) (times : Nat)
    (cells : Int → Int → Option Colour) :
    (doublings source first width height times).foldl (fillOn surface) cells = cells := by
  induction times generalizing source first width height with
  | zero => rfl
  | succ times ih =>
    rw [doublings_succ]
    exact ih first (first + 1) (2 * width) (2 * height)

theorem fill_showing (w : Window) (s : Surface) (surface first : Nat) (cells : Int → Int → Option Colour) :
    (w.showing s first).foldl (fillOn surface) cells = cells := by
  rw [showing, List.foldl_append, fill_doublings]
  rfl

theorem setPixel_calls (ho : v.offscreen = some s) (pixels : List (Int × Int × Bool)) :
    pixels.flatMap (fun p => (v.setPixel p.1 p.2.1 p.2.2).getD []) =
      pixels.map fun p => .fillCell s.number (v.colour p.2.2) p.1 p.2.1 1 1 := by
  simp only [setPixel, ho, Option.map_some, Option.getD_some]
  exact List.map_eq_flatMap.symm

theorem fill_pixels (w : Window) (surface : Nat) (shown : Picture) (pixels : List (Int × Int × Bool)) :
    (pixels.map fun p => .fillCell surface (w.colour p.2.2) p.1 p.2.1 1 1).foldl (fillOn surface)
        (fun x y => some (w.colour (shown x y))) =
      fun x y => some (w.colour (shown.paintAll (frameEvents pixels) x y)) := by
  rw [frameEvents, Picture.paintAll_append]
  induction pixels generalizing shown with
  | nil => rfl
  | cons pixel pixels ih =>
    obtain ⟨x, y, lit⟩ := pixel
    have hcell : fillOn surface (fun px py => some (w.colour (shown px py)))
        (.fillCell surface (w.colour lit) x y 1 1) =
          fun px py => some (w.colour (shown.paint (.pixel x y lit) px py)) := by
      funext px py
      have hcell : ((x ≤ px ∧ px < x + 1) ∧ y ≤ py ∧ py < y + 1) ↔ (px, py) = (x, y) := by
        rw [Prod.mk.injEq]
        omega
      simp only [fillOn, if_true, Picture.paint_pixel, hcell]
      split <;> rfl
    rw [List.map_cons, List.foldl_cons, hcell]
    exact ih _

theorem made_pixels (surface : Nat) (pixels : List (Int × Int × Bool)) :
    (pixels.map fun p => WindowCall.fillCell surface (w.colour p.2.2) p.1 p.2.1 1 1).filterMap
      WindowCall.made? = [] := by
  rw [List.filterMap_map]
  exact List.filterMap_eq_nil_iff.mpr fun _ _ => rfl

theorem Current.title (h : Current w s shown v calls) (text : String) :
    Current w s shown (v.setTitle text).1 (calls ++ (v.setTitle text).2) := by
  obtain ⟨before, first, after, hcalls, hnew, hafter⟩ := h.showing
  constructor
  · rw [h.same]
    rfl
  · rw [fill_append, h.cells]
    rfl
  · rw [List.filterMap_append, h.numbered]
    exact List.append_nil _
  · refine ⟨before, first, after ++ (v.setTitle text).2, ?_, hnew, ?_⟩
    · rw [hcalls, List.append_assoc]
    · exact List.forall_mem_append.mpr ⟨hafter, List.forall_mem_singleton.mpr ⟨text, rfl⟩⟩

theorem Current.of_refresh (hsame : v = { w with status := v.status, offscreen := some s, surfaces := v.surfaces })
    (hcells : filled s.number calls = fun x y => some (w.colour (shown x y)))
    (hnumbered : calls.filterMap WindowCall.made? = List.range v.surfaces)
    (hnew : .newSurface s.number s.width s.height ∈ calls) :
    Current w s shown (v.refresh true).1 (calls ++ (v.refresh true).2) := by
  have ho : v.offscreen = some s := congrArg Window.offscreen hsame
  have hshow : v.showing s v.surfaces = w.showing s v.surfaces := by
    rw [hsame]
    rfl
  rw [refresh_eq ho, hshow]
  constructor
  · rw [hsame]
  · rw [fill_append, hcells, fill_showing]
  · have hs : w.smoothing = v.smoothing := by rw [hsame]
    rw [List.filterMap_append, hnumbered, made_showing, hs]
    exact List.range_add.symm
  · exact ⟨calls, v.surfaces, [], (List.append_nil _).symm, hnew, nofun⟩

theorem Current.frame (h : Current w s shown v calls) (pixels : List (Int × Int × Bool)) :
    Current w s (shown.paintAll (frameEvents pixels)) (act (.frame pixels) v).1
      (calls ++ (act (.frame pixels) v).2) := by
  obtain ⟨before, first, after, hcalls, hnew, hafter⟩ := h.showing
  have ho : v.offscreen = some s := congrArg Window.offscreen h.same
  have hcolour : v.colour = w.colour := by
    rw [h.same]
    rfl
  by_cases hp : pixels = []
  · -- nothing is filled, and the refresh is skipped
    subst hp
    have hcalls : calls ++ (act (.frame []) v).2 = calls := List.append_nil calls
    rw [hcalls]
    exact h
  · have hchanged : (!pixels.isEmpty) = true := by simpa using hp
    rw [act, setPixel_calls ho, hcolour, hchanged, ← List.append_assoc]
    refine Current.of_refresh h.same ?_ ?_ ?_
    · rw [fill_append, h.cells, fill_pixels]
    · rw [List.filterMap_append, h.numbered, made_pixels, List.append_nil]
    · rw [hcalls]
      simp [hnew]

theorem create_eq {settings : Settings} {opening : List WindowCall}
    (hc : create settings = .ok (w, opening)) :
    w.smoothing = settings.smoothing.getD 0 ∧ w.surfaces = 0 ∧
      opening = [.initDisplay, .setMode w.width w.height, .setCaption Banner.name] := by
  simp only [create, bind, Except.bind, pure, Except.pure] at hc
  repeat' split at hc
  all_goals cases hc
  all_goals exact ⟨rfl, rfl, rfl⟩

theorem current_opened {width height : Nat} {opening : List WindowCall}
    (hn : opening.filterMap WindowCall.made? = List.range w.surfaces) (hw : 0 < width) (hh : 0 < height) :
    Current w ⟨w.surfaces, width, height⟩ .dark (opened width height w opening).1
      (opened width height w opening).2 := by
  have hne : ¬ ((width : Int) = 0 ∨ (height : Int) = 0) := by omega
  let v : Window := { w with
    status := { w.status with width, height }
    offscreen := some ⟨w.surfaces, width, height⟩
    surfaces := w.surfaces + 1 }
  have h : Current w ⟨w.surfaces, width, height⟩ .dark (v.refresh true).1
      (opening ++ [.newSurface w.surfaces width height, .fill w.surfaces w.dark] ++ (v.refresh true).2) := by
    refine Current.of_refresh rfl ?_ ?_ ?_
    · rw [fill_append]
      simp only [List.foldl_cons, List.foldl_nil, fillOn, if_true]
      rfl
    · rw [List.filterMap_append, hn, List.range_succ]
      rfl
    · exact List.mem_append_right _ List.mem_cons_self
  rw [List.append_assoc] at h
  rw [opened, setResolution]
  simp only [if_neg hne]
  exact h

theorem current_play {width height : Nat} {opening : List WindowCall}
    (hn : opening.filterMap WindowCall.made? = List.range w.surfaces) (hw : 0 < width) (hh : 0 < height)
    (acts : List Act) :
    Current w ⟨w.surfaces, width, height⟩ (Picture.dark.paintAll (acts.flatMap Act.events))
      (play act acts (opened width height w opening)).1 (play act acts (opened width height w opening)).2 := by
  refine play_induction (P := fun acts r => Current w ⟨w.surfaces, width, height⟩
    (Picture.dark.paintAll (acts.flatMap Act.events)) r.1 r.2) (current_opened hn hw hh) ?_
  intro done a ha v calls h
  rw [List.flatMap_append, List.flatMap_singleton, Picture.paintAll_append]
  cases a with
  | title text => exact h.title text
  | frame pixels => exact h.frame pixels

/-- A window gets a resolution and then titles and frames in any order. At any time its offscreen surface shows
each pixel in the colour of the latest value sent, dark if there is none, and that is what has been shown: since
the surface was last filled it has been doubled as often as wished, stretched to the size of the window, copied
to its upper left corner and shown, and no call but captions came after. No two surfaces have the same number. -/
theorem window_current {settings : Settings} {opening : List WindowCall} {width height : Nat}
    (hc : create settings = .ok (w, opening)) (hw : 0 < width) (hh : 0 < height) (acts : List Act) :
    let r := play act acts (opened width height w opening)
    let times := (settings.smoothing.getD 0).toNat
    .setMode w.width w.height ∈ opening ∧
    ∃ (surface first : Nat) (before after : List WindowCall),
      r.1.offscreen = some ⟨surface, width, height⟩ ∧
      (∀ x y, Screen.OnScreen width height x y → filled surface r.2 x y =
        some (if Picture.dark.paintAll (acts.flatMap Act.events) x y then w.lit else w.dark)) ∧
      r.2 = before ++
        (doublings surface first width height times ++
          [.stretch (link surface first times) (first + times) w.width w.height,
            .blit (first + times) 0 0, .flip]) ++
        after ∧
      .newSurface surface width height ∈ before ∧ (∀ c ∈ after, ∃ text, c = .setCaption text) ∧
      (r.2.filterMap WindowCall.made?).Nodup ∧ r.1.refresh false = (r.1, []) := by
  intro r times
  obtain ⟨hsmoothing, hsurfaces, rfl⟩ := create_eq hc
  have hn : [WindowCall.initDisplay, .setMode w.width w.height, .setCaption Banner.name].filterMap
      WindowCall.made? = List.range w.surfaces := by
    rw [hsurfaces]
    rfl
  have h := current_play hn hw hh acts
  obtain ⟨before, first, after, hcalls, hnew, hafter⟩ := h.showing
  refine ⟨by simp, w.surfaces, first, before, after, congrArg Window.offscreen h.same, ?_, ?_, hnew, hafter,
    ?_, rfl⟩
  · intro x y _
    rw [h.cells]
    rfl
  · rw [hcalls, showing, hsmoothing]
  · rw [h.numbered]
    exact List.nodup_range

theorem window_current_smoothed :
    let settings : Settings := ⟨none, none, some 2⟩
    let acts : List Act := [.frame [(1, 0, true)], .title "PONG", .frame []]
    ∃ w opening, create settings = .ok (w, opening) ∧
      ∃ (surface first : Nat) (before after : List WindowCall),
        filled surface (play act acts (opened 4 2 w opening)).2 1 0 = some ⟨0xDD, 0xDD, 0xDD⟩ ∧
        filled surface (play act acts (opened 4 2 w opening)).2 0 0 = some ⟨0x22, 0x22, 0x22⟩ ∧
        (play act acts (opened 4 2 w opening)).2 = before ++
          [.double surface first 8 4, .double first (first + 1) 16 8,
            .stretch (first + 1) (first + 2) 512 256, .blit (first + 2) 0 0, .flip] ++ after ∧
        .newSurface surface 4 2 ∈ before ∧ ∀ c ∈ after, ∃ text, c = .setCaption text := by
  intro settings acts
  obtain ⟨w, opening, hc, hwidth, hheight, hdark, hlit⟩ : ∃ w opening,
      create settings = .ok (w, opening) ∧ w.width = 512 ∧ w.height = 256 ∧
        w.dark = ⟨0x22, 0x22, 0x22⟩ ∧ w.lit = ⟨0xDD, 0xDD, 0xDD⟩ :=
    ⟨_, _, rfl, rfl, rfl, by decide, by decide⟩
  obtain ⟨-, surface, first, before, after, -, hcells, hcalls, hnew, hafter, -⟩ :=
    window_current hc (show 0 < 4 by decide) (show 0 < 2 by decide) acts
  rw [hwidth, hheight] at hcalls
  rw [hdark, hlit] at hcells
  exact ⟨w, opening, hc, surface, first, before, after, hcells 1 0 (by decide), hcells 0 0 (by decide),
    hcalls, hnew, hafter⟩

end Window

end Chip8.Display
