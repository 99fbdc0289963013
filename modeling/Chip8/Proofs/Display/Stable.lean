import Chip8.Proofs.Display.Shows

namespace Chip8.Display

def Act.title? : Act → Option String
  | title text => some text
  | frame _ => none

namespace Terminal

def act : TerminalHost × Act → Terminal → Terminal × List TerminalCall
  | (_, .title text), t => t.setTitle text
  | (host, .frame pixels), t =>
    ((t.refresh host (!pixels.isEmpty)).1,
      pixels.flatMap (fun p => (t.setPixel p.1 p.2.1 p.2.2).getD []) ++
        (t.refresh host (!pixels.isEmpty)).2)

def opened (width height : Nat) (t : Terminal) (opening : List TerminalCall) :
    Terminal × List TerminalCall :=
  ((t.setResolution width height).1, opening ++ (t.setResolution width height).2)

def told (acts : List (TerminalHost × Act)) : List Event :=
  acts.flatMap fun a => a.2.events

def titles (acts : List (TerminalHost × Act)) : List String :=
  acts.filterMap fun a => a.2.title?

/-- The title is shown where a text of this width has room. -/
def fits (room width : Int) (text : String) : Bool :=
  (text.length : Int) < width ∧ Size.error? room width = none

def headline (room width : Int) (texts : List String) : Option String :=
  texts.reverse.find? (fits room width)

/-- The line of the title, if it is shown, does not go on in the rows below. -/
def KeepsToLine (cs : Charset) (room width : Int) (text : String) : Prop :=
  fits room width text = true → cs.InOneLine (width + 1) (leftJustified text width.toNat)

/-- The last of all calls copied the pad to a terminal of this size. -/
def Copied (rows columns : Int) (calls : List TerminalCall) : Prop :=
  ∃ before, calls = before ++ [.refreshPad (rows - 1) (columns - 1)]

/-- What holds after pixels and titles. Unless something waits to be copied, either the terminal has not been
refreshed at all yet or the pad has just been copied. -/
structure Kept (k : Look) (width : Nat) (t : Terminal) (calls : List TerminalCall) : Prop where
  look : t.look = k
  width : t.titleWidth = width * k.scale
  hasPad : t.hasPad = true
  copied : t.dirty = true ∨ t.size = none ∨
    ∃ rows columns, t.size = some (rows, columns) ∧ Copied rows columns calls

def Drawn (cs : Charset) (k : Look) (width height : Nat) (shown : Picture) (texts : List String)
    (calls : List TerminalCall) : Prop :=
  ∃ p, Pad.replay cs calls = some p ∧
    p.Shows cs k width height shown (headline k.room (width * k.scale) texts)

variable {cs : Charset} {room : Int} {t : Terminal} {k : Look} {width height : Nat}
  {calls more : List TerminalCall} {p : Pad} {shown : Picture} {line : Option String} {texts : List String}
  {pixels : List (Int × Int × Bool)}

theorem headline_concat (room width : Int) (texts : List String) (text : String) :
    headline room width (texts ++ [text]) =
      if fits room width text then some text else headline room width texts := by
  rw [headline, headline, List.reverse_append, List.reverse_singleton, List.singleton_append,
    List.find?_cons]
  cases fits room width text <;> rfl

theorem showsTitle_iff (hp : t.hasPad = true) (text : String) :
    t.showsTitle text = true ∧ t.titleFault? text = none ↔ fits t.look.room t.titleWidth text = true := by
  simp only [fits, titleFault?, showsTitle, hp, true_and, decide_eq_true_eq]
  refine and_congr_right fun hl => ?_
  rw [if_pos hl, Option.map_eq_none_iff]
  rfl

theorem setTitle_cases (hp : t.hasPad = true) (text : String) :
    (fits t.look.room t.titleWidth text = true ∧
      t.setTitle text = ({ t with status := { t.status with title := text }, dirty := true },
        [.addText 0 0 (leftJustified text t.titleWidth.toNat) .reverse])) ∨
    (fits t.look.room t.titleWidth text = false ∧
      t.setTitle text = ({ t with status := { t.status with title := text } }, [])) := by
  have hiff := showsTitle_iff (t := { t with status := { t.status with title := text } }) hp text
  rw [setTitle]
  split
  · next h => exact .inl ⟨hiff.mp h, rfl⟩
  · next h => exact .inr ⟨Bool.eq_false_iff.mpr fun hf => h (hiff.mpr hf), rfl⟩

theorem replay_append (hp : Pad.replay cs calls = some p) (more : List TerminalCall) :
    Pad.replay cs (calls ++ more) = more.foldl (Pad.draw cs) (some p) := by
  rw [Pad.replay, List.foldl_append, ← Pad.replay, hp]

theorem Kept.title (h : Kept k width t calls) (text : String) :
    Kept k width (t.setTitle text).1 (calls ++ (t.setTitle text).2) := by
  obtain ⟨-, he⟩ | ⟨-, he⟩ := setTitle_cases h.hasPad text
  · rw [he]
    exact ⟨h.look, h.width, h.hasPad, .inl rfl⟩
  · rw [he, List.append_nil]
    exact ⟨h.look, h.width, h.hasPad, h.copied⟩

theorem Drawn.title (h : Drawn cs k width height shown texts calls) (hk : Kept k width t calls)
    (hh : 0 < height) {text : String} (hl : KeepsToLine cs k.room (width * k.scale) text) :
    Drawn cs k width height shown (texts ++ [text]) (calls ++ (t.setTitle text).2) := by
  obtain ⟨p, hp, hs⟩ := h
  obtain ⟨hf, he⟩ | ⟨hf, he⟩ := setTitle_cases hk.hasPad text <;> rw [hk.look, hk.width] at hf
  · have hline := hl hf
    rw [← hs.columns] at hline
    obtain ⟨q, hq, hqs⟩ := hs.write_title hh (decide_eq_true_eq.mp hf).1 hline
    refine ⟨q, ?_, ?_⟩
    · rw [he, hk.width, replay_append hp]
      exact hq
    · rw [headline_concat, if_pos hf]
      exact hqs
  · refine ⟨p, ?_, ?_⟩
    · rw [he, List.append_nil]
      exact hp
    · rw [headline_concat, hf]
      exact hs

theorem shows_pixels (hs : p.Shows cs k width height shown line) (hk : 1 ≤ k.scale) (hl : t.look = k)
    (hon : (Act.frame pixels).OnScreen width height) :
    ∃ q, (pixels.map fun p => t.pixelCall p.1 p.2.1 p.2.2).foldl (Pad.draw cs) (some p) = some q ∧
      q.Shows cs k width height (shown.paintAll (frameEvents pixels)) line := by
  rw [frameEvents, Picture.paintAll_append]
  induction pixels generalizing p shown with
  | nil => exact ⟨p, rfl, hs⟩
  | cons pixel pixels ih =>
    obtain ⟨x, y, lit⟩ := pixel
    obtain ⟨q, hq, hqs⟩ := hs.write_pixel hk (hon _ List.mem_cons_self) lit
    have hcall : Pad.draw cs (some p) (t.pixelCall x y lit) = some q := by
      rw [← hl] at hq
      exact hq
    obtain ⟨q', hq', hqs'⟩ := ih hqs fun r hr => hon r (List.mem_cons_of_mem _ hr)
    refine ⟨q', ?_, hqs'⟩
    rw [List.map_cons, List.foldl_cons, hcall]
    exact hq'

/-- A refresh wipes a terminal of a new size, copies the pad if need be, or has nothing to do. -/
theorem refresh_cases (hp : t.hasPad = true) (host : TerminalHost) (changed : Bool) :
    (t.refresh host changed).1 = { t with size := some (host.rows, host.columns), dirty := true } ∨
    (t.size = some (host.rows, host.columns) ∧
      t.refresh host changed = ({ t with dirty := false },
        [.refreshPad (host.rows - 1) (host.columns - 1)])) ∨
    (t.size = some (host.rows, host.columns) ∧ t.dirty = false ∧ changed = false ∧
      t.refresh host changed = (t, [])) := by
  rw [refresh]
  by_cases hsize : t.size = some (host.rows, host.columns)
  · right
    cases hd : t.dirty || changed with
    | true => exact .inl ⟨hsize, by simp [hsize, hp]⟩
    | false =>
      obtain ⟨hdirty, rfl⟩ := Bool.or_eq_false_iff.mp hd
      obtain ⟨status, cursor, dark, lit, room, hasPad, dirty, size⟩ := t
      obtain rfl : dirty = false := hdirty
      obtain rfl : size = some (host.rows, host.columns) := hsize
      exact .inr ⟨rfl, rfl, rfl, by simp⟩
  · exact .inl (by simp [hsize])

theorem draw_refresh (t : Terminal) (host : TerminalHost) (changed : Bool) (pad : Option Pad) :
    (t.refresh host changed).2.foldl (Pad.draw cs) pad = pad := by
  rw [refresh]
  split
  · cases host.resizable <;> rfl
  · split <;> rfl

theorem setPixel_calls (hp : t.hasPad = true) (pixels : List (Int × Int × Bool)) :
    pixels.flatMap (fun p => (t.setPixel p.1 p.2.1 p.2.2).getD []) =
      pixels.map fun p => t.pixelCall p.1 p.2.1 p.2.2 := by
  simp only [setPixel, hp, if_true, Option.getD_some]
  exact List.map_eq_flatMap.symm

theorem Kept.frame (h : Kept k width t calls) (host : TerminalHost)
    (pixels : List (Int × Int × Bool)) :
    Kept k width (act (host, .frame pixels) t).1 (calls ++ (act (host, .frame pixels) t).2) := by
  obtain he | ⟨hsize, he⟩ | ⟨-, -, hempty, he⟩ := refresh_cases h.hasPad host (!pixels.isEmpty)
  · simp only [act, he]
    exact ⟨h.look, h.width, h.hasPad, .inl rfl⟩
  · simp only [act, he]
    refine ⟨h.look, h.width, h.hasPad, .inr (.inr ⟨_, _, hsize, ?_⟩)⟩
    rw [← List.append_assoc]
    exact ⟨_, rfl⟩
  · -- nothing was waiting and nothing was written
    obtain rfl : pixels = [] := by simpa using hempty
    simp only [act, he, List.flatMap_nil, List.append_nil]
    exact h

theorem Drawn.frame (h : Drawn cs k width height shown texts calls) (hk : Kept k width t calls)
    (hs : 1 ≤ k.scale) (host : TerminalHost) (hon : (Act.frame pixels).OnScreen width height) :
    Drawn cs k width height (shown.paintAll (frameEvents pixels)) texts
      (calls ++ (act (host, .frame pixels) t).2) := by
  obtain ⟨p, hp, hshows⟩ := h
  obtain ⟨q, hq, hqs⟩ := shows_pixels hshows hs hk.look hon
  refine ⟨q, ?_, hqs⟩
  rw [replay_append hp, act, setPixel_calls hk.hasPad, List.foldl_append, draw_refresh]
  exact hq

theorem paintAll_unlit (hp : ∀ p ∈ pixels, p.2.2 = false) :
    Picture.dark.paintAll (frameEvents pixels) = .dark := by
  funext x y
  refine Picture.paintAll_apply (fun lit hl => ?_) (.inl rfl)
  obtain hl | hl := List.mem_append.mp hl
  · obtain ⟨p, hm, he⟩ := List.mem_map.mp hl
    cases he
    exact hp p hm
  · cases List.mem_singleton.mp hl

def darkPixels (width height : Nat) : List (Int × Int × Bool) :=
  (List.range height).flatMap fun y : Nat => (List.range width).map fun x : Nat => (x, y, false)

theorem mem_darkPixels {q : Int × Int × Bool} (hq : q ∈ darkPixels width height) :
    Screen.OnScreen width height q.1 q.2.1 ∧ q.2.2 = false := by
  obtain ⟨y, hy, hq⟩ := List.mem_flatMap.mp hq
  obtain ⟨x, hx, rfl⟩ := List.mem_map.mp hq
  have hx := List.mem_range.mp hx
  have hy := List.mem_range.mp hy
  exact ⟨⟨⟨Int.natCast_nonneg _, Int.ofNat_lt.mpr hx⟩, Int.natCast_nonneg _, Int.ofNat_lt.mpr hy⟩, rfl⟩

theorem look_setTitle (t : Terminal) (text : String) : (t.setTitle text).1.look = t.look := by
  rw [setTitle]
  split <;> rfl

theorem setResolution_eq (hw : 0 < width) (hh : 0 < height) :
    let u := t.resized width height
    t.setResolution width height = ((u.setTitle t.status.title).1,
      (.newPad (height + 1) (width * t.look.scale + 1) :: .background t.look.dark ::
        (darkPixels width height).map fun p => u.pixelCall p.1 p.2.1 p.2.2) ++
      (u.setTitle t.status.title).2) := by
  intro u
  have hne : ¬ ((width : Int) = 0 ∨ (height : Int) = 0) := by omega
  have hmap : (darkPixels width height).map (fun p => u.pixelCall p.1 p.2.1 p.2.2) =
      (List.range height).flatMap fun y : Nat => (List.range width).map fun x : Nat =>
        u.pixelCall x y false := by
    simp only [darkPixels, List.map_flatMap, List.map_map]
    rfl
  have hlook := look_setTitle u u.status.title
  have hscale : (u.setTitle u.status.title).1.status.scale = t.look.scale := congrArg Look.scale hlook
  have hdark : (u.setTitle u.status.title).1.dark = t.look.dark := congrArg Look.dark hlook
  simp only [u] at hscale hdark
  simp only [setResolution, if_neg hne, hmap, Int.toNat_natCast, hscale, hdark]
  rfl

theorem drawn_darkPixels (cs : Charset) (t : Terminal) (hk : 1 ≤ t.look.scale) (opening : List TerminalCall) :
    Drawn cs t.look width height .dark [] (opening ++
      (.newPad (height + 1) (width * t.look.scale + 1) :: .background t.look.dark ::
        (darkPixels width height).map fun p => (t.resized width height).pixelCall p.1 p.2.1 p.2.2)) := by
  obtain ⟨p, hp, hs⟩ := Pad.shows_new cs t.look width height
  obtain ⟨q, hq, hqs⟩ := shows_pixels (t := t.resized width height) hs hk rfl fun r hr =>
    (mem_darkPixels hr).1
  rw [paintAll_unlit fun r hr => (mem_darkPixels hr).2] at hqs
  refine ⟨q, ?_, hqs⟩
  rw [Pad.replay, List.foldl_append, List.foldl_cons, List.foldl_cons]
  exact hp ▸ hq

theorem kept_resized (hn : t.size = none) (hw : 0 < width) (hh : 0 < height) (calls : List TerminalCall) :
    Kept t.look width (t.resized width height) calls := by
  have hne : ¬ width = 0 ∧ ¬ height = 0 := by omega
  exact ⟨rfl, rfl, by simp [resized, hne], .inr (.inl hn)⟩

theorem kept_opened (opening : List TerminalCall) (hn : t.size = none) (hw : 0 < width) (hh : 0 < height) :
    Kept t.look width (opened width height t opening).1 (opened width height t opening).2 := by
  have h := (kept_resized hn hw hh (opening ++ (.newPad (height + 1) (width * t.look.scale + 1) ::
    .background t.look.dark :: (darkPixels width height).map fun p =>
      (t.resized width height).pixelCall p.1 p.2.1 p.2.2))).title t.status.title
  rw [List.append_assoc] at h
  rw [opened, setResolution_eq hw hh]
  exact h

theorem drawn_opened (cs : Charset) (opening : List TerminalCall) (hn : t.size = none)
    (hk : 1 ≤ t.look.scale) (hw : 0 < width) (hh : 0 < height)
    (hl : KeepsToLine cs t.look.room (width * t.look.scale) t.status.title) :
    Drawn cs t.look width height .dark [t.status.title] (opened width height t opening).2 := by
  have h := (drawn_darkPixels cs t hk opening).title (kept_resized hn hw hh _) hh hl
  rw [List.append_assoc] at h
  rw [opened, setResolution_eq hw hh]
  exact h

theorem create_eq {settings : Settings} {opening : List TerminalCall}
    (hc : create room settings = .ok (t, opening)) :
    t.status.title = "" ∧ t.size = none ∧ t.room = room ∧ t.dark ≠ .reverse := by
  simp only [create, bind, Except.bind, pure, Except.pure] at hc
  repeat' split at hc
  all_goals cases hc
  all_goals exact ⟨rfl, rfl, rfl, nofun⟩

theorem kept_play (opening : List TerminalCall) (acts : List (TerminalHost × Act)) (hn : t.size = none)
    (hw : 0 < width) (hh : 0 < height) :
    Kept t.look width (play act acts (opened width height t opening)).1
      (play act acts (opened width height t opening)).2 := by
  refine play_induction (P := fun _ r => Kept t.look width r.1 r.2) (kept_opened opening hn hw hh) ?_
  rintro done ⟨host, a⟩ - u calls h
  cases a with
  | title text => exact h.title text
  | frame pixels => exact h.frame host pixels

theorem drawn_play (cs : Charset) (opening : List TerminalCall) {acts : List (TerminalHost × Act)}
    (hn : t.size = none) (hk : 1 ≤ t.look.scale) (hw : 0 < width) (hh : 0 < height)
    (hon : ∀ a ∈ acts, a.2.OnScreen width height)
    (hl : ∀ text ∈ t.status.title :: titles acts, KeepsToLine cs t.look.room (width * t.look.scale) text) :
    Drawn cs t.look width height (Picture.dark.paintAll (told acts)) (t.status.title :: titles acts)
      (play act acts (opened width height t opening)).2 := by
  obtain ⟨hfirst, hlater⟩ := List.forall_mem_cons.mp hl
  refine (play_induction (P := fun acts r => Kept t.look width r.1 r.2 ∧ Drawn cs t.look width height
      (Picture.dark.paintAll (told acts)) (t.status.title :: titles acts) r.2)
    ⟨kept_opened opening hn hw hh, drawn_opened cs opening hn hk hw hh hfirst⟩ ?_).2
  rintro done ⟨host, a⟩ ha u calls ⟨hkept, hdrawn⟩
  have htold : told (done ++ [(host, a)]) = told done ++ a.events := by
    rw [told, told, List.flatMap_append, List.flatMap_singleton]
  have htitles : titles (done ++ [(host, a)]) = titles done ++ a.title?.toList := by
    rw [titles, titles, List.filterMap_append]
    cases a <;> rfl
  rw [htold, Picture.paintAll_append, htitles]
  cases a with
  | title text =>
    have hline := hlater text (List.mem_filterMap.mpr ⟨_, ha, rfl⟩)
    exact ⟨hkept.title text, hdrawn.title hkept hh hline⟩
  | frame pixels =>
    rw [Act.title?, Option.toList_none, List.append_nil]
    exact ⟨hkept.frame host pixels, hdrawn.frame hkept hk host (hon _ ha)⟩

theorem size_title (t : Terminal) (text : String) : (t.setTitle text).1.size = t.size := by
  rw [setTitle]
  split <;> rfl

theorem size_frame (hp : t.hasPad = true) (host : TerminalHost) (pixels : List (Int × Int × Bool)) :
    (act (host, .frame pixels) t).1.size = some (host.rows, host.columns) := by
  rw [act]
  obtain he | ⟨hsize, he⟩ | ⟨hsize, -, -, he⟩ := refresh_cases hp host (!pixels.isEmpty) <;> rw [he]
  · exact hsize
  · exact hsize

theorem dirty_frame (hp : t.hasPad = true) {host : TerminalHost}
    (hsize : t.size = some (host.rows, host.columns)) (pixels : List (Int × Int × Bool)) :
    (act (host, .frame pixels) t).1.dirty = false := by
  rw [act, refresh]
  cases hd : t.dirty || !pixels.isEmpty <;> simp [hsize, hp]

theorem Kept.frame_copied (h : Kept k width t calls) {host : TerminalHost}
    (hsize : t.size = some (host.rows, host.columns)) (pixels : List (Int × Int × Bool)) :
    Copied host.rows host.columns (calls ++ (act (host, .frame pixels) t).2) := by
  have hdirty := dirty_frame h.hasPad hsize pixels
  have hsize' := size_frame h.hasPad host pixels
  obtain hd | hn | ⟨rows, columns, hs, hcopied⟩ := (h.frame host pixels).copied
  · exact absurd (hdirty.symm.trans hd) Bool.false_ne_true
  · exact absurd (hsize'.symm.trans hn) (Option.some_ne_none _)
  · cases hsize'.symm.trans hs
    exact hcopied

theorem size_titles {acts : List (TerminalHost × Act)} (ha : ∀ a ∈ acts, ∃ text, a.2 = .title text)
    (r : Terminal × List TerminalCall) : (play act acts r).1.size = r.1.size := by
  refine play_induction (P := fun _ (s : Terminal × List TerminalCall) => s.1.size = r.1.size)
    rfl ?_
  rintro done ⟨host, a⟩ hm u calls hu
  obtain ⟨text, rfl⟩ := ha _ hm
  exact (size_title u text).trans hu

theorem keepsToLine_empty (cs : Charset) (room width : Int) : KeepsToLine cs room width "" := by
  intro hf
  have hpos : (0 : Int) < width := (decide_eq_true_eq.mp hf).1
  refine Charset.inOneLine_of_plain (Pad.plain_leftJustified (List.forall_mem_nil _) _) ?_
  rw [Pad.length_leftJustified, String.length_empty]
  omega

theorem leftJustified_blank (text : String) {n : Nat} (h : text.length < n) :
    ∃ front, (leftJustified text n).toList = front ++ [' '] := by
  refine ⟨text.toList ++ List.replicate (n - text.length - 1) ' ', ?_⟩
  have hn : n - text.length = n - text.length - 1 + 1 := by omega
  rw [leftJustified, String.toList_append, String.toList_ofList, hn, List.replicate_succ', List.append_assoc]
  rfl

/-- A title after which the pad shows all pixels dark, as before it, has kept to its line. -/
theorem keepsToLine_of_dark (h : Drawn cs k width height .dark texts calls) (hk : Kept k width t calls)
    (hs : 1 ≤ k.scale) (hw : 0 < width) (hh : 0 < height) (hd : k.dark ≠ .reverse) {text : String}
    (hp : Pad.replay cs (calls ++ (t.setTitle text).2) = some p)
    (hdark : ∀ x y, Screen.OnScreen width height x y → ∀ offset, 0 ≤ offset → offset < k.scale →
      p.cell (y + 1) (x * k.scale + offset) = ⟨[' '], k.dark⟩) :
    KeepsToLine cs k.room (width * k.scale) text := by
  intro hf
  obtain ⟨p₀, hp₀, hshows⟩ := h
  obtain ⟨-, he⟩ | ⟨hno, -⟩ := setTitle_cases hk.hasPad text
  · have hlt : (text.length : Int) < width * k.scale := (decide_eq_true_eq.mp hf).1
    obtain ⟨front, hfront⟩ : ∃ front, (leftJustified text (width * k.scale).toNat).toList = front ++ [' '] :=
      leftJustified_blank text (by omega)
    rw [he, hk.width, replay_append hp₀] at hp
    by_contra hline
    rw [← hshows.columns] at hline
    obtain ⟨row, hfirst, hlast, hstyle⟩ := Pad.write_overrun hfront hline (by rw [hshows.rows]; omega) hp
    rw [hshows.rows] at hlast
    -- the first pixel of that row is in the style of the title
    have hcell := hdark 0 (row - 1) (by simp only [Screen.OnScreen]; omega) 0 (Int.le_refl 0) (by omega)
    rw [Int.sub_add_cancel, Int.zero_mul, Int.zero_add] at hcell
    exact hd ((congrArg Cell.style hcell).symm.trans hstyle)
  · rw [hk.look, hk.width, hf] at hno
    cases hno

/-- A terminal gets a resolution and then titles and frames in any order, whatever its size each time. If the
titles that are shown keep to the title line, the pad shows each pixel as blanks in the style of the latest value
sent, dark if there is none, and above them the latest title that fits, if its characters take one column each. No
weaker condition would do, since a title after which all pixels are still dark keeps to the line. Whatever the
titles, a refresh at the same size as the one before it ends with the pad just copied: nothing was written on it,
and the terminal not wiped, since then. -/
theorem stable_terminal {settings : Settings} {opening : List TerminalCall}
    (hc : create room settings = .ok (t, opening)) (hk : 1 ≤ t.status.scale) (hw : 0 < width)
    (hh : 0 < height) :
    (∀ (cs : Charset) (acts : List (TerminalHost × Act)), (∀ a ∈ acts, a.2.OnScreen width height) →
      (∀ text ∈ titles acts, KeepsToLine cs room (width * t.status.scale) text) →
      ∃ p, Pad.replay cs (play act acts (opened width height t opening)).2 = some p ∧
        (∀ x y, Screen.OnScreen width height x y → ∀ offset, 0 ≤ offset → offset < t.status.scale →
          p.cell (y + 1) (x * t.status.scale + offset) =
            ⟨[' '], if Picture.dark.paintAll (told acts) x y then t.lit else t.dark⟩) ∧
        ∀ text, headline room (width * t.status.scale) ("" :: titles acts) = some text →
          (∀ c ∈ text.toList, cs.Plain c) → ∀ column, 0 ≤ column → column < width * t.status.scale →
            p.cell 0 column = ⟨[(leftJustified text (width * t.status.scale).toNat).toList.getD
              column.toNat ' '], .reverse⟩) ∧
    (∀ (cs : Charset) (host : TerminalHost) (text : String) (p : Pad),
      Pad.replay cs (play act [(host, .title text)] (opened width height t opening)).2 = some p →
      (∀ x y, Screen.OnScreen width height x y → ∀ offset, 0 ≤ offset → offset < t.status.scale →
        p.cell (y + 1) (x * t.status.scale + offset) = ⟨[' '], t.dark⟩) →
      KeepsToLine cs room (width * t.status.scale) text) ∧
    ∀ (before between : List (TerminalHost × Act)) (first second : TerminalHost)
      (pixels pixels' : List (Int × Int × Bool)),
      let acts := before ++ (first, .frame pixels) :: between ++ [(second, .frame pixels')]
      (∀ a ∈ between, ∃ text, a.2 = .title text) →
      first.rows = second.rows → first.columns = second.columns →
      Copied second.rows second.columns (play act acts (opened width height t opening)).2 := by
  obtain ⟨htitle, hn, rfl, hdark⟩ := create_eq hc
  have hempty (cs : Charset) : KeepsToLine cs t.look.room (width * t.look.scale) t.status.title :=
    htitle ▸ keepsToLine_empty cs t.room _
  refine ⟨?_, ?_, ?_⟩
  · intro cs acts hon hlines
    have hl : ∀ text ∈ t.status.title :: titles acts, KeepsToLine cs t.look.room (width * t.look.scale) text :=
      List.forall_mem_cons.mpr ⟨hempty cs, hlines⟩
    obtain ⟨p, hp, hs⟩ := drawn_play cs opening hn hk hw hh hon hl
    refine ⟨p, hp, fun x y hxy offset h0 h1 => ?_, htitle ▸ hs.title⟩
    have hy := hxy.2.1
    have hcell := hs.pixels (y + 1) (x * t.status.scale + offset) (by omega)
    have hdiv : (x * t.status.scale + offset) / t.look.scale = x :=
      (Pad.column_div_eq_iff hk ..).mpr ⟨by omega, by omega⟩
    rw [hdiv, Int.add_sub_cancel] at hcell
    exact hcell
  · intro cs host text p hp hpixels
    have hdrawn := drawn_opened cs opening hn hk hw hh (hempty cs)
    exact keepsToLine_of_dark hdrawn (kept_opened opening hn hw hh) hk hw hh hdark hp hpixels
  · intro before between first second pixels pixels' acts hbetween hrows hcolumns
    let start := opened width height t opening
    have hbefore := kept_play opening before hn hw hh
    have hmiddle := kept_play opening (before ++ (first, .frame pixels) :: between) hn hw hh
    -- the first frame takes over the size, and titles leave it alone
    have hsize : (play act (before ++ (first, .frame pixels) :: between) start).1.size =
        some (second.rows, second.columns) := by
      rw [play_append, play, size_titles hbetween, size_frame hbefore.hasPad, hrows, hcolumns]
    rw [play_append]
    exact hmiddle.frame_copied hsize pixels'

theorem stable_terminal_titled :
    let settings : Settings := ⟨none, some (.value "1,2"), some 0⟩
    let host : TerminalHost := ⟨24, 80, true⟩
    let acts := [(host, .frame [(1, 0, true)])] ++ (host, .frame []) :: [(host, .title "PONG")] ++
      [(host, .frame [(0, 1, true)])]
    ∃ t opening, create 80 settings = .ok (t, opening) ∧ 1 ≤ t.status.scale ∧
      (∀ text ∈ titles acts, KeepsToLine .single 80 (4 * t.status.scale) text) ∧
      (∃ p, Pad.replay .single (play act acts (opened 4 2 t opening)).2 = some p ∧
        p.cell 1 3 = ⟨[' '], .pair 2⟩ ∧ p.cell 2 3 = ⟨[' '], .pair 1⟩ ∧ p.cell 0 3 = ⟨['G'], .reverse⟩) ∧
      Copied 24 80 (play act acts (opened 4 2 t opening)).2 := by
  intro settings host acts
  obtain ⟨t, opening, hc, hscale, hdark, hlit⟩ : ∃ t opening, create 80 settings = .ok (t, opening) ∧
      t.status.scale = 2 ∧ t.dark = .pair 1 ∧ t.lit = .pair 2 := ⟨_, _, rfl, rfl, rfl, rfl⟩
  have hon : ∀ a ∈ acts, a.2.OnScreen 4 2 := by
    simp [acts, Act.OnScreen, Screen.OnScreen]
  have hplain : ∀ c ∈ "PONG".toList, Charset.single.Plain c := by
    simp [Charset.plain_single]
  have hlines : ∀ text ∈ titles acts, KeepsToLine .single 80 (4 * t.status.scale) text := by
    have htitles : titles acts = ["PONG"] := rfl
    rw [htitles, List.forall_mem_singleton, hscale]
    exact fun _ => Charset.inOneLine_of_plain (Pad.plain_leftJustified hplain _) (by decide)
  obtain ⟨hpad, -, hcopied⟩ := stable_terminal hc (by omega) (show 0 < 4 by decide) (show 0 < 2 by decide)
  obtain ⟨p, hp, hcells, htitle⟩ := hpad .single acts hon hlines
  rw [hscale, hdark, hlit] at hcells
  rw [hscale] at htitle
  refine ⟨t, opening, hc, by omega, hlines, ⟨p, hp, ?_, ?_, ?_⟩, ?_⟩
  · exact hcells 1 0 (by decide) 1 (by decide) (by decide)
  · exact hcells 1 1 (by decide) 1 (by decide) (by decide)
  · exact htitle "PONG" (by decide) hplain 3 (by decide) (by decide)
  · exact hcopied [(host, .frame [(1, 0, true)])] [(host, .title "PONG")] host host [] [(0, 1, true)] (by simp)
      rfl rfl

/-- A title of two lines goes on in the first row of pixels, all of them dark. -/
theorem title_runs_into_pixels :
    ∃ t opening, create 80 ⟨none, none, some 0⟩ = .ok (t, opening) ∧ 1 ≤ t.status.scale ∧
      let host : TerminalHost := ⟨24, 80, true⟩
      let acts := [(host, .title "A\nB"), (host, .frame []), (host, .frame [])]
      (∀ a ∈ acts, a.2.OnScreen 4 2) ∧
      ∃ p, Pad.replay .single (play act acts (opened 4 2 t opening)).2 = some p ∧
        Screen.OnScreen 4 2 0 0 ∧ p.cell 1 0 = ⟨['B'], .reverse⟩ ∧
        p.cell (0 + 1) (0 * t.status.scale + 0) ≠
          ⟨[' '], if Picture.dark.paintAll (told acts) 0 0 then t.lit else t.dark⟩ := by
  refine ⟨_, _, rfl, by decide, ?_, _, rfl, by decide, rfl, by decide⟩
  simp [Act.OnScreen]

end Terminal

end Chip8.Display
