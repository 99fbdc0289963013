import Chip8.Proofs.Display.Stable

namespace Chip8.Display

namespace TerminalCall

def padAfter (pad : Option (Int × Int)) : TerminalCall → Option (Int × Int)
  | newPad rows columns => some (rows, columns)
  | _ => pad

/-- A text has to lie inside the pad with a column to spare. -/
def Fits (pad : Option (Int × Int)) : TerminalCall → Prop
  | addText y x text _ => ∃ size ∈ pad, (0 ≤ y ∧ y < size.1) ∧ 0 ≤ x ∧ x + text.length < size.2
  | _ => True

def Plain : TerminalCall → Prop
  | newPad _ _ => False
  | addText _ _ _ _ => False
  | _ => True

end TerminalCall

/-- All texts lie inside the pad that was made last before them. -/
def AllFit : Option (Int × Int) → List TerminalCall → Prop
  | _, [] => True
  | pad, c :: calls => c.Fits pad ∧ AllFit (c.padAfter pad) calls

/-- Something holds of each act after the acts before it. -/
def Throughout {α : Type} (acts : List α) (P : List α → α → Prop) : Prop :=
  ∀ done a later, acts = done ++ a :: later → P done a

/-- The latest resolution, and the latest one that was not empty. -/
structure Extent where
  width : Int
  height : Int
  drawn : Option (Int × Int)

namespace Extent

def tell (e : Extent) : Event → Extent
  | .resolution width height =>
    ⟨width, height, if width = 0 ∨ height = 0 then e.drawn else some (width, height)⟩
  | _ => e

def after (acts : List (TerminalHost × Event)) : Extent :=
  acts.foldl (fun e a => e.tell a.2) ⟨0, 0, none⟩

/-- Pixels have to lie on the screen of the latest resolution, which may be empty. -/
def Admits (e : Extent) : Event → Prop
  | .resolution width height => 0 ≤ width ∧ 0 ≤ height
  | .pixel x y _ => Screen.OnScreen e.width.toNat e.height.toNat x y
  | _ => True

/-- A title fits the width of the latest resolution, but not the narrower one that the pad was made for. -/
def Overhangs (e : Extent) (room scale : Int) : Event → Prop
  | .title text => Terminal.fits room (e.width * scale) text = true ∧
      ∃ size ∈ e.drawn, size.1 < e.width
  | _ => False

instance (e : Extent) : (event : Event) → Decidable (e.Admits event)
  | .resolution width height => inferInstanceAs (Decidable (0 ≤ width ∧ 0 ≤ height))
  | .pixel x y _ => inferInstanceAs (Decidable (Screen.OnScreen e.width.toNat e.height.toNat x y))
  | .refresh _ => isTrue trivial
  | .title _ => isTrue trivial

instance (e : Extent) (room scale : Int) : (event : Event) → Decidable (e.Overhangs room scale event)
  | .title text => inferInstanceAs (Decidable (Terminal.fits room (e.width * scale) text = true ∧
      ∃ size ∈ e.drawn, size.1 < e.width))
  | .resolution _ _ => isFalse id
  | .pixel _ _ _ => isFalse id
  | .refresh _ => isFalse id

end Extent

def Event.title? : Event → Option String
  | title text => some text
  | _ => none

namespace Terminal

def tell : TerminalHost × Event → Terminal → Terminal × List TerminalCall
  | (_, .resolution width height), t => t.setResolution width height
  | (_, .pixel x y lit), t => (t, (t.setPixel x y lit).getD [])
  | (host, .refresh changed), t => t.refresh host changed
  | (_, .title text), t => t.setTitle text

def blankPad (t : Terminal) (w n : Nat) : List TerminalCall :=
  .newPad (n + 1) (w * t.look.scale + 1) :: .background t.look.dark ::
    (darkPixels w n).map fun p => t.pixelCall p.1 p.2.1 p.2.2

def captions (acts : List (TerminalHost × Event)) : List String :=
  "" :: acts.filterMap fun a => a.2.title?

/-- What is written on a pad: titles in row 0, and pixels below it. -/
inductive Writes (k : Look) (texts : List String) : TerminalCall → Prop where
  | title {text : String} (width : Nat) (h : text ∈ texts) :
      Writes k texts (.addText 0 0 (leftJustified text width) .reverse)
  | pixel {x y : Int} (lit : Bool) (hx : 0 ≤ x) (hy : 1 ≤ y) :
      Writes k texts (.addText y (x * k.scale) (pixelText k.scale) (k.style lit))

def Placed (k : Look) (texts : List String) (calls : List TerminalCall) : Prop :=
  ∀ y x text style, .addText y x text style ∈ calls → Writes k texts (.addText y x text style)

/-- The pad is that of the latest resolution that was not empty. -/
structure Tied (e : Extent) (k : Look) (t : Terminal) (pad : Option (Int × Int)) : Prop where
  look : t.look = k
  width : t.status.width = e.width
  hasPad : t.hasPad = e.drawn.isSome
  pad : pad = e.drawn.map fun r => (r.2 + 1, r.1 * k.scale + 1)
  drawn : ∀ r, e.drawn = some r → 0 < r.2
  current : 0 < e.width → 0 < e.height → e.drawn = some (e.width, e.height)

structure Traced (k : Look) (events : List (TerminalHost × Event)) (t : Terminal)
    (calls : List TerminalCall) : Prop where
  tied : Tied (Extent.after events) k t (calls.foldl TerminalCall.padAfter none)
  fit : AllFit none calls ↔ Throughout events fun done a => ¬ (Extent.after done).Overhangs k.room k.scale a.2
  placed : Placed k (captions events) calls
  title : t.status.title ∈ captions events

end Terminal

theorem allFit_append (pad : Option (Int × Int)) (calls more : List TerminalCall) :
    AllFit pad (calls ++ more) ↔
      AllFit pad calls ∧ AllFit (calls.foldl TerminalCall.padAfter pad) more := by
  induction calls generalizing pad with
  | nil => exact (and_iff_right trivial).symm
  | cons c calls ih => rw [List.cons_append, AllFit, AllFit, ih, and_assoc, List.foldl_cons]

theorem allFit_of_forall {calls : List TerminalCall} {pad : Option (Int × Int)}
    (h : ∀ c ∈ calls, c.Fits pad ∧ c.padAfter pad = pad) :
    AllFit pad calls ∧ calls.foldl TerminalCall.padAfter pad = pad := by
  induction calls with
  | nil => exact ⟨trivial, rfl⟩
  | cons c calls ih =>
    obtain ⟨⟨hf, hp⟩, hcalls⟩ := List.forall_mem_cons.mp h
    rw [AllFit, List.foldl_cons, hp]
    exact ⟨⟨hf, (ih hcalls).1⟩, (ih hcalls).2⟩

theorem TerminalCall.Plain.fits {c : TerminalCall} (h : c.Plain) (pad : Option (Int × Int)) :
    c.Fits pad ∧ c.padAfter pad = pad := by
  cases c <;> first | exact h.elim | exact ⟨trivial, rfl⟩

theorem Throughout.before {α : Type} {P : List α → α → Prop} {done later : List α}
    (h : Throughout (done ++ later) P) : Throughout done P := by
  rintro first a rest rfl
  exact h first a (rest ++ later) (by simp)

theorem throughout_iff {α : Type} {P : List α → α → Prop} {acts : List α} :
    Throughout acts P ↔ ∀ i, ∀ h : i < acts.length, P (acts.take i) acts[i] := by
  constructor
  · intro h i hi
    exact h _ _ (acts.drop (i + 1)) (by simp)
  · rintro h done a later rfl
    simpa using h done.length (by simp)

instance {α : Type} {P : List α → α → Prop} [∀ done a, Decidable (P done a)] (acts : List α) :
    Decidable (Throughout acts P) :=
  decidable_of_iff' _ throughout_iff

theorem throughout_concat {α : Type} {P : List α → α → Prop} {acts : List α} {a : α} :
    Throughout (acts ++ [a]) P ↔ Throughout acts P ∧ P acts a := by
  constructor
  · intro h
    exact ⟨h.before, h acts a [] rfl⟩
  · rintro ⟨h, ha⟩ done b later he
    obtain rfl | ⟨later, c, rfl⟩ := later.eq_nil_or_concat
    · obtain ⟨rfl, hb⟩ := List.append_inj' he rfl
      cases hb
      exact ha
    · have he : acts ++ [a] = (done ++ b :: later) ++ [c] := by simpa using he
      exact h done b later (List.append_inj' he rfl).1

theorem Extent.after_concat (acts : List (TerminalHost × Event)) (a : TerminalHost × Event) :
    after (acts ++ [a]) = (after acts).tell a.2 := by
  rw [after, List.foldl_append]
  rfl

namespace Terminal

variable {e : Extent} {k : Look} {t : Terminal} {pad : Option (Int × Int)}
  {width height : Int}

theorem fits_pixelCall {width height : Nat} {x y : Int} (hk : 1 ≤ t.look.scale)
    (h : Screen.OnScreen width height x y) (lit : Bool) :
    (t.pixelCall x y lit).Fits (some ((height : Int) + 1, width * t.look.scale + 1)) := by
  obtain ⟨hx, hy⟩ := h
  obtain ⟨hleft, hright⟩ := Pad.pixelText_within hk hx
  refine ⟨_, rfl, ?_, hleft, Int.lt_add_one_of_le hright⟩
  simp only [titleRows]
  omega

theorem fits_title {room width rows columns : Int} {text : String} (h : fits room width text = true)
    (hr : 0 < rows) :
    (TerminalCall.addText 0 0 (leftJustified text width.toNat) .reverse).Fits (some (rows, columns)) ↔
      width < columns := by
  have hlt : (text.length : Int) < width := (decide_eq_true_eq.mp h).1
  have hlen : ((leftJustified text width.toNat).length : Int) = width := by
    rw [Pad.length_leftJustified]
    omega
  simp only [TerminalCall.Fits, hlen]
  constructor
  · rintro ⟨_, ⟨⟩, -, -, hc⟩
    omega
  · intro hc
    exact ⟨(rows, columns), rfl, by omega, by omega, by omega⟩

theorem Tied.setTitle (h : Tied e k t pad) (hk : 1 ≤ k.scale) (text : String) :
    (AllFit pad (t.setTitle text).2 ↔ ¬ e.Overhangs k.room k.scale (.title text)) ∧
      Tied e k (t.setTitle text).1 ((t.setTitle text).2.foldl TerminalCall.padAfter pad) := by
  have hwidth : t.titleWidth = e.width * k.scale := by
    rw [titleWidth, h.width, ← h.look]
    rfl
  cases hd : e.drawn with
  | none =>
    have hp : t.hasPad = false := by rw [h.hasPad, hd]; rfl
    have hs : t.setTitle text = ({ t with status := { t.status with title := text } }, []) :=
      if_neg fun hshown => by simp [showsTitle, hp] at hshown
    rw [hs]
    refine ⟨iff_of_true trivial ?_, ⟨h.look, h.width, h.hasPad, h.pad, h.drawn, h.current⟩⟩
    rintro ⟨-, _, hsome, -⟩
    rw [hd] at hsome
    cases hsome
  | some r =>
    have hp : t.hasPad = true := by rw [h.hasPad, hd]; rfl
    have hpad : pad = some (r.2 + 1, r.1 * k.scale + 1) := by rw [h.pad, hd]; rfl
    obtain ⟨hf, he⟩ | ⟨hf, he⟩ := setTitle_cases hp text <;> rw [h.look, hwidth] at hf
    · rw [he, hwidth]
      refine ⟨?_, ⟨h.look, h.width, h.hasPad, h.pad, h.drawn, h.current⟩⟩
      have hrow := h.drawn r hd
      have hover : e.Overhangs k.room k.scale (.title text) ↔ r.1 < e.width := by
        constructor
        · rintro ⟨-, _, hsome, hlt⟩
          rw [hd] at hsome
          cases hsome
          exact hlt
        · exact fun hlt => ⟨hf, r, hd, hlt⟩
      have hscale : e.width * k.scale ≤ r.1 * k.scale ↔ e.width ≤ r.1 :=
        Int.mul_le_mul_right (by omega)
      rw [AllFit, AllFit, and_iff_left trivial, hpad, fits_title hf (by omega), hover, Int.not_lt, ← hscale]
      exact Int.lt_add_one_iff
    · rw [he]
      refine ⟨iff_of_true trivial ?_, ⟨h.look, h.width, h.hasPad, h.pad, h.drawn, h.current⟩⟩
      rintro ⟨hf', -⟩
      rw [hf] at hf'
      cases hf'

theorem plain_refresh (t : Terminal) (host : TerminalHost) (changed : Bool) :
    ∀ c ∈ (t.refresh host changed).2, c.Plain := by
  rw [refresh]
  split
  · cases host.resizable <;> simp [TerminalCall.Plain]
  · split <;> simp [TerminalCall.Plain]

theorem Tied.refresh (h : Tied e k t pad) (host : TerminalHost) (changed : Bool) :
    AllFit pad (t.refresh host changed).2 ∧
      Tied e k (t.refresh host changed).1 ((t.refresh host changed).2.foldl TerminalCall.padAfter pad) := by
  obtain ⟨hfit, hpad⟩ := allFit_of_forall fun c hc => (plain_refresh t host changed c hc).fits pad
  rw [hpad]
  refine ⟨hfit, ?_⟩
  rw [Terminal.refresh]
  split
  · exact ⟨h.look, h.width, h.hasPad, h.pad, h.drawn, h.current⟩
  · split <;> exact ⟨h.look, h.width, h.hasPad, h.pad, h.drawn, h.current⟩

theorem Tied.setPixel (h : Tied e k t pad) (hk : 1 ≤ k.scale) {x y : Int} {lit : Bool}
    (hv : e.Admits (.pixel x y lit)) :
    t.setPixel x y lit = some [t.pixelCall x y lit] ∧ (t.pixelCall x y lit).Fits pad := by
  obtain ⟨hx, hy⟩ := id hv
  have hwidth : (e.width.toNat : Int) = e.width := Int.toNat_of_nonneg (by omega)
  have hheight : (e.height.toNat : Int) = e.height := Int.toNat_of_nonneg (by omega)
  have hdrawn := h.current (by omega) (by omega)
  refine ⟨if_pos (by rw [h.hasPad, hdrawn]; rfl), ?_⟩
  have hfits := fits_pixelCall (h.look ▸ hk : 1 ≤ t.look.scale) hv lit
  rw [hwidth, hheight, h.look] at hfits
  rw [h.pad, hdrawn]
  exact hfits

theorem setResolution_cases (t : Terminal) (hw : 0 ≤ width) (hh : 0 ≤ height) :
    ((width = 0 ∨ height = 0) ∧ t.setResolution width height = (t.resized width height, [])) ∨
    ∃ w n : Nat, width = w ∧ height = n ∧ 0 < w ∧ 0 < n ∧
      t.setResolution w n = (((t.resized w n).setTitle t.status.title).1,
        (t.resized w n).blankPad w n ++ ((t.resized w n).setTitle t.status.title).2) := by
  by_cases hempty : width = 0 ∨ height = 0
  · exact .inl ⟨hempty, if_pos hempty⟩
  · obtain ⟨w, rfl⟩ := Int.eq_ofNat_of_zero_le hw
    obtain ⟨n, rfl⟩ := Int.eq_ofNat_of_zero_le hh
    have hw : 0 < w := by omega
    have hn : 0 < n := by omega
    exact .inr ⟨w, n, rfl, rfl, hw, hn, setResolution_eq hw hn⟩

theorem allFit_blankPad (hk : 1 ≤ t.look.scale) (pad : Option (Int × Int)) (w n : Nat) :
    AllFit pad (t.blankPad w n) ∧ (t.blankPad w n).foldl TerminalCall.padAfter pad =
      some ((n : Int) + 1, w * t.look.scale + 1) := by
  have hpixels : ∀ c ∈ (darkPixels w n).map fun p => t.pixelCall p.1 p.2.1 p.2.2,
      c.Fits (some ((n : Int) + 1, w * t.look.scale + 1)) ∧
        c.padAfter (some ((n : Int) + 1, w * t.look.scale + 1)) =
          some ((n : Int) + 1, w * t.look.scale + 1) := by
    intro c hc
    obtain ⟨p, hmem, rfl⟩ := List.mem_map.mp hc
    exact ⟨fits_pixelCall hk (mem_darkPixels hmem).1 p.2.2, rfl⟩
  obtain ⟨hfit, hpad⟩ := allFit_of_forall hpixels
  exact ⟨⟨trivial, trivial, hfit⟩, hpad⟩

theorem Tied.resized_empty (h : Tied e k t pad) (hempty : width = 0 ∨ height = 0) :
    Tied (e.tell (.resolution width height)) k (t.resized width height) pad := by
  have he : e.tell (.resolution width height) = ⟨width, height, e.drawn⟩ := by
    rw [Extent.tell, if_pos hempty]
  have hp : (t.resized width height).hasPad = t.hasPad := by
    simp only [resized]
    grind
  rw [he]
  refine ⟨h.look, rfl, hp.trans h.hasPad, h.pad, h.drawn, fun hw hn => ?_⟩
  dsimp only at hw hn
  omega

theorem tied_resized (e : Extent) (t : Terminal) {w n : Nat} (hw : 0 < w) (hn : 0 < n) :
    e.tell (.resolution w n) = ⟨w, n, some (w, n)⟩ ∧
      Tied ⟨w, n, some (w, n)⟩ t.look (t.resized w n) (some ((n : Int) + 1, w * t.look.scale + 1)) := by
  have hne : ¬ ((w : Int) = 0 ∨ (n : Int) = 0) := by omega
  have hp : (t.resized w n).hasPad = true := by
    simp only [resized]
    grind
  refine ⟨?_, rfl, rfl, hp, rfl, ?_, fun _ _ => rfl⟩
  · rw [Extent.tell, if_neg hne]
  · rintro _ ⟨⟩
    exact Int.ofNat_lt.mpr hn

theorem Tied.setResolution (h : Tied e k t pad) (hk : 1 ≤ k.scale)
    (hv : e.Admits (.resolution width height)) :
    AllFit pad (t.setResolution width height).2 ∧
      Tied (e.tell (.resolution width height)) k (t.setResolution width height).1
        ((t.setResolution width height).2.foldl TerminalCall.padAfter pad) := by
  obtain rfl := h.look
  obtain ⟨hempty, hs⟩ | ⟨w, n, rfl, rfl, hw, hn, hs⟩ := t.setResolution_cases hv.1 hv.2
  · rw [hs]
    exact ⟨trivial, h.resized_empty hempty⟩
  · obtain ⟨he, hu⟩ := tied_resized e t hw hn
    obtain ⟨hblank, hmade⟩ := allFit_blankPad (t := t.resized w n) hk pad w n
    obtain ⟨htitle, htied⟩ := hu.setTitle hk t.status.title
    -- the title line is as wide as the new pad
    have hover : ¬ Extent.Overhangs ⟨w, n, some (w, n)⟩ t.look.room t.look.scale
        (.title t.status.title) := by
      rintro ⟨-, _, ⟨⟩, hlt⟩
      exact Int.lt_irrefl _ hlt
    rw [hs, he, allFit_append, List.foldl_append, hmade]
    exact ⟨⟨hblank, htitle.mpr hover⟩, htied⟩

theorem Tied.tell (h : Tied e k t pad) (hk : 1 ≤ k.scale) (a : TerminalHost × Event) (hv : e.Admits a.2) :
    (AllFit pad (tell a t).2 ↔ ¬ e.Overhangs k.room k.scale a.2) ∧
      Tied (e.tell a.2) k (tell a t).1 ((tell a t).2.foldl TerminalCall.padAfter pad) := by
  obtain ⟨host, event⟩ := a
  cases event with
  | resolution width height =>
    obtain ⟨hfit, htied⟩ := h.setResolution hk hv
    exact ⟨iff_of_true hfit id, htied⟩
  | pixel x y lit =>
    obtain ⟨hs, hfit⟩ := h.setPixel hk hv
    rw [Terminal.tell, hs]
    exact ⟨iff_of_true ⟨hfit, trivial⟩ id, h⟩
  | refresh changed =>
    obtain ⟨hfit, htied⟩ := h.refresh host changed
    exact ⟨iff_of_true hfit id, htied⟩
  | title text => exact h.setTitle hk text

theorem Placed.mono {texts more : List String} {calls : List TerminalCall} (h : Placed k texts calls)
    (hsub : texts ⊆ more) : Placed k more calls := by
  intro y x text style hm
  cases h y x text style hm with
  | title width ht => exact .title width (hsub ht)
  | pixel lit hx hy => exact .pixel lit hx hy

theorem Placed.append {texts : List String} {calls more : List TerminalCall} (h : Placed k texts calls)
    (hmore : Placed k texts more) : Placed k texts (calls ++ more) := by
  intro y x text style hm
  exact (List.mem_append.mp hm).elim (h y x text style) (hmore y x text style)

theorem placed_of_plain {texts : List String} {calls : List TerminalCall} (h : ∀ c ∈ calls, c.Plain) :
    Placed k texts calls :=
  fun _ _ _ _ hm => (h _ hm).elim

theorem placed_setTitle (k : Look) (t : Terminal) {texts : List String} {text : String} (h : text ∈ texts) :
    Placed k texts (t.setTitle text).2 := by
  intro y x line style hm
  rw [Terminal.setTitle] at hm
  split at hm
  · rw [List.mem_singleton.mp hm]
    exact .title _ h
  · cases hm

theorem title_setTitle (t : Terminal) (text : String) : (t.setTitle text).1.status.title = text := by
  rw [Terminal.setTitle]
  split <;> rfl

theorem writes_pixelCall (texts : List String) {x y : Int} (hx : 0 ≤ x) (hy : 0 ≤ y) (lit : Bool) :
    Writes t.look texts (t.pixelCall x y lit) :=
  .pixel lit hx (by rw [titleRows]; omega)

theorem placed_blankPad (t : Terminal) (texts : List String) (w n : Nat) :
    Placed t.look texts (t.blankPad w n) := by
  intro y x text style hm
  have hpixels := (List.mem_cons.mp hm).resolve_left nofun
  obtain ⟨p, hp, he⟩ := List.mem_map.mp ((List.mem_cons.mp hpixels).resolve_left nofun)
  obtain ⟨hx, hy⟩ := (mem_darkPixels hp).1
  rw [← he]
  exact writes_pixelCall texts hx.1 hy.1 p.2.2

theorem placed_setResolution (hv : e.Admits (.resolution width height)) {texts : List String}
    (h : t.status.title ∈ texts) :
    Placed t.look texts (t.setResolution width height).2 ∧
      (t.setResolution width height).1.status.title = t.status.title := by
  obtain ⟨-, hs⟩ | ⟨w, n, rfl, rfl, -, -, hs⟩ := t.setResolution_cases hv.1 hv.2
  · rw [hs]
    exact ⟨nofun, rfl⟩
  · rw [hs]
    exact ⟨((t.resized w n).placed_blankPad texts w n).append (placed_setTitle _ _ h), title_setTitle _ _⟩

theorem placed_tell {a : TerminalHost × Event} (hv : e.Admits a.2) {texts : List String}
    (h : t.status.title ∈ texts) (ha : ∀ text, a.2.title? = some text → text ∈ texts) :
    Placed t.look texts (tell a t).2 ∧ (tell a t).1.status.title ∈ texts := by
  obtain ⟨host, event⟩ := a
  cases event with
  | resolution width height =>
    obtain ⟨hp, ht⟩ := placed_setResolution hv h
    refine ⟨hp, ?_⟩
    rw [Terminal.tell, ht]
    exact h
  | pixel x y lit =>
    refine ⟨?_, h⟩
    intro y' x' text style hm
    rw [Terminal.tell, Terminal.setPixel] at hm
    split at hm
    · rw [List.mem_singleton.mp hm]
      exact writes_pixelCall texts hv.1.1 hv.2.1 lit
    · cases hm
  | refresh changed =>
    refine ⟨placed_of_plain (plain_refresh t host changed), ?_⟩
    rw [Terminal.tell, Terminal.refresh]
    split
    · exact h
    · split <;> exact h
  | title text =>
    refine ⟨placed_setTitle _ t (ha text rfl), ?_⟩
    rw [Terminal.tell, title_setTitle]
    exact ha text rfl

theorem create_plain {room : Int} {settings : Settings} {opening : List TerminalCall}
    (hc : create room settings = .ok (t, opening)) :
    (∀ c ∈ opening, c.Plain) ∧ t.hasPad = false ∧ t.status.width = 0 ∧ t.status.title = "" := by
  simp only [create, bind, Except.bind, pure, Except.pure] at hc
  repeat' split at hc
  all_goals cases hc
  all_goals simp [TerminalCall.Plain, Status.initial]

theorem traced_create {room : Int} {settings : Settings} {opening : List TerminalCall}
    (hc : create room settings = .ok (t, opening)) : Traced t.look [] t opening := by
  obtain ⟨hplain, hp, hw, ht⟩ := create_plain hc
  obtain ⟨hfit, hpad⟩ := allFit_of_forall fun c hm => (hplain c hm).fits none
  refine ⟨?_, iff_of_true hfit ?_, placed_of_plain hplain, ?_⟩
  · rw [hpad]
    refine ⟨rfl, hw, hp, rfl, nofun, fun hlt => absurd hlt (Int.lt_irrefl 0)⟩
  · intro done a later he
    exact absurd he.symm (List.append_ne_nil_of_right_ne_nil _ (List.cons_ne_nil _ _))
  · rw [ht]
    exact List.mem_cons_self

theorem Traced.tell {events : List (TerminalHost × Event)} {calls : List TerminalCall}
    (h : Traced k events t calls) (hk : 1 ≤ k.scale) (a : TerminalHost × Event)
    (hv : (Extent.after events).Admits a.2) :
    Traced k (events ++ [a]) (Terminal.tell a t).1 (calls ++ (Terminal.tell a t).2) := by
  obtain ⟨hfit, htied⟩ := h.tied.tell hk a hv
  have hcaptions : captions (events ++ [a]) = captions events ++ a.2.title?.toList := by
    rw [captions, List.filterMap_append, ← List.cons_append]
    cases hq : a.2.title? <;> simp [captions, hq]
  have hsub : captions events ⊆ captions (events ++ [a]) := by
    rw [hcaptions]
    exact List.subset_append_left _ _
  have htold : ∀ text, a.2.title? = some text → text ∈ captions (events ++ [a]) := by
    intro text ht
    rw [hcaptions, ht]
    exact List.mem_append_right _ List.mem_cons_self
  obtain ⟨hplaced, htitle⟩ := placed_tell hv (hsub h.title) htold
  refine ⟨?_, ?_, ?_, htitle⟩
  · rw [Extent.after_concat, List.foldl_append]
    exact htied
  · rw [allFit_append, throughout_concat, h.fit, hfit]
  · rw [h.tied.look] at hplaced
    exact (h.placed.mono hsub).append hplaced

theorem traced_play {room : Int} {settings : Settings} {opening : List TerminalCall}
    (hc : create room settings = .ok (t, opening)) (hk : 1 ≤ t.look.scale)
    {events : List (TerminalHost × Event)}
    (hv : Throughout events fun done a => (Extent.after done).Admits a.2) :
    Traced t.look events (play tell events (t, opening)).1 (play tell events (t, opening)).2 := by
  revert hv
  -- the events are admitted one by one, so what admits them is part of the invariant
  refine play_induction (P := fun done r =>
    Throughout done (fun first a => (Extent.after first).Admits a.2) → Traced t.look done r.1 r.2)
    (fun _ => traced_create hc) ?_
  intro done a _ u calls ih hv
  obtain ⟨hdone, ha⟩ := throughout_concat.mp hv
  exact (ih hdone).tell hk a ha

/-- A terminal is told of resolutions, titles, pixels of the latest resolution and frames in any order. Titles
are written in row 0 and pixels below it, and every text lies inside the pad that was made last, unless a
title is told that fits the latest resolution but overhangs the pad, which an empty resolution has not made
anew. There is a pad whenever a pixel is told. -/
theorem texts_inside_unless_overhanging {room : Int} {settings : Settings} {opening : List TerminalCall}
    (hc : create room settings = .ok (t, opening)) (hk : 1 ≤ t.status.scale)
    {events : List (TerminalHost × Event)}
    (hv : Throughout events fun done a => (Extent.after done).Admits a.2) :
    (AllFit none (play tell events (t, opening)).2 ↔
      Throughout events fun done a => ¬ (Extent.after done).Overhangs room t.status.scale a.2) ∧
    Placed t.look (captions events) (play tell events (t, opening)).2 ∧
    Throughout events fun done a => ∀ x y lit, a.2 = .pixel x y lit →
      ((play tell done (t, opening)).1.setPixel x y lit).isSome := by
  obtain ⟨-, -, rfl, -⟩ := create_eq hc
  have htraced := traced_play hc hk hv
  refine ⟨htraced.fit, htraced.placed, ?_⟩
  rintro done ⟨host, _⟩ later rfl x y lit rfl
  have hpixel : (Extent.after done).Admits (.pixel x y lit) := hv done _ later rfl
  rw [((traced_play hc hk hv.before).tied.setPixel hk hpixel).1]
  rfl

theorem texts_inside_unless_overhanging_narrow :
    let host : TerminalHost := ⟨24, 80, true⟩
    let events : List (TerminalHost × Event) := [(host, .title "PONG"), (host, .resolution 4 2),
      (host, .pixel 3 1 true), (host, .refresh true), (host, .resolution 3 0), (host, .title "A")]
    ∃ t opening, create 80 ⟨none, none, some 0⟩ = .ok (t, opening) ∧ 1 ≤ t.status.scale ∧
      Throughout events (fun done a => (Extent.after done).Admits a.2) ∧
      AllFit none (play tell events (t, opening)).2 ∧
      Placed ⟨2, .normal, .reverse, 80⟩ ["", "PONG", "A"] (play tell events (t, opening)).2 := by
  intro host events
  obtain ⟨t, opening, hc, hlook⟩ : ∃ t opening, create 80 ⟨none, none, some 0⟩ = .ok (t, opening) ∧
      t.look = ⟨2, .normal, .reverse, 80⟩ := ⟨_, _, rfl, rfl⟩
  have hscale : t.status.scale = 2 := congrArg Look.scale hlook
  have hv : Throughout events fun done a => (Extent.after done).Admits a.2 := by decide
  have hover : Throughout events fun done a => ¬ (Extent.after done).Overhangs 80 2 a.2 := by decide
  obtain ⟨hfit, hplaced, -⟩ := texts_inside_unless_overhanging hc (by omega) hv
  rw [hscale] at hfit
  rw [hlook] at hplaced
  exact ⟨t, opening, hc, by omega, hv, hfit.mpr hover, hplaced⟩

/-- A title of 3 characters after an empty resolution of 2 columns, on a pad that was made for one column. -/
theorem title_overhangs_pad :
    ¬ ∀ (room : Int) (settings : Settings) (t : Terminal) (opening : List TerminalCall)
      (events : List (TerminalHost × Event)), create room settings = .ok (t, opening) → 1 ≤ t.status.scale →
        Throughout events (fun done a => (Extent.after done).Admits a.2) →
          AllFit none (play tell events (t, opening)).2 := by
  intro h
  let host : TerminalHost := ⟨24, 80, true⟩
  let events : List (TerminalHost × Event) :=
    [(host, .resolution 1 1), (host, .resolution 2 0), (host, .title "abc")]
  obtain ⟨t, opening, hc, hscale⟩ : ∃ t opening, create 80 ⟨none, none, some 0⟩ = .ok (t, opening) ∧
      t.look.scale = 2 := ⟨_, _, rfl, rfl⟩
  have hk : 1 ≤ t.look.scale := by omega
  have hv : Throughout events fun done a => (Extent.after done).Admits a.2 := by decide
  have hover : Throughout events fun done a => ¬ (Extent.after done).Overhangs t.look.room t.look.scale a.2 :=
    (traced_play hc hk hv).fit.mp (h _ _ t opening events hc hk hv)
  obtain ⟨-, -, hroom, -⟩ := create_eq hc
  have hroom : t.look.room = 80 := hroom
  rw [hscale, hroom] at hover
  exact absurd hover (by decide)

end Terminal

end Chip8.Display
