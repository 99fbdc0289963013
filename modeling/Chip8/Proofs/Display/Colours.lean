import Chip8.Proofs.Display.Calls
import Chip8.Proofs.Display.Current
import Chip8.Proofs.Display.Defaults
import Chip8.Proofs.Palette.Parse

namespace Chip8.Display

theorem Colour.components_ofCode (code : Int) :
    ((ofCode code).red.toNat : Int) = code / 0x10000 % 0x100 ∧
      ((ofCode code).green.toNat : Int) = code / 0x100 % 0x100 ∧
      ((ofCode code).blue.toNat : Int) = code % 0x100 := by
  have low (n : Int) : ((Byte.low n).toNat : Int) = n % 0x100 := by
    rw [Byte.low, UInt8.toNat_ofNat']
    omega
  exact ⟨low _, low _, low _⟩

def Call.filled? : Call → Option Colour
  | .window (.fill _ colour) => some colour
  | .window (.fillCell _ colour _ _ _ _) => some colour
  | _ => none

/-- The colours of the text and of what is behind it, of a pair that is chosen. -/
def Call.pair? : Call → Option (Int × Int)
  | .terminal (.initPair _ foreground background) => some (foreground, background)
  | _ => none

namespace Window

theorem create_colours {settings : Settings} {w : Window} {opening : List WindowCall}
    (h : create settings = .ok (w, opening)) :
    ∃ palette dark lit, settings.palette = Option.map .value palette ∧
      Palette.parse palette [darkDefault, litDefault] (6 : Nat) (16 : Nat) = .ok [dark, lit] ∧
      w.dark = .ofCode dark ∧ w.lit = .ofCode lit := by
  rw [create] at h
  obtain ⟨palette, hdemand, h⟩ := exists_of_bind_eq_ok h
  obtain ⟨⟨dark, lit⟩, hparse, h⟩ := exists_of_bind_eq_ok h
  obtain ⟨scale, -, h⟩ := exists_of_bind_eq_ok h
  obtain ⟨rfl, -⟩ := Prod.mk.inj (Except.ok.inj h)
  exact ⟨palette, dark, lit, Argument.demand_eq_ok_iff.mp hdemand,
    (Palette.parsePair_eq_ok_iff (by decide)).mp (eq_ok_of_mapError hparse), rfl, rfl⟩

end Window

namespace Terminal

theorem create_pairs {room : Int} {settings : Settings} {t : Terminal} {opening : List TerminalCall}
    (h : create room settings = .ok (t, opening)) {number : Nat} {foreground background : Int}
    (hc : .initPair number foreground background ∈ opening) :
    (foreground = white ∨ foreground = black) ∧ ∃ text colours, background ∈ colours ∧
      Palette.parse text [black, white] (1 : Nat) (8 : Nat) = .ok colours := by
  rw [create] at h
  obtain ⟨scale, -, h⟩ := exists_of_bind_eq_ok h
  obtain ⟨_, -, h⟩ := exists_of_bind_eq_ok h
  obtain ⟨palette, -, h⟩ := exists_of_bind_eq_ok h
  cases palette with
  | none =>
    obtain ⟨-, rfl⟩ := Prod.mk.inj (Except.ok.inj h)
    simp at hc
  | some text =>
    obtain ⟨⟨dark, lit⟩, hparse, h⟩ := exists_of_bind_eq_ok h
    obtain ⟨-, rfl⟩ := Prod.mk.inj (Except.ok.inj h)
    have hparse := (Palette.parsePair_eq_ok_iff (by decide)).mp (eq_ok_of_mapError hparse)
    have hpairs : number = 1 ∧ foreground = white ∧ background = dark ∨
        number = 2 ∧ foreground = black ∧ background = lit := by simpa using hc
    obtain ⟨-, rfl, rfl⟩ | ⟨-, rfl, rfl⟩ := hpairs
    · exact ⟨.inl rfl, some text, _, List.mem_cons_self, hparse⟩
    · exact ⟨.inr rfl, some text, _, List.mem_cons_of_mem _ List.mem_cons_self, hparse⟩

theorem create_pairs_inRange {room : Int} {settings : Settings} {t : Terminal} {opening : List TerminalCall}
    (h : create room settings = .ok (t, opening)) {number : Nat} {foreground background : Int}
    (hc : .initPair number foreground background ∈ opening) :
    (0 ≤ foreground ∧ foreground < 8) ∧ 0 ≤ background ∧ background < 8 := by
  obtain ⟨hf, text, colours, hb, hparse⟩ := create_pairs h hc
  have hdefaults : ∀ default ∈ [black, white], 0 ≤ default ∧ default < (8 : Nat) := by decide
  constructor
  · rcases hf with rfl | rfl <;> decide
  · exact Palette.single_digits_in_range (by decide) hdefaults hparse background hb

end Terminal

theorem SameColours.refl (d : Display) : d.SameColours d := by
  cases d with
  | window w => exact ⟨rfl, rfl⟩
  | terminal t => exact trivial
  | blank s => exact trivial

theorem Window.draws_congr {w v : Window} (hdark : v.dark = w.dark) (hlit : v.lit = w.lit)
    (c : WindowCall) : v.Draws c ↔ w.Draws c := by
  cases c <;> simp only [Draws, hdark, hlit]

theorem SameColours.draws {d e : Display} (h : d.SameColours e) {c : Call} (hc : e.Draws c) : d.Draws c := by
  cases d with
  | window w =>
    cases e with
    | window v =>
      cases c with
      | window c => exact (Window.draws_congr h.1 h.2 c).mp hc
      | terminal c => exact hc
    | terminal u => exact h.elim
    | blank s => exact h.elim
  | terminal t =>
    cases e with
    | terminal u => cases c <;> exact hc
    | window v => exact h.elim
    | blank s => exact h.elim
  | blank s =>
    cases e with
    | blank s => cases c <;> exact hc
    | window v => exact h.elim
    | terminal u => exact h.elim

theorem shutdown_colourless (d : Display) : ∀ c ∈ d.shutdown, c.filled? = none ∧ c.pair? = none := by
  cases d with
  | window w => simp [shutdown, Window.shutdown, Call.filled?, Call.pair?]
  | terminal t =>
    by_cases h : t.cursor = some 1 <;> simp [shutdown, Terminal.shutdown, h, Call.filled?, Call.pair?]
  | blank s => exact List.forall_mem_nil _

theorem operate_calls (host : TerminalHost) (d : Display) (op : Operation) :
    ∀ c ∈ (operate host d op).2.calls, d.Draws c ∨ c ∈ d.shutdown := by
  cases op with
  | tell event => exact fun c hc => .inl (handle_draws host d event c hc)
  | resize rows columns => exact List.forall_mem_nil _
  | shutdown => exact fun c hc => .inr hc

theorem operate_sameColours (host : TerminalHost) (d : Display) (op : Operation) :
    d.SameColours (operate host d op).2.display := by
  cases op with
  | tell event => exact handle_sameColours host d event
  | resize rows columns => exact .refl d
  | shutdown => exact .refl d

theorem replies_calls (host : TerminalHost) (d : Display) (ops : List Operation) :
    ∀ r ∈ replies host d ops, ∀ c ∈ r.calls, d.Draws c ∨ c.filled? = none ∧ c.pair? = none := by
  induction ops generalizing host d with
  | nil => exact List.forall_mem_nil _
  | cons op ops ih =>
    refine List.forall_mem_cons.mpr ⟨fun c hc => ?_, fun r hr c hc => ?_⟩
    · exact (operate_calls host d op c hc).imp_right (d.shutdown_colourless c)
    · exact (ih _ _ r hr c hc).imp_left (operate_sameColours host d op).draws

theorem filled?_of_draws {d : Display} {c : Call} (h : d.Draws c) {colour : Colour}
    (hf : c.filled? = some colour) : ∃ w, d = window w ∧ (colour = w.dark ∨ colour = w.lit) := by
  cases d with
  | window w =>
    refine ⟨w, rfl, ?_⟩
    cases c with
    | window c =>
      cases c with
      | fill surface colour =>
        cases hf
        exact h
      | fillCell =>
        cases hf
        exact h
      | _ => cases hf
    | terminal c => exact h.elim
  | terminal t =>
    cases c with
    | window c => exact h.elim
    | terminal c => cases hf
  | blank s => exact h.elim

theorem pair?_of_draws {d : Display} {c : Call} (h : d.Draws c) : c.pair? = none := by
  cases c with
  | window c => rfl
  | terminal c =>
    cases c with
    | initPair number foreground background => cases d <;> exact h.elim
    | _ => rfl

variable {room : Int} {plugin : Plugin} {o : Passed} {host : TerminalHost} {ops : List Operation} {seen : List Reply}

theorem exists_of_observe (h : observe room plugin o host ops = .ok seen) :
    ∃ d opening, create room plugin o.settings = .ok (d, opening) ∧
      ∀ r ∈ seen, ∀ c ∈ r.calls, c ∈ opening ∨ d.Draws c ∨ c.filled? = none ∧ c.pair? = none := by
  rw [observe] at h
  obtain ⟨⟨d, opening⟩, hcreate, rfl⟩ := exists_of_map_eq_ok h
  refine ⟨d, opening, hcreate, List.forall_mem_cons.mpr ⟨fun c hc => .inl hc, fun r hr c hc => .inr ?_⟩⟩
  exact replies_calls host d ops r hr c hc

theorem pairs_inRange (h : observe room plugin o host ops = .ok seen) :
    ∀ r ∈ seen, ∀ c ∈ r.calls, ∀ foreground background, c.pair? = some (foreground, background) →
      (0 ≤ foreground ∧ foreground < 8) ∧ 0 ≤ background ∧ background < 8 := by
  intro r hr c hc foreground background hp
  obtain ⟨d, opening, hcreate, hcalls⟩ := exists_of_observe h
  obtain ho | hd | ⟨-, hn⟩ := hcalls r hr c hc
  · obtain ⟨w, calls, -, rfl, -⟩ | ⟨t, calls, -, rfl, ht⟩ | ⟨s, -, rfl⟩ := create_cases hcreate
    · obtain ⟨call, -, rfl⟩ := List.mem_map.mp ho
      cases hp
    · obtain ⟨call, hcall, rfl⟩ := List.mem_map.mp ho
      cases call with
      | initPair number =>
        cases hp
        exact Terminal.create_pairs_inRange ht hcall
      | _ => cases hp
    · exact absurd ho List.not_mem_nil
  · rw [pair?_of_draws hd] at hp
    cases hp
  · rw [hn] at hp
    cases hp

theorem fills_of_palette (h : observe room plugin o host ops = .ok seen) :
    ∀ r ∈ seen, ∀ c ∈ r.calls, ∀ colour, c.filled? = some colour →
      ∃ palette colours, o.settings.windowPalette = Option.map .value palette ∧
        Palette.parse palette [Window.darkDefault, Window.litDefault] (6 : Nat) (16 : Nat) = .ok colours ∧
        ∃ code ∈ colours, colour = .ofCode code := by
  intro r hr c hc colour hf
  obtain ⟨d, opening, hcreate, hcalls⟩ := exists_of_observe h
  obtain ho | hd | ⟨hn, -⟩ := hcalls r hr c hc
  · obtain ⟨w, calls, -, rfl, hw⟩ | ⟨t, calls, -, rfl, -⟩ | ⟨s, -, rfl⟩ := create_cases hcreate
    · obtain ⟨call, hcall, rfl⟩ := List.mem_map.mp ho
      rw [(Window.create_eq hw).2.2] at hcall
      simp only [List.mem_cons, List.not_mem_nil, or_false] at hcall
      obtain rfl | rfl | rfl := hcall <;> cases hf
    · obtain ⟨call, -, rfl⟩ := List.mem_map.mp ho
      cases hf
    · exact absurd ho List.not_mem_nil
  · obtain ⟨w, rfl, hcolour⟩ := filled?_of_draws hd hf
    obtain ⟨v, calls, he, -, hw⟩ | ⟨t, calls, he, -⟩ | ⟨s, he, -⟩ := create_cases hcreate
    · cases he
      obtain ⟨palette, dark, lit, hpalette, hparse, hdark, hlit⟩ := Window.create_colours hw
      refine ⟨palette, _, hpalette, hparse, ?_⟩
      obtain rfl | rfl := hcolour
      · exact ⟨dark, List.mem_cons_self, hdark⟩
      · exact ⟨lit, List.mem_cons_of_mem _ List.mem_cons_self, hlit⟩
    · cases he
    · cases he
  · rw [hn] at hf
    cases hf

open Palette Text in
/-- A palette is refused or gives as many colours as there are defaults: each is the default in its place if its
entry is missing or empty, and otherwise the integer that the entry is a written form of. It is refused if it has
more entries than there are defaults, and otherwise for the first of its entries that is too long or is no written
form in the base. An integer that is read is no larger than its digits allow, and a single digit has no sign. So a
terminal is never asked for other colours than its eight, and what is filled in a window has the three low bytes
of the integers of its palette for components. -/
theorem colours_of_palette {digits base : Nat} (hb : 2 ≤ base ∧ base ≤ 36) (text : Option String)
    (defaults : List Int) :
    (∀ colours, parse text defaults digits base = .ok colours ↔
      (entries text).length ≤ defaults.length ∧ colours.length = defaults.length ∧
        ∀ k default colour, defaults[k]? = some default → colours[k]? = some colour →
          Gives digits base default ((entries text).getD k []) colour) ∧
    (∀ e, parse text defaults digits base = .error e ↔
      defaults.length < (entries text).length ∧ e = .tooMany ∨
        (entries text).length ≤ defaults.length ∧ ∃ before entry after,
          entries text = before ++ entry :: after ∧ (∀ other ∈ before, ∀ e, ¬ Refused digits base other e) ∧
            Refused digits base entry e) ∧
    (∀ default entry colour, Gives digits base default entry colour → entry ≠ [] →
      Numeral.WrittenIn base colour entry ∧ colour.natAbs < base ^ digits ∧ (digits = 1 → 0 ≤ colour)) ∧
    ∀ room plugin o host ops seen, observe room plugin o host ops = .ok seen → ∀ r ∈ seen, ∀ c ∈ r.calls,
      (∀ foreground background, c.pair? = some (foreground, background) →
        (0 ≤ foreground ∧ foreground < 8) ∧ 0 ≤ background ∧ background < 8) ∧
      ∀ colour, c.filled? = some colour → ∃ palette colours,
        o.settings.windowPalette = Option.map .value palette ∧
        parse palette [Window.darkDefault, Window.litDefault] (6 : Nat) (16 : Nat) = .ok colours ∧
        ∃ code ∈ colours, (colour.red.toNat : Int) = code / 0x10000 % 0x100 ∧
          (colour.green.toNat : Int) = code / 0x100 % 0x100 ∧ (colour.blue.toNat : Int) = code % 0x100 := by
  refine ⟨fun colours => parse_eq_ok_iff hb, fun e => parse_eq_error_iff hb, ?_, ?_⟩
  · intro default entry colour h hne
    refine ⟨?_, h.bounds hb hne⟩
    cases h with
    | kept => exact absurd rfl hne
    | read _ _ h => exact h
  · intro room plugin o host ops seen h r hr c hc
    refine ⟨pairs_inRange h r hr c hc, fun colour hf => ?_⟩
    obtain ⟨palette, colours, hpalette, hparse, code, hcode, rfl⟩ := fills_of_palette h r hr c hc colour hf
    exact ⟨palette, colours, hpalette, hparse, code, hcode, Colour.components_ofCode code⟩

open Palette Text in
theorem colours_of_signed_palette :
    let defaults := [Window.darkDefault, Window.litDefault]
    let host : TerminalHost := ⟨24, 80, true⟩
    let o : Passed := ⟨.missing, .missing, .given (.value "-1,0x_1f"), .given (.value ",3"), .missing⟩
    (2 ≤ 16 ∧ 16 ≤ 36) ∧
    parse (some "-1,0x_1f") defaults (6 : Nat) (16 : Nat) = .ok [-1, 31] ∧
    Gives 6 16 Window.darkDefault ['-', '1'] (-1) ∧ Gives 6 16 Window.litDefault ['0', 'x', '_', '1', 'f'] 31 ∧
    Numeral.WrittenIn 16 31 ['0', 'x', '_', '1', 'f'] ∧ (31 : Int).natAbs < 16 ^ 6 ∧
    parse (some "f,-0xfffff") defaults (6 : Nat) (16 : Nat) = .error (.tooLong "-0xfffff" (6 : Nat)) ∧
    (∃ before entry after, entries (some "f,-0xfffff") = before ++ entry :: after ∧
      Refused 6 16 entry (.tooLong "-0xfffff" (6 : Nat))) ∧
    (∃ seen, observe 80 .window o host [.tell (.resolution 2 1)] = .ok seen ∧
      ∃ r ∈ seen, .window (.fill 0 ⟨0xFF, 0xFF, 0xFF⟩) ∈ r.calls ∧
        ∃ code ∈ [-1, 31], (0xFF : Int) = code / 0x10000 % 0x100 ∧ (0xFF : Int) = code % 0x100) ∧
    ∃ seen, observe 80 .terminal o host [.shutdown] = .ok seen ∧
      ∃ r ∈ seen, .terminal (.initPair 2 0 3) ∈ r.calls ∧ (0 : Int) ≤ 3 ∧ (3 : Int) < 8 := by
  intro defaults host o
  have hb : 2 ≤ 16 ∧ 16 ≤ 36 := by decide
  have hparse : parse (some "-1,0x_1f") defaults (6 : Nat) (16 : Nat) = .ok [-1, 31] := by rfl
  have hrefused : parse (some "f,-0xfffff") defaults (6 : Nat) (16 : Nat) =
      .error (.tooLong "-0xfffff" (6 : Nat)) := by rfl
  obtain ⟨hok, -, hread, hcalls⟩ := @colours_of_palette 6 16 hb (some "-1,0x_1f") defaults
  obtain ⟨-, herr, -⟩ := @colours_of_palette 6 16 hb (some "f,-0xfffff") defaults
  obtain ⟨-, -, hgives⟩ := (hok _).mp hparse
  have h31 : Gives 6 16 Window.litDefault ['0', 'x', '_', '1', 'f'] 31 := hgives 1 _ _ rfl rfl
  obtain ⟨hwritten, hlt, -⟩ := hread _ _ _ h31 (List.cons_ne_nil _ _)
  refine ⟨hb, hparse, hgives 0 _ _ rfl rfl, h31, hwritten, hlt, hrefused, ?_, ?_, ?_⟩
  · obtain ⟨-, he⟩ | ⟨-, before, entry, after, he, -, hr⟩ := (herr _).mp hrefused
    · cases he
    · exact ⟨before, entry, after, he, hr⟩
  · obtain ⟨seen, hseen, r, hr, hc⟩ : ∃ seen, observe 80 .window o host [.tell (.resolution 2 1)] = .ok seen ∧
        ∃ r ∈ seen, .window (.fill 0 ⟨0xFF, 0xFF, 0xFF⟩) ∈ r.calls :=
      ⟨_, rfl, _, List.mem_cons_of_mem _ List.mem_cons_self, List.mem_cons_of_mem _ List.mem_cons_self⟩
    obtain ⟨-, hfilled⟩ := hcalls _ _ _ _ _ _ hseen r hr _ hc
    obtain ⟨palette, colours, hpalette, hcolours, code, hcode, hred, -, hblue⟩ := hfilled _ rfl
    have hp : palette = some "-1,0x_1f" := by
      cases palette with
      | none => cases hpalette
      | some text =>
        cases hpalette
        rfl
    cases hp
    cases hparse.symm.trans hcolours
    exact ⟨seen, hseen, r, hr, hc, code, hcode, hred, hblue⟩
  · obtain ⟨seen, hseen, r, hr, hc⟩ : ∃ seen, observe 80 .terminal o host [.shutdown] = .ok seen ∧
        ∃ r ∈ seen, .terminal (.initPair 2 0 3) ∈ r.calls :=
      ⟨_, rfl, _, List.mem_cons_self, by decide⟩
    obtain ⟨hpairs, -⟩ := hcalls _ _ _ _ _ _ hseen r hr _ hc
    exact ⟨seen, hseen, r, hr, hc, (hpairs _ _ rfl).2⟩

end Chip8.Display
