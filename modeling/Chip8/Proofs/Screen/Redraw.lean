import Chip8.Proofs.Screen.Sprite

namespace Chip8.Screen

variable {width height : Nat}

structure Draw where
  x : Int
  y : Int
  sprite : List UInt8
deriving DecidableEq

def draw (d : Draw) : EStateM Memory.OutOfRange (Screen width height) Bool :=
  drawSprite d.x d.y d.sprite

/-- Tells which of the sprites collided, each with what was drawn before it. -/
def drawAll : List Draw → EStateM Memory.OutOfRange (Screen width height) (List Bool)
  | [] => pure []
  | d :: draws => do
    let collided ← draw d
    let others ← drawAll draws
    return collided :: others

def redrawn (s : Screen width height) (d : Draw) : Screen width height :=
  s.drawn d.x d.y d.sprite

theorem draw_eq (s : Screen width height) {d : Draw} (hd : 0 ≤ d.x ∧ 0 ≤ d.y) :
    draw d s = .ok (s.collides d.x d.y d.sprite) (s.redrawn d) :=
  s.drawSprite_eq hd.1 hd.2 d.sprite

theorem drawAll_eq (s : Screen width height) {draws : List Draw} (hd : ∀ d ∈ draws, 0 ≤ d.x ∧ 0 ≤ d.y) :
    ∃ collisions, drawAll draws s = .ok collisions (draws.foldl redrawn s) := by
  induction draws generalizing s with
  | nil => exact ⟨[], rfl⟩
  | cons d draws ih =>
    obtain ⟨collisions, hc⟩ := ih (s.redrawn d) fun d hm => hd d (List.mem_cons_of_mem _ hm)
    refine ⟨s.collides d.x d.y d.sprite :: collisions, ?_⟩
    simp only [drawAll, bind, EStateM.bind, draw_eq s (hd d List.mem_cons_self), hc]
    rfl

theorem redrawn_comm (s : Screen width height) (d e : Draw) :
    (s.redrawn d).redrawn e = (s.redrawn e).redrawn d := by
  simp only [redrawn, drawn, xor_xor]
  apply xor_congr
  intro x y _
  exact Bool.xor_comm _ _

theorem redrawn_self (s : Screen width height) (d : Draw) : (s.redrawn d).redrawn d = s := by
  simp only [redrawn, drawn, xor_xor, Bool.xor_self]
  exact xor_dark s

theorem foldl_redrawn_perm (s : Screen width height) {draws others : List Draw} (hp : draws.Perm others) :
    draws.foldl redrawn s = others.foldl redrawn s :=
  hp.foldl_eq' (fun d _ e _ s => s.redrawn_comm d e) s

theorem foldl_redrawn_reverse (s : Screen width height) (draws : List Draw) :
    draws.reverse.foldl redrawn (draws.foldl redrawn s) = s := by
  induction draws generalizing s with
  | nil => rfl
  | cons d draws ih =>
    rw [List.foldl_cons, List.reverse_cons, List.foldl_append, ih]
    exact s.redrawn_self d

theorem collides_redrawn_iff (s : Screen width height) (d : Draw) :
    (s.redrawn d).collides d.x d.y d.sprite = true ↔
      ∃ x y, OnScreen width height x y ∧ s.lit x y = false ∧ (s.redrawn d).lit x y = true := by
  rw [collides_iff]
  refine exists_congr fun x => exists_congr fun y => ?_
  constructor
  · rintro ⟨hl, hb⟩
    have h := onScreen_of_lit hl
    refine ⟨h, ?_, hl⟩
    rw [redrawn, drawn, lit_xor s _ h, spritePicture, hb] at hl
    simpa using hl
  · rintro ⟨h, hs, hl⟩
    refine ⟨hl, ?_⟩
    rw [redrawn, drawn, lit_xor s _ h, hs, Bool.false_xor] at hl
    exact hl

/-- Draws in any order give the same screen, and the same draws once more, in any order, give back the screen from
before them all. A draw that is repeated at once collides if it switched on some cell of the screen the first
time; cells that were clipped do not count. -/
theorem draws_commute_and_cancel (s : Screen width height) :
    (∀ draws others again : List Draw, (∀ d ∈ draws, 0 ≤ d.x ∧ 0 ≤ d.y) → draws.Perm others →
      draws.Perm again → ∃ t collisions collisions' collisions'',
        drawAll draws s = .ok collisions t ∧ drawAll others s = .ok collisions' t ∧
          drawAll again t = .ok collisions'' s) ∧
    ∀ d : Draw, 0 ≤ d.x ∧ 0 ≤ d.y → ∃ t first second,
      draw d s = .ok first t ∧ draw d t = .ok second s ∧
        (second = true ↔
          ∃ x y, OnScreen width height x y ∧ s.pixel x y = .ok false ∧ t.pixel x y = .ok true) := by
  constructor
  · intro draws others again hd ho ha
    obtain ⟨collisions, hc⟩ := drawAll_eq s hd
    obtain ⟨collisions', hc'⟩ := drawAll_eq s fun d hm => hd d (ho.mem_iff.mpr hm)
    obtain ⟨collisions'', hc''⟩ := drawAll_eq (draws.foldl redrawn s) fun d hm => hd d (ha.mem_iff.mpr hm)
    have hback : again.foldl redrawn (draws.foldl redrawn s) = s := by
      rw [← foldl_redrawn_perm _ (draws.reverse_perm.trans ha)]
      exact foldl_redrawn_reverse s draws
    rw [← foldl_redrawn_perm s ho] at hc'
    rw [hback] at hc''
    exact ⟨_, collisions, collisions', collisions'', hc, hc', hc''⟩
  · intro d hd
    have hsecond := draw_eq (s.redrawn d) hd
    rw [redrawn_self] at hsecond
    refine ⟨s.redrawn d, _, _, draw_eq s hd, hsecond, ?_⟩
    rw [collides_redrawn_iff]
    refine exists_congr fun x => exists_congr fun y => and_congr_right fun h => ?_
    rw [pixel_of_onScreen s h, pixel_of_onScreen _ h, Except.ok.injEq, Except.ok.injEq]

theorem draws_commute_and_cancel_at_edge :
    let s : Screen 4 2 := (blank 4 2).redrawn ⟨0, 0, [0x90]⟩
    let wide : Draw := ⟨2, 0, [0xF0, 0xF0]⟩
    let tall : Draw := ⟨3, 0, [0x80, 0x80, 0x80]⟩
    (∃ t collisions collisions' collisions'', drawAll [wide, tall] s = .ok collisions t ∧
      drawAll [tall, wide] s = .ok collisions' t ∧ drawAll [tall, wide] t = .ok collisions'' s) ∧
    ∃ t first, draw ⟨3, 1, [0x40]⟩ s = .ok first t ∧ draw ⟨3, 1, [0x40]⟩ t = .ok false s := by
  intro s wide tall
  obtain ⟨reordered, repeated⟩ := draws_commute_and_cancel s
  constructor
  · have hd : ∀ d ∈ [wide, tall], 0 ≤ d.x ∧ 0 ≤ d.y := by decide
    exact reordered _ _ _ hd (.swap tall wide []) (.swap tall wide [])
  · obtain ⟨t, first, second, hfirst, hsecond, hiff⟩ := repeated ⟨3, 1, [0x40]⟩ (by decide)
    have ht : t = s := by
      have hc : draw ⟨3, 1, [0x40]⟩ s = .ok false s := rfl
      rw [hc] at hfirst
      cases hfirst
      rfl
    have hs : second = false := by
      rw [Bool.eq_false_iff, ne_eq, hiff, ht]
      rintro ⟨x, y, -, hoff, hon⟩
      rw [hoff] at hon
      cases hon
    exact ⟨t, first, hfirst, hs ▸ hsecond⟩

end Chip8.Screen
