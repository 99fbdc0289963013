import Chip8.Memory

namespace Chip8

/-- The cells are kept row after row. -/
structure Screen (width height : Nat) where
  cells : Vector Bool (width * height)
deriving DecidableEq

namespace Screen

inductive Error where
  | emptyDisplay
  | unfit (e : Size.Error)
  | offDisplay (x y : Int) (width height : Nat)
deriving DecidableEq

def Error.message : Error → String
  | .emptyDisplay => "Display dimensions must be positive"
  | .unfit e => e.message
  | .offDisplay x y width height =>
    "Pixel (" ++ toString x ++ ", " ++ toString y ++ ") is off the " ++ toString width ++ "x" ++
      toString height ++ " display"

variable {width height : Nat}

def blank (width height : Nat) : Screen width height :=
  ⟨Vector.replicate (width * height) false⟩

/-- A screen has at least one cell, and no more of them than there is room for. -/
def ofSize (room width height : Int) : Except Error (Screen width.toNat height.toNat) :=
  if width ≤ 0 ∨ height ≤ 0 then .error .emptyDisplay
  else match Size.error? room (width * height) with
    | some e => .error (.unfit e)
    | none => .ok (blank _ _)

def clear (_ : Screen width height) : Screen width height :=
  blank width height

/-- The cell's place in the array. It is meaningful inside the screen only: a negative column falls
into an earlier row. -/
def address (width : Nat) (x y : Int) : Int :=
  y * width + x

theorem inRange_address {x y : Int} (hx : 0 ≤ x ∧ x < width) (hy : 0 ≤ y ∧ y < height) :
    Memory.InRange (width * height) (address width x y) 1 := by
  have h : (y + 1) * (width : Int) ≤ height * width :=
    Int.mul_le_mul_of_nonneg_right (by omega) (by omega)
  have h0 : 0 ≤ y * (width : Int) := Int.mul_nonneg hy.1 (by omega)
  rw [Int.add_mul, Int.one_mul, Int.mul_comm (height : Int)] at h
  unfold Memory.InRange address
  push_cast
  omega

inductive Flip where
  | clipped
  | switchedOn
  | switchedOff
deriving DecidableEq

/-- Cells past the right and bottom edges are clipped; of all others the array checks the place. -/
def flip (s : Screen width height) (x y : Int) :
    Except Memory.OutOfRange (Flip × Screen width height) :=
  if width ≤ x ∨ height ≤ y then .ok (.clipped, s)
  else if h : Memory.InRange (width * height) (address width x y) 1 then
    let a := (address width x y).toNat
    have ha : a < width * height := h.toNat_lt
    .ok (if s.cells[a] then .switchedOff else .switchedOn, ⟨s.cells.set a (!s.cells[a])⟩)
  else .error ⟨address width x y, 1, width * height⟩

def columns (byte : UInt8) : List Nat :=
  (List.range 8).filter fun x => byte.toNat.testBit (7 - x)

def spriteCells (x y : Int) : List UInt8 → List (Int × Int)
  | [] => []
  | byte :: rest => (columns byte).map (fun c : Nat => (x + c, y)) ++ spriteCells x (y + 1) rest

/-- Switches cells over in turn and tells whether one of them was lit. A cell that the array refuses
ends the drawing; the cells before it stay switched. -/
def flipAll : List (Int × Int) → Bool → EStateM Memory.OutOfRange (Screen width height) Bool
  | [], collided => pure collided
  | (x, y) :: rest, collided => do
    match (← get).flip x y with
    | .error e => throw e
    | .ok (outcome, s) =>
      set s
      flipAll rest (collided || outcome = .switchedOff)

/-- Each byte is one row of eight cells. Drawing goes on after a collision. -/
def drawSprite (x y : Int) (sprite : List UInt8) :
    EStateM Memory.OutOfRange (Screen width height) Bool :=
  flipAll (spriteCells x y sprite) false

def pixel (s : Screen width height) (x y : Int) : Except Error Bool :=
  if h : (0 ≤ x ∧ x < width) ∧ 0 ≤ y ∧ y < height then
    .ok (s.cells.get ⟨(address width x y).toNat, (inRange_address h.1 h.2).toNat_lt⟩)
  else .error (.offDisplay x y width height)

end Screen

end Chip8
