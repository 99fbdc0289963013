import Chip8.Text.Blank
import Chip8.Text.DecimalDigit

namespace Chip8.Text.Numeral

/-- The most digits of a numeral, except in bases that are powers of two. -/
def maxDigits : Nat := 4300

def letterValue? (c : Char) : Option Nat :=
  if 'a' ≤ c ∧ c ≤ 'z' then some (c.toNat - 'a'.toNat + 10)
  else if 'A' ≤ c ∧ c ≤ 'Z' then some (c.toNat - 'A'.toNat + 10)
  else none

def digit? (base : Nat) (c : Char) : Option Nat :=
  let value := if '0' ≤ c ∧ c ≤ '9' then some (c.toNat - '0'.toNat) else letterValue? c
  value.filter (· < base)

/-- The values of the digits, of which there is at least one. An underscore stands between two. -/
def digits? (base : Nat) : List Char → Option (List Nat)
  | [] => none
  | [c] => (digit? base c).map ([·])
  | c :: '_' :: rest => do
    let d ← digit? base c
    let ds ← digits? base rest
    return d :: ds
  | c :: rest => do
    let d ← digit? base c
    let ds ← digits? base rest
    return d :: ds

def ofDigits (base : Nat) (ds : List Nat) : Nat :=
  ds.foldl (fun n d => base * n + d) 0

def powerOfTwo (base : Nat) : Bool :=
  base == 2 || base == 4 || base == 8 || base == 16 || base == 32

def unsigned? (base : Nat) (cs : List Char) : Option Nat := do
  let ds ← digits? base cs
  if powerOfTwo base ∨ ds.length ≤ maxDigits then return ofDigits base ds else none

def markedBase? (c : Char) : Option Nat :=
  if c = 'x' ∨ c = 'X' then some 16
  else if c = 'o' ∨ c = 'O' then some 8
  else if c = 'b' ∨ c = 'B' then some 2
  else none

/-- One underscore may follow a marker. -/
def afterMarker : List Char → List Char
  | '_' :: rest => rest
  | rest => rest

def unmarked (base : Nat) (cs : List Char) : List Char :=
  match cs with
  | '0' :: c :: rest => if markedBase? c = some base then afterMarker rest else cs
  | _ => cs

/-- A numeral that names its own base: decimal without a marker, and then without leading zeros,
except in zero itself. -/
def selfMarked? (cs : List Char) : Option Nat :=
  match cs with
  | '0' :: c :: rest =>
    match markedBase? c with
    | some base => unsigned? base (afterMarker rest)
    | none => (unsigned? 10 cs).filter (· = 0)
  | _ => unsigned? 10 cs

/-- Base 0 stands for numerals that name their own base. -/
def magnitude? (base : Int) (cs : List Char) : Option Nat :=
  if base = 0 then selfMarked? cs
  else if 2 ≤ base ∧ base ≤ 36 then unsigned? base.toNat (unmarked base.toNat cs)
  else none

def signed? (base : Int) (cs : List Char) : Option Int :=
  match cs with
  | '-' :: rest => (magnitude? base rest).map fun n => -(n : Int)
  | '+' :: rest => (magnitude? base rest).map Int.ofNat
  | _ => (magnitude? base cs).map Int.ofNat

/-- Digits of other scripts count in every place, also in a marker. -/
def read? (base : Int) (cs : List Char) : Option Int :=
  signed? base ((Blank.strip cs).map DecimalDigit.toAscii)

end Chip8.Text.Numeral
