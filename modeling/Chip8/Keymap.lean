import Chip8.Text.Fields
import Chip8.Text.LetterCase
import Chip8.Text.Numeral

namespace Chip8

/-- No host key occurs twice. -/
structure Keymap where
  entries : List (Int × Fin 16)
deriving DecidableEq

namespace Keymap

inductive Error where
  | wrongCount (count : Nat)
  | notANumber (entry : String)
  | repeated (hostKey : Int)
  | noLowerCase (e : Text.LetterCase.Error)
deriving DecidableEq

def Error.message : Error → String
  | .wrongCount count =>
    "The keymap needs exactly 16 comma-separated numbers, not " ++ toString count
  | .notANumber entry => "Keymap entry '" ++ entry ++ "' is not a decimal number"
  | .repeated hostKey => "Host key " ++ toString hostKey ++ " is mapped more than once"
  | .noLowerCase (.tooWide code) => "Character code " ++ toString code ++ " is too wide"
  | .noLowerCase (.notACharacter code) => toString code ++ " is not a character code"
  | .noLowerCase (.manyCharacters code) =>
    "Character " ++ toString code ++ " has a lower case of several characters"

def key? (k : Keymap) (hostKey : Int) : Option (Fin 16) :=
  (k.entries.find? fun entry => entry.1 == hostKey).map (·.2)

/-- The number of an entry, which may be taken as a character in lower case. -/
def hostKey (lowerCase : Bool) (entry : List Char) : Except Error Int :=
  match Text.Numeral.read? 10 entry with
  | none => .error (.notANumber (String.ofList entry))
  | some n => if lowerCase then (Text.LetterCase.lower n).mapError .noLowerCase else .ok n

def insert (lowerCase : Bool) (k : Keymap) (key : Fin 16) (entry : List Char) :
    Except Error Keymap := do
  let n ← hostKey lowerCase entry
  if (k.key? n).isSome then throw (.repeated n)
  return ⟨k.entries ++ [(n, key)]⟩

/-- The first entry that fails decides the error. -/
def parse (text : String) (lowerCase : Bool) : Except Error Keymap :=
  let entries := Text.Fields.split text.toList
  if entries.length ≠ 16 then .error (.wrongCount entries.length)
  else ((List.finRange 16).zip entries).foldlM (fun k (key, entry) => k.insert lowerCase key entry) ⟨[]⟩

def defaultText : String :=
  "120,49,50,51,113,119,101,97,115,100,122,99,52,114,102,118"

end Keymap

end Chip8
