import Chip8.Text.Fields
import Chip8.Text.Numeral

namespace Chip8.Palette

inductive Error where
  | tooMany
  | tooLong (entry : String) (digits : Int)
  | notANumber (entry : String) (base : Int)
deriving DecidableEq

def Error.message : Error → String
  | .tooMany => "Only a background and foreground colour can be defined."
  | .tooLong entry digits =>
    "Palette colour '" ++ entry ++ "' is longer than " ++ toString digits ++ " digits."
  | .notANumber entry base =>
    "Palette colour '" ++ entry ++ "' is not a base " ++ toString base ++ " number."

/-- An empty entry keeps the default. The length is judged before the number. -/
def colour (digits base default : Int) (entry : List Char) : Except Error Int :=
  if entry = [] then .ok default
  else if digits < entry.length then .error (.tooLong (String.ofList entry) digits)
  else match Text.Numeral.read? base entry with
    | some n => .ok n
    | none => .error (.notANumber (String.ofList entry) base)

def override (digits base : Int) : List Int → List (List Char) → Except Error (List Int)
  | defaults, [] => .ok defaults
  | [], _ :: _ => .error .tooMany
  | default :: defaults, entry :: entries => do
    let first ← colour digits base default entry
    let rest ← override digits base defaults entries
    return first :: rest

/-- Too many entries are refused before any of them is read. -/
def parse (text : Option String) (defaults : List Int) (digits base : Int) :
    Except Error (List Int) :=
  match text with
  | none => .ok defaults
  | some text =>
    let entries := Text.Fields.split text.toList
    if defaults.length < entries.length then .error .tooMany
    else override digits base defaults entries

def parsePair (text : Option String) (background foreground digits base : Int) :
    Except Error (Int × Int) :=
  (parse text [background, foreground] digits base).map fun colours =>
    (colours.getD 0 background, colours.getD 1 foreground)

end Chip8.Palette
