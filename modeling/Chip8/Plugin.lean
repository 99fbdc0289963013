namespace Chip8

inductive Plugin where
  | window
  | terminal
  | blank
deriving DecidableEq

namespace Plugin

def name : Plugin → String
  | window => "pygame"
  | terminal => "curses"
  | blank => "null"

def all : List Plugin :=
  [window, terminal, blank]

def libraryTitle? : Plugin → Option String
  | window => some "PyGame"
  | terminal => some "Curses (or Windows-Curses)"
  | blank => none

inductive Error where
  | noneInstalled
  | unknown (name : String)
  | notInstalled (title : String)
deriving DecidableEq

def Error.message : Error → String
  | .noneInstalled => "Neither PyGame nor Curses (or Windows-Curses) appear to be installed."
  | .unknown name => "Unknown renderer '" ++ name ++ "'."
  | .notInstalled title => title ++ " does not appear to be installed."

/-- Without a name the window is tried first and the terminal next. -/
def select (installed : Plugin → Bool) : Option String → Except Error Plugin
  | none =>
    if installed window then .ok window
    else if installed terminal then .ok terminal
    else .error .noneInstalled
  | some name =>
    match all.find? (·.name == name) with
    | none => .error (.unknown name)
    | some plugin =>
      match plugin.libraryTitle? with
      | none => .ok plugin
      | some title => if installed plugin then .ok plugin else .error (.notInstalled title)

end Plugin

end Chip8
