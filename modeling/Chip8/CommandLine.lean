import Chip8.Argument
import Chip8.Keymap
import Chip8.Plugin
import Chip8.Text.Numeral

namespace Chip8.CommandLine

inductive Exit where
  | help
  | misuse
deriving DecidableEq

def Exit.code : Exit → UInt8
  | .help => 0
  | .misuse => 2

inductive Switch where
  | help
  | clockSpeed
  | fixedRandom
  | debug
  | renderer
  | scale
  | smoothing
  | windowPalette
  | terminalPalette
  | cursorMode
  | keymap
deriving DecidableEq

structure Options where
  filename : String
  clockSpeed : Option (Argument Int) := none
  fixedRandom : Bool := false
  debug : Bool := false
  renderer : Option (Argument String) := none
  scale : Option (Argument Int) := none
  smoothing : Argument Int := .value 0
  windowPalette : Option (Argument String) := none
  terminalPalette : Option (Argument String) := none
  cursorMode : Argument Int := .value 0
  keymap : Argument String := .value Keymap.defaultText
deriving DecidableEq

namespace Switch

def longNames : List (String × Switch) :=
  [("--help", help), ("--clock_speed", clockSpeed), ("--fixed_random", fixedRandom),
   ("--debug", debug), ("--renderer", renderer), ("--scale", scale), ("--smoothing", smoothing),
   ("--pygame_palette", windowPalette), ("--curses_palette", terminalPalette),
   ("--curses_cursor_mode", cursorMode), ("--keymap", keymap)]

def ofLetter? : Char → Option Switch
  | 'h' => some help
  | 'c' => some clockSpeed
  | 'd' => some debug
  | 'r' => some renderer
  | 's' => some scale
  | 'f' => some smoothing
  | 'k' => some keymap
  | _ => none

def takesValue : Switch → Bool
  | help | fixedRandom | debug => false
  | _ => true

end Switch

inductive Word where
  | plain (text : List Char)
  | separator
  /-- A switch, with the text after it in its word if there is any. The text after a letter may hold
  more switches, `joined` to it. -/
  | switch (s : Switch) (joined : Bool) (attached : Option (List Char))
  | unknown
deriving DecidableEq

def splitEquals (cs : List Char) : List Char × Option (List Char) :=
  match cs.dropWhile (· ≠ '=') with
  | [] => (cs, none)
  | _ :: value => (cs.takeWhile (· ≠ '='), some value)

/-- The switches with a long name that a shortened one may stand for. A full name stands for its own
switch only. -/
def candidates (name : List Char) : List Switch :=
  match Switch.longNames.find? fun entry => entry.1.toList == name with
  | some (_, s) => [s]
  | none => (Switch.longNames.filter fun entry => name.isPrefixOf entry.1.toList).map (·.2)

/-- A word of two dashes. Unknown words are plain if they hold a blank. -/
def longWord (cs : List Char) : Except Exit Word :=
  let (name, attached) := splitEquals cs
  match candidates name with
  | [s] => .ok (.switch s false attached)
  | [] => .ok (if cs.contains ' ' then .plain cs else .unknown)
  | _ => .error .misuse

/-- Digits, or digits with a point before the last of them; a line end may follow. -/
def looksNumeric (cs : List Char) : Bool :=
  let cs := if cs.getLast? = some '\n' then cs.dropLast else cs
  let isDigit (c : Char) := (Text.DecimalDigit.value? c).isSome
  match cs.dropWhile isDigit with
  | [] => !cs.isEmpty
  | '.' :: fraction => !fraction.isEmpty && fraction.all isDigit
  | _ => false

/-- A word of one dash. An equals sign right after the first letter is dropped. -/
def shortWord (c : Char) (rest : List Char) : Word :=
  match Switch.ofLetter? c, rest with
  | some s, [] => .switch s true none
  | some s, '=' :: text => .switch s true (some text)
  | some s, text => .switch s true (some text)
  | none, _ =>
    if looksNumeric (c :: rest) ∨ (c :: rest).contains ' ' then .plain ('-' :: c :: rest)
    else .unknown

def word (cs : List Char) : Except Exit Word :=
  match cs with
  | '-' :: '-' :: _ => longWord cs
  | '-' :: c :: rest => .ok (shortWord c rest)
  | _ => .ok (.plain cs)

def words : List String → Except Exit (List Word)
  | [] => .ok []
  | text :: rest =>
    if text = "--" then .ok (.separator :: rest.map fun r => .plain r.toList)
    else do
      let first ← word text.toList
      let rest ← words rest
      return first :: rest

/-- What a word of switches says: some of them stand alone, and the last may take a value. -/
structure Phrase where
  flags : List Switch
  /-- The text of the value is the next word if it is not here. -/
  last : Option (Switch × Option (List Char))
deriving DecidableEq

def bare (s : Switch) : Phrase :=
  if s.takesValue then ⟨[], some (s, none)⟩ else ⟨[s], none⟩

def Phrase.after (s : Switch) (p : Phrase) : Phrase :=
  { p with flags := s :: p.flags }

/-- A switch with text after it in its word. One that takes no value refuses the text, unless that is
more switches. -/
def unpack (joined : Bool) (s : Switch) (text : List Char) : Except Exit Phrase :=
  if s.takesValue then .ok ⟨[], some (s, some text)⟩
  else match text with
    | [] => .error .misuse
    | c :: rest =>
      match joined, Switch.ofLetter? c with
      | true, some next =>
        if rest.isEmpty then .ok ((bare next).after s)
        else (unpack joined next rest).map (.after s)
      | _, _ => .error .misuse

def Phrase.ofSwitch (s : Switch) (joined : Bool) : Option (List Char) → Except Exit Phrase
  | none => .ok (bare s)
  | some text => unpack joined s text

def integer (text : List Char) : Except Exit Int :=
  match Text.Numeral.read? 10 text with
  | some n => .ok n
  | none => .error .misuse

def cursorMode (text : List Char) : Except Exit Int := do
  let mode ← integer text
  if mode = 0 ∨ mode = 1 ∨ mode = 2 then return mode else throw .misuse

def renderer (text : List Char) : Except Exit String :=
  let name := String.ofList text
  if Plugin.all.any fun plugin => plugin.name == name then .ok name else .error .misuse

/-- Two dashes are no value, and nothing is asked of them. -/
def argument {α : Type} (read : List Char → Except Exit α) (text : List Char) :
    Except Exit (Argument α) :=
  if text = ['-', '-'] then .ok .nothing else (read text).map .value

def anyText (text : List Char) : Except Exit String :=
  .ok (String.ofList text)

def Options.assign (o : Options) (s : Switch) (text : List Char) : Except Exit Options :=
  match s with
  | .clockSpeed => return { o with clockSpeed := some (← argument integer text) }
  | .scale => return { o with scale := some (← argument integer text) }
  | .smoothing => return { o with smoothing := ← argument integer text }
  | .windowPalette => return { o with windowPalette := some (← argument anyText text) }
  | .terminalPalette => return { o with terminalPalette := some (← argument anyText text) }
  | .keymap => return { o with keymap := ← argument anyText text }
  | .cursorMode => return { o with cursorMode := ← argument CommandLine.cursorMode text }
  | .renderer => return { o with renderer := some (← argument CommandLine.renderer text) }
  | .help | .fixedRandom | .debug => .ok o

def Options.raise (o : Options) : Switch → Except Exit Options
  | .help => .error .help
  | .fixedRandom => .ok { o with fixedRandom := true }
  | .debug => .ok { o with debug := true }
  | _ => .ok o

def Options.apply (o : Options) (flags : List Switch) (value : Option (Switch × List Char)) :
    Except Exit Options := do
  let o ← flags.foldlM Options.raise o
  match value with
  | none => return o
  | some (s, text) => o.assign s text

structure Progress where
  options : Options
  named : Bool
  extra : Bool
deriving DecidableEq

def Progress.apply (p : Progress) (flags : List Switch) (value : Option (Switch × List Char)) :
    Except Exit Progress :=
  (p.options.apply flags value).map fun options => { p with options }

def Progress.name (p : Progress) (text : List Char) : Progress :=
  if p.named then { p with extra := true }
  else { p with options := { p.options with filename := String.ofList text }, named := true }

/-- The first plain word names the program; a separator beside it is dropped. A separator anywhere else
is left over, as are further plain words. -/
def Progress.consume (p : Progress) : List Word → Except Exit Progress
  | [] => .ok p
  | .plain text :: .separator :: rest => (p.name text).consume rest
  | .separator :: .plain text :: rest => (p.name text).consume rest
  | .plain text :: rest => (p.name text).consume rest
  | .separator :: rest => consume { p with extra := true } rest
  | .unknown :: rest => consume { p with extra := true } rest
  | .switch s joined attached :: rest => do
    let phrase ← Phrase.ofSwitch s joined attached
    match phrase.last, rest with
    | none, rest => (← p.apply phrase.flags none).consume rest
    | some (last, some text), rest => (← p.apply phrase.flags (some (last, text))).consume rest
    | some (last, none), .plain text :: rest =>
      (← p.apply phrase.flags (some (last, text))).consume rest
    | some (_, none), _ => .error .misuse

/-- Long names may be shortened as long as they stay unambiguous, and short switches may be joined. Two dashes end
the options, and in place of a value they stand for none. -/
def parse (arguments : List String) : Except Exit Options := do
  let words ← words arguments
  let p ← Progress.consume ⟨{ filename := "" }, false, false⟩ words
  if p.named ∧ !p.extra then return p.options else throw .misuse

end Chip8.CommandLine
