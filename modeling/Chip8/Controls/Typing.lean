import Chip8.Controls
import Chip8.Keymap

namespace Chip8

inductive Typed where
  | key (key : Fin 16)
  | quit
deriving DecidableEq

/-- A terminal tells of characters typed and not of keys let go. A reader puts the mapped keys of characters into a
queue; polling empties it and holds each key found for a short while. -/
structure Typing where
  keymap : Keymap
  queue : List Typed
  /-- The times up to which the keys count as held, in seconds. -/
  heldUntil : Vector Float 16
  /-- The reader has been asked to end. -/
  stopped : Bool

namespace Typing

def holdTime : Float := 0.2

def quitCodes : List Int :=
  [27, 3]

def queueSize : Nat := 16

def start (keymap : Keymap) : Typing :=
  ⟨keymap, [], Vector.replicate 16 0, false⟩

def enqueue (t : Typing) (entry : Typed) : Typing :=
  { t with queue := t.queue ++ [entry] }

/-- One number from the terminal; negative ones mean that nothing was typed. Tells whether the reader
ends. Keys that find the queue full are lost. -/
def readCode (t : Typing) (code : Int) : Except Text.LetterCase.Error (Bool × Typing) :=
  if code < 0 then .ok (false, t)
  else (Text.LetterCase.lower code).map fun lower =>
    if quitCodes.contains lower then (true, t.enqueue .quit)
    else match t.keymap.key? lower with
      | some key => (false, if t.queue.length < queueSize then t.enqueue (.key key) else t)
      | none => (false, t)

inductive Reading where
  /-- The reader ended, leaving these numbers unread. -/
  | ended (unread : List Int)
  | waiting
  | failed (e : Text.LetterCase.Error)
deriving DecidableEq

/-- The reader looks whether it has been asked to end before it reads. -/
def read (t : Typing) : List Int → Reading × Typing
  | [] => (if t.stopped then .ended [] else .waiting, t)
  | code :: rest =>
    if t.stopped then (.ended (code :: rest), t)
    else match t.readCode code with
      | .error e => (.failed e, t)
      | .ok (true, t) => (.ended rest, t)
      | .ok (false, t) => t.read rest

def drain (release : Float) : List Typed → Vector Float 16 → Bool × List Typed × Vector Float 16
  | [], held => (false, [], held)
  | .quit :: queue, held => (true, queue, held)
  | .key key :: queue, held => drain release queue (held.set key.val release key.isLt)

def poll (now : Float) (t : Typing) : Bool × Typing :=
  let (stop, queue, heldUntil) := drain (now + holdTime) t.queue t.heldUntil
  (stop, { t with queue, heldUntil })

def keys (now : Float) (t : Typing) : KeyStates :=
  t.heldUntil.map fun limit => decide (now < limit)

/-- The reader notices on its next character. -/
def shutdown (t : Typing) : Typing :=
  { t with stopped := true }

end Typing

end Chip8
