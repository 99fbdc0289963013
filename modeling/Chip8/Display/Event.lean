namespace Chip8.Display

inductive Event where
  | resolution (width height : Int)
  | pixel (x y : Int) (lit : Bool)
  /-- The pixels of a frame are complete; `changed` tells whether there were any. -/
  | refresh (changed : Bool)
  | title (text : String)
deriving DecidableEq

structure Status where
  scale : Int
  title : String
  width : Int
  height : Int
deriving DecidableEq

def Status.initial (scale : Int) : Status :=
  ⟨scale, "", 0, 0⟩

end Chip8.Display
