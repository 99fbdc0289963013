import Chip8.Main
import Chip8.Proofs.Instruction.Arithmetic
import Chip8.Proofs.Instruction.Assembly
import Chip8.Proofs.Instruction.Blocks
import Chip8.Proofs.Instruction.Draw
import Chip8.Proofs.Instruction.Written
import Chip8.Proofs.Cycle.Bounds
import Chip8.Proofs.Cycle.Calls
import Chip8.Proofs.Cycle.Crash
import Chip8.Proofs.Cycle.Glyphs
import Chip8.Proofs.Cycle.Hidden
import Chip8.Proofs.Cycle.KeysRead
import Chip8.Proofs.Cycle.Live
import Chip8.Proofs.Cycle.Reads
import Chip8.Proofs.Cycle.Timers
import Chip8.Proofs.Cycle.Waiting
import Chip8.Proofs.Machine.Dump
import Chip8.Proofs.Machine.Load
import Chip8.Proofs.Memory.Block
import Chip8.Proofs.Memory.History
import Chip8.Proofs.Host.Hostless
import Chip8.Proofs.Host.Rates
import Chip8.Proofs.Screen.Edge
import Chip8.Proofs.Screen.Redraw
import Chip8.Proofs.Screen.Shown
import Chip8.Proofs.Palette.Parse
import Chip8.Proofs.Display.Colours
import Chip8.Proofs.Display.Current
import Chip8.Proofs.Display.Defaults
import Chip8.Proofs.Display.Inside
import Chip8.Proofs.Display.Pad
import Chip8.Proofs.Display.Stable
import Chip8.Proofs.Controls.Held
import Chip8.Proofs.Controls.Queue
import Chip8.Proofs.Keypad.History
import Chip8.Proofs.Keymap.LowerCase
import Chip8.Proofs.Keymap.Parse
import Chip8.Proofs.Startup.Closing
