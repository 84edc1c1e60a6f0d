import Chip8.App
import Chip8.CallStack
import Chip8.CommandLine.Grammar
import Chip8.CommandLine.Run
import Chip8.Core
import Chip8.Core.Messages
import Chip8.Debug.Filter
import Chip8.Debug.Log
import Chip8.Debug.Message
import Chip8.Debug.Template
import Chip8.Debug.Value
import Chip8.Decimal.Binary64
import Chip8.Decimal.Fixed
import Chip8.Decimal.Rounding
import Chip8.Decimal.Shortest
import Chip8.Fault
import Chip8.FileTree
import Chip8.Frame
import Chip8.Image
import Chip8.Instruction
import Chip8.Instruction.Assembly
import Chip8.Keypad
import Chip8.Keypad.Layout
import Chip8.Keypad.Listeners
import Chip8.Machine
import Chip8.Memory
import Chip8.Number
import Chip8.Pacer
import Chip8.Palette
import Chip8.Rom
import Chip8.Screen
import Chip8.Storage
import Chip8.Text.Blank
import Chip8.Text.CaseTable
import Chip8.Text.CharSet
import Chip8.Text.Lowercase
import Chip8.Text.Printable
import Chip8.Text.Quoted
import Chip8.Text.Radix
import Chip8.Text.WholeNumber
import Chip8.Timers
import Chip8.Trace
import Chip8.Twister
import Chip8.Update
import Chip8.Window
import Chip8.Main
import Chip8.Proofs.Atomic
import Chip8.Proofs.Run
import Chip8.Proofs.Halt
import Chip8.Proofs.Lifecycle
import Chip8.Proofs.Programmed
import Chip8.Proofs.Ranges
import Chip8.Proofs.Demand
import Chip8.Proofs.FaultCondition
import Chip8.Proofs.KeyWait
import Chip8.Proofs.Execution
import Chip8.Proofs.Spelling
import Chip8.Proofs.WriteSet
import Chip8.Proofs.CallReturn
import Chip8.Proofs.Sprite
import Chip8.Proofs.ProgramCounter
import Chip8.Proofs.Replies
import Chip8.Proofs.Devices
import Chip8.Proofs.Reset
import Chip8.Proofs.Loading
import Chip8.Proofs.Doubles
import Chip8.Proofs.Accuracy
import Chip8.Proofs.Quotients
import Chip8.Proofs.Pacing
import Chip8.Proofs.Revision
import Chip8.Proofs.Controls
import Chip8.Proofs.Passes
import Chip8.Proofs.Display
import Chip8.Proofs.Frames
import Chip8.Proofs.Disassembly
import Chip8.Proofs.Assembler
import Chip8.Proofs.Dispatch
import Chip8.Proofs.Representation
import Chip8.Proofs.History
import Chip8.Proofs.Observation
import Chip8.Proofs.Endings
import Chip8.Proofs.Serving
import Chip8.Proofs.ByteMap
import Chip8.Proofs.Flags
import Chip8.Proofs.Spill
import Chip8.Proofs.NoNumbers
import Chip8.Proofs.Poisoning
import Chip8.Proofs.Parity
import Chip8.Proofs.Rendering
import Chip8.Proofs.BoundedLog
import Chip8.Proofs.BoundedStack
import Chip8.Proofs.KeyEvents
import Chip8.Proofs.KeyDowns
import Chip8.Proofs.RandomBytes
import Chip8.Proofs.Directives
import Chip8.Proofs.Showing
import Chip8.Proofs.Wording
import Chip8.Proofs.Logging
import Chip8.Proofs.SmallLetters
import Chip8.Proofs.Categories
