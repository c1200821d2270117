import AmstradCpc.CommandLine.Arguments
import AmstradCpc.CommandLine.Directory
import AmstradCpc.CommandLine.Host
import AmstradCpc.CommandLine.Run
import AmstradCpc.CommandLine.Settings
import AmstradCpc.Config
import AmstradCpc.Crtc
import AmstradCpc.Disk
import AmstradCpc.Disk.Image
import AmstradCpc.Floppy.Command
import AmstradCpc.Floppy.Controller
import AmstradCpc.Floppy.Run
import AmstradCpc.GateArray
import AmstradCpc.GateArray.Palette
import AmstradCpc.GateArray.Pixels
import AmstradCpc.Image.Png
import AmstradCpc.Keyboard
import AmstradCpc.Keyboard.HostKey
import AmstradCpc.Keyboard.Layout
import AmstradCpc.Keyboard.Queue
import AmstradCpc.Machine
import AmstradCpc.Machine.Capture
import AmstradCpc.Machine.Drives
import AmstradCpc.Machine.Frame
import AmstradCpc.Machine.Inspect
import AmstradCpc.Machine.Notice
import AmstradCpc.Machine.Snapshots
import AmstradCpc.Main
import AmstradCpc.Mainboard
import AmstradCpc.Memory
import AmstradCpc.Ppi
import AmstradCpc.Proofs.Disk.Blocks
import AmstradCpc.Proofs.Disk.Extended
import AmstradCpc.Proofs.Disk.Resave
import AmstradCpc.Proofs.Machine.Reachable
import AmstradCpc.Proofs.Machine.Requests
import AmstradCpc.Proofs.Machine.SnapshotRoundTrip
import AmstradCpc.Proofs.Mainboard.Banking
import AmstradCpc.Proofs.Mainboard.Devices
import AmstradCpc.Proofs.Mainboard.Registers
import AmstradCpc.Proofs.Snapshot.Codec
import AmstradCpc.Proofs.Z80.BusMap
import AmstradCpc.Proofs.Z80.Calls
import AmstradCpc.Proofs.Z80.Frame
import AmstradCpc.Psg
import AmstradCpc.Screen.Framebuffer
import AmstradCpc.Screen.Picture
import AmstradCpc.Screen.PixelFormat
import AmstradCpc.Snapshot
import AmstradCpc.Text.Blank
import AmstradCpc.Text.Bytes
import AmstradCpc.Text.Hex
import AmstradCpc.Text.Numeral
import AmstradCpc.Toml
import AmstradCpc.Toml.Document
import AmstradCpc.Toml.Moment
import AmstradCpc.Toml.Text
import AmstradCpc.Value
import AmstradCpc.Word
import AmstradCpc.Z80.Alu
import AmstradCpc.Z80.Bus
import AmstradCpc.Z80.Cpu
import AmstradCpc.Z80.Execute
import AmstradCpc.Z80.Flags
import AmstradCpc.Z80.FlatBus
import AmstradCpc.Z80.Inspect
import AmstradCpc.Z80.Instruction
import AmstradCpc.Z80.Registers
import AmstradCpc.Z80.Step
import AmstradCpc.Z80.System
import AmstradCpc.Z80.Timing
import AmstradCpc.Proofs.Disk.Overwrite
import AmstradCpc.Proofs.Floppy.DataRegister
import AmstradCpc.Proofs.Z80.Periods
import AmstradCpc.Proofs.Floppy.Runs
import AmstradCpc.Proofs.Floppy.WriteRead
import AmstradCpc.Proofs.Floppy.Chip
import AmstradCpc.Proofs.Floppy.Buffers
import AmstradCpc.Proofs.Machine.Scanlines
import AmstradCpc.Proofs.Machine.Frames
import AmstradCpc.Proofs.Screen.Canvas
import AmstradCpc.Proofs.Screen.PixelFormula
import AmstradCpc.Proofs.Screen.Painter
import AmstradCpc.Proofs.Floppy.Changes
import AmstradCpc.Proofs.Floppy.Protection
import AmstradCpc.Proofs.Disk.Reread
import AmstradCpc.Proofs.Floppy.Formatting
import AmstradCpc.Proofs.Z80.Latches
import AmstradCpc.Proofs.Z80.Acceptance
import AmstradCpc.Proofs.Z80.Decimal
import AmstradCpc.Proofs.Z80.PrefixedSteps
import AmstradCpc.Proofs.Z80.BlockCopy
import AmstradCpc.Proofs.Snapshot.Reencoding
import AmstradCpc.Proofs.Machine.BankedMachines
import AmstradCpc.Proofs.Z80.Halting
import AmstradCpc.Proofs.Machine.HaltedMachines
import AmstradCpc.Proofs.Machine.Ranges
import AmstradCpc.Proofs.Machine.OperatedMachines
import AmstradCpc.Proofs.Mainboard.Levels
import AmstradCpc.Proofs.Machine.Forgetting
import AmstradCpc.Proofs.Floppy.FormatResults
import AmstradCpc.Proofs.Floppy.ReadRuns
import AmstradCpc.Proofs.Z80.BlockCopyRuns
import AmstradCpc.Proofs.Z80.RequestLatches
import AmstradCpc.Proofs.Z80.PrefixChains
import AmstradCpc.Proofs.Z80.BlockSearch
import AmstradCpc.Proofs.Z80.BlockTransfers
import AmstradCpc.Proofs.Mainboard.Decoding
import AmstradCpc.Proofs.Z80.IndexedBits
import AmstradCpc.Proofs.Mainboard.WholeMemories
import AmstradCpc.Proofs.Mainboard.Windows
import AmstradCpc.Proofs.Disk.Formatted
import AmstradCpc.Proofs.Floppy.Outcomes
import AmstradCpc.Proofs.Floppy.Replies
import AmstradCpc.Proofs.Floppy.Seeks
import AmstradCpc.Proofs.Disk.EarlyEnd
import AmstradCpc.Proofs.Disk.Updates
import AmstradCpc.Proofs.Disk.Modified
import AmstradCpc.Proofs.Floppy.UnsavedChanges
import AmstradCpc.Proofs.Mainboard.SoundAccess
import AmstradCpc.Proofs.Keyboard.EventOrder
import AmstradCpc.Proofs.Keyboard.Typing
import AmstradCpc.Proofs.Floppy.WriteLengths
import AmstradCpc.Proofs.Floppy.Isolation
import AmstradCpc.Proofs.Floppy.Rotation
import AmstradCpc.Proofs.Machine.InterruptSpacing
import AmstradCpc.Proofs.Screen.ScreenMemory
import AmstradCpc.Proofs.Z80.BinaryChains
import AmstradCpc.Proofs.Z80.RefreshCounts
import AmstradCpc.Proofs.Disk.CheckedReading
import AmstradCpc.Proofs.Disk.CheckedWriting
import AmstradCpc.Proofs.Disk.CheckedPlaces
import AmstradCpc.Proofs.Floppy.DisksInUse
