import V6Emul.Cpu.Decode
import V6Emul.Foundation.I8080
import V6Emul.Cpu.Arithmetic
import V6Emul.Cpu.Control
import V6Emul.Cpu.Refinement
import V6Emul.Cpu.Interrupt
import V6Emul.Cpu.Stores
import V6Emul.Cpu.StoreLog
import V6Emul.Cpu.WriteRecord
import V6Emul.Devices
import V6Emul.Recorder.Model
import V6Emul.Foundation.Ring
import V6Emul.Foundation.Timeline
import V6Emul.Recorder.History
import V6Emul.Recorder.Playback
import V6Emul.Recorder.LiveEdge
import V6Emul.Recorder.FrameNumbers
import V6Emul.Recorder.Safety
import V6Emul.Foundation.Layout
import V6Emul.Recorder.Format
import V6Emul.Recorder.RoundTrip
import V6Emul.Recorder.Reload
import V6Emul.Recorder.Loading
import V6Emul.Recorder.Targets
import V6Emul.MappingCoherence
import V6Emul.Fdc.Model
import V6Emul.Fdc.Transfer
import V6Emul.Fdc.Safety
import V6Emul.Fdc.Dirty
import V6Emul.Fdc.SectorTransfer
import V6Emul.Display.Model
import V6Emul.Hardware.Model
import V6Emul.Display.Slice
import V6Emul.Display.Commit
import V6Emul.Hardware.PortService
import V6Emul.Display.Beam
import V6Emul.Hardware.Lockstep
import V6Emul.Display.Picture
import V6Emul.Display.Columns
import V6Emul.Display.Pixels
import V6Emul.Display.Latency
import V6Emul.Hardware.FrameInterrupt
import V6Emul.Display.Bisimulation
import V6Emul.Cpu.Boundary
import V6Emul.Hardware.Headless
import V6Emul.Hardware.Budget
import V6Emul.Fdc.Watchdog
import V6Emul.Debugger.TraceHistory
import V6Emul.Debugger.Scripts
import V6Emul.Debugger.Overlays
import V6Emul.Debugger.OverlayMirror
import V6Emul.Debugger.Breakpoints
import V6Emul.Debugger.Watchpoints
import V6Emul.Debugger.Collections
import V6Emul.Requests.MemoryRequests
import V6Emul.Requests.FddRequests
import V6Emul.Debugger.MemoryEdits
import V6Emul.Debugger.BreakpointRuns
import V6Emul.Debugger.WatchpointRuns
import V6Emul.Debugger.StepOver
import V6Emul.Emulator.Model
import V6Emul.Emulator.StopRecord
import V6Emul.Emulator.Counters
import V6Emul.Emulator.CallerHistory
import V6Emul.Emulator.Execution
import V6Emul.Emulator.Serving
import V6Emul.Emulator.Pairing
import V6Emul.Emulator.Atomicity
import V6Emul.Debugger.CallerSearch
import V6Emul.Debugger.FilterPages
import V6Emul.Debugger.CodePerf
import V6Emul.Hardware.Keyboard
import V6Emul.Requests.MemString
import V6Emul.Emulator.EditHistory
import V6Emul.Debugger.GlobMatches
import V6Emul.Sound.Audio
import V6Emul.Sound.Timer
import V6Emul.Debugger.TraceLine
import V6Emul.Debugger.Disasm
import V6Emul.Sound.Chips
import V6Emul.Hardware.SameCore
import V6Emul.Hardware.AfterReset
import V6Emul.Hardware.Halt
import V6Emul.Ipc.RawFrame
import V6Emul.Foundation.Utf8
import V6Emul.Ipc.Utf8
import V6Emul.Debugger.RecordIds
import V6Emul.Foundation.Issued
import V6Emul.Display.Border
import V6Emul.Hardware.PaletteCommit
import V6Emul.Display.Frames
import V6Emul.Requests.Settings
import V6Emul.Hardware.Stores
import V6Emul.Emulator.Parked
import V6Emul.Emulator.Protection
import V6Emul.Foundation.Divider
import V6Emul.Foundation.XorLinear
import V6Emul.Foundation.Framing
import V6Emul.Foundation.Interrupts
import V6Emul.Sound.Noise
import V6Emul.Sound.Generators
import V6Emul.Sound.Envelope
import V6Emul.Sound.TimerCounts
import V6Emul.Ipc.Transport
import V6Emul.Display.Screenshot
import V6Emul.Requests.FrameRequests
import V6Emul.Cpu.CoreRuns
import V6Emul.Hardware.DiskIsolation
import V6Emul.Hardware.Board
import V6Emul.Hardware.Replay
import V6Emul.Emulator.Transparency
import V6Emul.Emulator.FrameRuns
import V6Emul.Emulator.TimeTravel
import V6Emul.Emulator.BreakpointStops
