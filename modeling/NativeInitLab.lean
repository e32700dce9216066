import NativeInitLab.Evidence.Completion
import NativeInitLab.Gpt.Census
import NativeInitLab.Gpt.Frame
import NativeInitLab.RootConsole.Backlog
import NativeInitLab.RootConsole.Chunking
import NativeInitLab.RootConsole.ExecBody
import NativeInitLab.RootConsole.Replay
import NativeInitLab.RootConsole.Sender
import NativeInitLab.RootConsole.Truncation
import NativeInitLab.Registry.Exclusive
import NativeInitLab.Attended.Gate
import NativeInitLab.Autoboot.Projection
import NativeInitLab.BootWrite.Candidate
import NativeInitLab.BootWrite.Spread
import NativeInitLab.Cmdproto.Exact
import NativeInitLab.Cmdproto.Forgery
import NativeInitLab.Cmdproto.Retry
import NativeInitLab.F1.Recovery
import NativeInitLab.Handoff.Once
import NativeInitLab.Handoff.Replay
import NativeInitLab.Input.Decoder
import NativeInitLab.Kallsyms.Names
import NativeInitLab.Loader.ProcModules
import NativeInitLab.Ondevice.Verdict
import NativeInitLab.Redaction.HashOnly
import NativeInitLab.Resident.Export
import NativeInitLab.Resident.Views
import NativeInitLab.ReturnSupervisor.Reset
import NativeInitLab.SerialBridge.Faithful
import NativeInitLab.Services.Ownership
import NativeInitLab.Tcpctl.Session
import NativeInitLab.Transition.Listing
