import TheiaTaint.Tags.Directory
import TheiaTaint.Objects.ObjectUuid
import TheiaTaint.Objects.UuidText
import TheiaTaint.Objects.Conversion
import TheiaTaint.Server.Replay
import TheiaTaint.Server.Selection
import TheiaTaint.Database.Overlay
import TheiaTaint.Database.TagMapping
import TheiaTaint.Database.Subgraph
import TheiaTaint.Database.Session
import TheiaTaint.Engine.ZeroExtension
import TheiaTaint.Engine.Provenance
import TheiaTaint.Hooks.SourceBuffer
import TheiaTaint.Engine.DataMovement
import TheiaTaint.Engine.Refinement
import TheiaTaint.Syscalls.SysexitSave
import TheiaTaint.Syscalls.Scatter
import TheiaTaint.Syscalls.Recvmmsg
import TheiaTaint.Syscalls.Mmap
import TheiaTaint.Engine.Exchange
import TheiaTaint.Engine.CompareExchange
import TheiaTaint.Engine.RepeatedStore
import TheiaTaint.Engine.Lea
import TheiaTaint.Engine.Multiply
import TheiaTaint.Engine.Tagmap
import TheiaTaint.Engine.TagmapSetn
import TheiaTaint.Engine.TagmapStore
import TheiaTaint.Engine.SignExtension
import TheiaTaint.Engine.BitScan
import TheiaTaint.Engine.SaveRestore
import TheiaTaint.Foundations.Numbers
import TheiaTaint.Objects.CurrentUuid
import TheiaTaint.Foundations.Logged
import TheiaTaint.Server.QueryStatus
import TheiaTaint.Server.TagWidth
import TheiaTaint.Server.NodeTables
import TheiaTaint.Database.CrossTag
import TheiaTaint.Engine.EndToEnd
import TheiaTaint.Engine.InstructionRules
import TheiaTaint.Engine.Noninterference
import TheiaTaint.Syscalls.Interception
import TheiaTaint.Server.QueryProvenance
import TheiaTaint.Syscalls.Compensation
import TheiaTaint.Server.Checkpoint
