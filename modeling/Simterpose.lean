import Simterpose.Lib.Run
import Simterpose.Lib.Heap
import Simterpose.Lib.Except
import Simterpose.State
import Simterpose.Ports
import Simterpose.Sockets
import Simterpose.Communication
import Simterpose.Descriptors
import Simterpose.Handlers
import Simterpose.Messages
import Simterpose.Network
import Simterpose.Effects
import Simterpose.Links
import Simterpose.Ownership
import Simterpose.Ledger
import Simterpose.Lib.Tally
import Simterpose.PortUse
import Simterpose.Bindings
import Simterpose.Pairing
import Simterpose.References
import Simterpose.RefCounts
import Simterpose.LastClose
import Simterpose.Handshake
import Simterpose.Dispatch
import Simterpose.Phase
import Simterpose.Streams
import Simterpose.Agreement
import Simterpose.Delivery
import Simterpose.Activations
import Simterpose.Connecting
import Simterpose.Routing
import Simterpose.Tables
import Simterpose.Reuse
import Simterpose.Teardown
import Simterpose.Death
import Simterpose.Settled
import Simterpose.Release
import Simterpose.Owners
import Simterpose.Remains
import Simterpose.Overwrites
import Simterpose.Pending
import Simterpose.Mirror
import Simterpose.Clone
import Simterpose.Tags
import Simterpose.Pipes
import Simterpose.Ends
import Simterpose.DescCounts
import Simterpose.PipeMail
import Simterpose.Hosts
import Simterpose.Ptrace
import Simterpose.Buffers
import Simterpose.Vectors
import Simterpose.Translation
import Simterpose.RealPorts
import Simterpose.Builds
import Simterpose.Lib.Loop
import Simterpose.Ephemeral
import Simterpose.Locks
import Simterpose.Flags
import Simterpose.Offsets
import Simterpose.Registers
import Simterpose.BindPorts
import Simterpose.Taskstats
import Simterpose.Replies
import Simterpose.RemoteCopies
import Simterpose.NetlinkSend
import Simterpose.RemoteStrings
import Simterpose.EndLoops
import Simterpose.PortCounts
import Simterpose.Lib.Text
import Simterpose.ProcNet
import Simterpose.Lib.Rendezvous
import Simterpose.Rendezvous
import Simterpose.Polling
import Simterpose.Mediation
import Simterpose.Lib.Rounding
import Simterpose.Clock
import Simterpose.Exec
import Simterpose.Lib.Masks
import Simterpose.FlagText
import Simterpose.RealData
import Simterpose.Family
