import Jozabad.Lib.Lts
import Jozabad.Lib.Table
import Jozabad.Lib.Probe
import Jozabad.Lib.Window
import Jozabad.Lib.CString
import Jozabad.Lib.Wire
import Jozabad.Lib.Layout
import Jozabad.Lib.Language
import Jozabad.Lib.Framing
import Jozabad.Lib.Incremental
import Jozabad.Lib.Partners
import Jozabad.Lib.Loop
import Jozabad.Lib.Cut
import Jozabad.Lib.Rearrange
import Jozabad.Lib.Brackets
import Jozabad.Lib.Hoare
import Jozabad.Lib.Crc
import Jozabad.Facility
import Jozabad.Memory
import Jozabad.Broker.Msg
import Jozabad.Broker.Action
import Jozabad.Broker.Channel
import Jozabad.Broker.Effect
import Jozabad.Broker.Tables
import Jozabad.Broker.Poll
import Jozabad.Broker.Process
import Jozabad.Broker.Call
import Jozabad.Broker.FlowControl
import Jozabad.Broker.Forwarding
import Jozabad.Broker.LifeCycle
import Jozabad.Broker.Resets
import Jozabad.Broker.Mirror
import Jozabad.Broker.Atomicity
import Jozabad.Broker.Pairing
import Jozabad.Broker.AbortFree
import Jozabad.Broker.Negotiation
import Jozabad.Broker.Registry
import Jozabad.Broker.Codec
import Jozabad.Broker.Directory
import Jozabad.Broker.RoundTrip
import Jozabad.Broker.Acceptance
import Jozabad.Broker.Gating
import Jozabad.Broker.Teardown
import Jozabad.Broker.FreeLcn
import Jozabad.Broker.Disconnect
import Jozabad.Broker.Sweep
import Jozabad.Broker.Shutdown
import Jozabad.Broker.KeepAlive
import Jozabad.Broker.Search
import Jozabad.Broker.Names
import Jozabad.Broker.Phone
import Jozabad.Broker.IndexSort
import Jozabad.Broker.Partition
import Jozabad.Broker.Qisort
import Jozabad.Broker.NameSearch
import Jozabad.Application10.Msg
import Jozabad.Application10.Crc
import Jozabad.Application10.Codec
import Jozabad.Application10.RoundTrip
import Jozabad.Application10.Admission
import Jozabad.Application10.Parsing
import Jozabad.Application10.Grammar
import Jozabad.Application10.Receiver
import Jozabad.Application10.Reassembly
import Jozabad.Application10.Chunking
import Jozabad.Application10.Checksum
import Jozabad.Application10.Damage
import Jozabad.Application10.BufferSafety
import Jozabad.Application10.Channel
import Jozabad.Application10.Client
import Jozabad.Application10.Peers
import Jozabad.Application10.Server
import Jozabad.Application10.ServerEffect
import Jozabad.Application10.Scripts
import Jozabad.Application10.Handlers
import Jozabad.Application10.Registry
import Jozabad.Application10.Tasks
import Jozabad.Application10.Steps
import Jozabad.Application10.Timers
import Jozabad.Application10.Retry
import Jozabad.Application10.Inbox
import Jozabad.Application10.PairStates
import Jozabad.Application10.Agreement
import Jozabad.Application10.PeerSymmetry
import Jozabad.Application10.Delivery
import Jozabad.Application10.Counters
import Jozabad.Application10.Numbers
import Jozabad.Application10.Clearing
import Jozabad.Application10.Reservation
import Jozabad.Application10.Input
import Jozabad.Application10.Registration
import Jozabad.Application10.Cleanup
import Jozabad.Lib.Avoids
import Jozabad.Application10.Assertions
import Jozabad.Application10.FlowControl
import Jozabad.Application10.Acceptance
import Jozabad.Application10.CallSetup
import Jozabad.Application10.Isolation
import Jozabad.Application10.Relay
import Jozabad.Application10.MemorySafety
import Jozabad.Application10.Progress
import Jozabad.Application10.Output
import Jozabad.Application10.Streams
import Jozabad.Lib.Follows
import Jozabad.Application10.Log
import Jozabad.Application10.Refinement
import Jozabad.Application10.HostSafety
import Jozabad.Broker.History
import Jozabad.Broker.Transport
import Jozabad.Broker.Socket
