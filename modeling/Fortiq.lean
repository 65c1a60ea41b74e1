import Fortiq.Authority.Genesis
import Fortiq.Authority.Mnemonic
import Fortiq.Authority.Phrase
import Fortiq.Authority.Policy
import Fortiq.Authority.Wordlist
import Fortiq.Codec.Canonical
import Fortiq.Codec.Scan
import Fortiq.Engine.Activity
import Fortiq.Engine.Basic
import Fortiq.Engine.Batch
import Fortiq.Engine.Clock
import Fortiq.Engine.Converge
import Fortiq.Engine.Entries
import Fortiq.Engine.Failure
import Fortiq.Engine.Frontier
import Fortiq.Engine.History
import Fortiq.Engine.Import
import Fortiq.Engine.Reach
import Fortiq.Engine.Recovery
import Fortiq.Engine.Replay
import Fortiq.Engine.Step
import Fortiq.Engine.TicketSync
import Fortiq.Event.Ancestry
import Fortiq.Event.Basic
import Fortiq.Event.Graph
import Fortiq.Event.Invariant
import Fortiq.Event.Order
import Fortiq.Event.Sync
import Fortiq.Event.Table
import Fortiq.Lib.Blocks
import Fortiq.Lib.Cbor
import Fortiq.Lib.CborData
import Fortiq.Lib.CborShortest
import Fortiq.Lib.Checked
import Fortiq.Lib.Chunked
import Fortiq.Lib.Delimit
import Fortiq.Lib.FileSystem
import Fortiq.Lib.FirstWins
import Fortiq.Lib.Framing
import Fortiq.Lib.Grid
import Fortiq.Lib.JsonLine
import Fortiq.Lib.Kahn
import Fortiq.Lib.KeyOrder
import Fortiq.Lib.Machine
import Fortiq.Lib.Occurrences
import Fortiq.Lib.Pipe
import Fortiq.Lib.Prog
import Fortiq.Lib.Replay
import Fortiq.Lib.Slots
import Fortiq.Node.Admission
import Fortiq.Node.Audit
import Fortiq.Node.Basic
import Fortiq.Node.Chat
import Fortiq.Node.Commands
import Fortiq.Node.CompareAndSet
import Fortiq.Node.Delivery
import Fortiq.Node.Exchange
import Fortiq.Node.Files
import Fortiq.Node.Lifecycle
import Fortiq.Node.Once
import Fortiq.Node.Outbox
import Fortiq.Node.Payloads
import Fortiq.Node.Queued
import Fortiq.Node.Quota
import Fortiq.Node.Registry
import Fortiq.Node.Serve
import Fortiq.Node.Sessions
import Fortiq.Node.Shell
import Fortiq.Node.Statement
import Fortiq.Node.Stored
import Fortiq.Node.Transfers
import Fortiq.Node.Undisturbed
import Fortiq.Node.Watcher
import Fortiq.Object.Basic
import Fortiq.Object.Fields
import Fortiq.Reducer.Basic
import Fortiq.Reducer.Effect
import Fortiq.Reducer.Spec
import Fortiq.Service.Chat
import Fortiq.Service.Ipc
import Fortiq.Service.Requests
import Fortiq.Service.Session
import Fortiq.Service.Tickets
import Fortiq.Shell.Frame
import Fortiq.Shell.Handshake
import Fortiq.Shell.Hazards
import Fortiq.Shell.InOrder
import Fortiq.Shell.Pty
import Fortiq.Shell.Served
import Fortiq.Shell.Session
import Fortiq.Store.Disk
import Fortiq.Store.Durable
import Fortiq.Terminal.Motion
import Fortiq.Terminal.Performer
import Fortiq.Terminal.Screen
import Fortiq.Terminal.Shape
import Fortiq.Ticket.Basic
