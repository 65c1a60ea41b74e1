/-
The queue of requests for peers (`SyncTickets`, `SendFile`, `ConnectionEstablished` and `OutgoingConnectionError` in the
event loop of `fortiq-p2p/src/node.rs`, the responses in `handle_ticket_v2`, and the outbox of
`fortiq-core/src/engine.rs`). A request that changes tickets is written to a file before it is sent; the id of the file
goes with the request through the maps of what waits for a connection and what waits for a response, and at each
connection every file for the peer is sent again. Files to be sent are queued in the same directory, and their tasks
remove what they have delivered. JSON is external, and the disk does not fail.
-/
import Fortiq.Lib.KeyOrder
import Fortiq.Lib.Machine
import Fortiq.Node.Basic

namespace Fortiq

open KeyOrder

/-! ## Records -/

structure OutboxRecord where
  id : String
  peerId : String
  kind : String
  payload : String
  createdAt : UInt64
deriving DecidableEq, Repr

structure FileSendOutboxPayload where
  ticketId : String
  filePath : String
deriving DecidableEq, Repr

/-- `serde_json` at what the queue holds, and `PeerId::to_string`. -/
structure OutboxEnv where
  peerToString : PeerId → String
  requestToJson : TicketSyncRequest → Except String String
  requestFromJson : String → Option TicketSyncRequest
  fileToJson : FileSendOutboxPayload → Except String String
  fileFromJson : String → Option FileSendOutboxPayload
  recordToJson : OutboxRecord → Except String (List UInt8)
  recordFromJson : List UInt8 → Option OutboxRecord

/-- What was encoded is decoded. -/
structure OutboxEnv.RoundTrips (env : OutboxEnv) : Prop where
  request : ∀ {request text}, env.requestToJson request = .ok text → env.requestFromJson text = some request
  file : ∀ {file text}, env.fileToJson file = .ok text → env.fileFromJson text = some file
  record : ∀ {record bytes}, env.recordToJson record = .ok bytes → env.recordFromJson bytes = some record

def ticketSync : String := "TICKET_SYNC"

def fileSend : String := "FILE_SEND"

def isTicketMutation : TicketSyncRequest → Bool
  | .pushTicket _ | .updateStatusSigned _ | .pushObjects _ => true
  | _ => false

/-! ## The queue in the event loop -/

/-- A request that waits for a connection. -/
structure PendingSyncDial where
  peer : PeerId
  request : TicketSyncRequest
  outboxId : Option String

/-- A file that waits for a connection. -/
structure PendingFileDial where
  peer : PeerId
  outboxId : Option String

structure SentRequest where
  requestId : OutboundRequestId
  peer : PeerId
  request : TicketSyncRequest
  outboxId : Option String

/-- The files `<id>.json` of the outbox and the maps of the event loop; and beside them what has been queued, what was
sent, which responses came, and what the waiting tasks were told. -/
structure OutboxState where
  outbox : Std.ExtTreeMap String (List UInt8)
  pendingSyncTickets : Std.ExtTreeMap OutboundRequestId PendingTicketSync
  pendingSyncDials : List PendingSyncDial
  pendingFileDials : List PendingFileDial
  fileTasks : List (Option String)
  nextRequestId : OutboundRequestId
  enqueued : List OutboxRecord
  sent : List SentRequest
  answered : List (OutboundRequestId × TicketSyncResponse)
  replies : List (Except String TicketSyncResponse)

/-- An order in which the files of a directory, with their names, are listed. -/
abbrev Listing := List (String × List UInt8) → List (String × List UInt8)

inductive OutboxLabel where
  /-- A command; whether the peer is connected is up to the swarm. -/
  | syncTickets (peer : PeerId) (request : TicketSyncRequest) (uuid : String) (now : UInt64) (connected : Bool)
  | sendFile (peer : PeerId) (file : FileSendOutboxPayload) (uuid : String) (now : UInt64) (connected : Bool)
  /-- The directory is listed twice, each time in an order of its own. -/
  | connectionEstablished (peer : PeerId) (order order' : Listing)
  | outgoingConnectionError (peer : Option PeerId) (connected : Bool) (error : String)
  | response (requestId : OutboundRequestId) (response : TicketSyncResponse)
  | outboundFailure (requestId : OutboundRequestId) (error : String)
  /-- A task that sends a file ends. -/
  | fileEnds (i : Nat) (delivered : Bool)

namespace OutboxState

/-! ### The outbox -/

/-- The file of the record is removed. The loop drops the result of `remove_outbox`; that the removal fails and the record
stays is not modelled. -/
def removeOutbox (s : OutboxState) (outboxId : String) : OutboxState := { s with outbox := s.outbox.erase outboxId }

section

variable (env : OutboxEnv)

/-- The record is written aside and renamed; its id is a fresh uuid. -/
def enqueueOutbox (s : OutboxState) (uuid : String) (now : UInt64) (peerId kind payload : String) :
    Except String (String × OutboxState) :=
  let record : OutboxRecord := { id := uuid, peerId, kind, payload, createdAt := now }
  (env.recordToJson record).map fun bytes =>
    (uuid, { s with outbox := s.outbox.insert uuid bytes, enqueued := s.enqueued ++ [record] })

/-- The records for a peer, by age; a file that does not decode is passed over. -/
def listOutboxForPeer (s : OutboxState) (order : Listing) (peerId : String) : List OutboxRecord :=
  let records := (order s.outbox.toList).filterMap fun file => env.recordFromJson file.2
  keySort (fun record => record.createdAt.toNat) (records.filter fun record => record.peerId = peerId)

/-! ### Commands and events -/

/-- The request goes out under the next id, and the loop waits for its response. -/
def sendRequest (s : OutboxState) (peer : PeerId) (request : TicketSyncRequest) (outboxId : Option String) : OutboxState :=
  { s with
    nextRequestId := s.nextRequestId + 1
    pendingSyncTickets := s.pendingSyncTickets.insert s.nextRequestId ⟨outboxId⟩
    sent := s.sent ++ [⟨s.nextRequestId, peer, request, outboxId⟩] }

def dispatch (s : OutboxState) (peer : PeerId) (request : TicketSyncRequest) (outboxId : Option String) (connected : Bool) :
    OutboxState :=
  if connected then s.sendRequest peer request outboxId
  else { s with pendingSyncDials := s.pendingSyncDials ++ [⟨peer, request, outboxId⟩] }

def syncTickets (s : OutboxState) (peer : PeerId) (request : TicketSyncRequest) (uuid : String) (now : UInt64)
    (connected : Bool) : OutboxState :=
  if isTicketMutation request then
    match (env.requestToJson request).bind (s.enqueueOutbox env uuid now (env.peerToString peer) ticketSync) with
    | .error error => { s with replies := s.replies ++ [.error ("Échec de persistance de la synchronisation: " ++ error)] }
    | .ok (id, s') => s'.dispatch peer request (some id) connected
  else s.dispatch peer request none connected

def sendFile (s : OutboxState) (peer : PeerId) (file : FileSendOutboxPayload) (uuid : String) (now : UInt64)
    (connected : Bool) : OutboxState :=
  match (env.fileToJson file).bind (s.enqueueOutbox env uuid now (env.peerToString peer) fileSend) with
  | .error _ => s
  | .ok (id, s') =>
    if connected then { s' with fileTasks := s'.fileTasks ++ [some id] }
    else { s' with pendingFileDials := s'.pendingFileDials ++ [⟨peer, some id⟩] }

/-- What waited for the peer is sent. -/
def sendDials (s : OutboxState) (peer : PeerId) : OutboxState :=
  (s.pendingSyncDials.filter fun dial => dial.peer = peer).foldl
    (fun s dial => s.sendRequest peer dial.request dial.outboxId)
    { s with pendingSyncDials := s.pendingSyncDials.filter fun dial => dial.peer ≠ peer }

/-- A queued request is sent again; one that does not decode is dropped. -/
def resend (peer : PeerId) (s : OutboxState) (record : OutboxRecord) : OutboxState :=
  match env.requestFromJson record.payload with
  | some request => s.sendRequest peer request (some record.id)
  | none => s.removeOutbox record.id

def startFileDials (s : OutboxState) (peer : PeerId) : OutboxState :=
  { s with
    fileTasks := s.fileTasks ++ (s.pendingFileDials.filter fun dial => dial.peer = peer).map PendingFileDial.outboxId
    pendingFileDials := s.pendingFileDials.filter fun dial => dial.peer ≠ peer }

/-- A queued file is sent again; one that does not decode is dropped. -/
def restartFile (s : OutboxState) (record : OutboxRecord) : OutboxState :=
  match env.fileFromJson record.payload with
  | some _ => { s with fileTasks := s.fileTasks ++ [some record.id] }
  | none => s.removeOutbox record.id

/-- What the loop does for requests when a peer is connected. -/
def resendAll (s : OutboxState) (peer : PeerId) (order : Listing) : OutboxState :=
  ((s.listOutboxForPeer env order (env.peerToString peer)).filter fun record => record.kind = ticketSync).foldl
    (resend env peer) s

/-- What it does for files; those that waited for the connection are not started twice. -/
def restartFiles (s : OutboxState) (peer : PeerId) (order : Listing) : OutboxState :=
  let active := (s.pendingFileDials.filter fun dial => dial.peer = peer).filterMap PendingFileDial.outboxId
  let s := s.startFileDials peer
  ((s.listOutboxForPeer env order (env.peerToString peer)).filter fun record =>
    record.kind = fileSend ∧ record.id ∉ active).foldl (restartFile env) s

def connectionEstablished (s : OutboxState) (peer : PeerId) (order order' : Listing) : OutboxState :=
  ((s.sendDials peer).resendAll env peer order).restartFiles env peer order'

end

/-- What waits for a peer that cannot be reached is given up; its files stay. -/
def outgoingConnectionError (s : OutboxState) (peer : PeerId) (error : String) : OutboxState :=
  let failed := s.pendingSyncDials.filter fun dial => dial.peer = peer
  { s with
    pendingSyncDials := s.pendingSyncDials.filter fun dial => dial.peer ≠ peer
    pendingFileDials := s.pendingFileDials.filter fun dial => dial.peer ≠ peer
    replies := s.replies ++
      failed.map fun _ => .error ("Impossible d'établir la connexion avec le poste distant: " ++ error) }

/-- A response to a request the loop waits for; a terminal one ends its record. -/
def receive (s : OutboxState) (requestId : OutboundRequestId) (response : TicketSyncResponse) : OutboxState :=
  let s := { s with answered := s.answered ++ [(requestId, response)] }
  match s.pendingSyncTickets.get? requestId with
  | none => s
  | some pending =>
    let s := { s with
      pendingSyncTickets := s.pendingSyncTickets.erase requestId
      replies := s.replies ++ [.ok response] }
    match response.terminal, pending.outboxId with
    | true, some outboxId => s.removeOutbox outboxId
    | _, _ => s

def outboundFailure (s : OutboxState) (requestId : OutboundRequestId) (error : String) : OutboxState :=
  match s.pendingSyncTickets.get? requestId with
  | none => s
  | some _ =>
    { s with
      pendingSyncTickets := s.pendingSyncTickets.erase requestId
      replies := s.replies ++ [.error ("Échec de la requête ticket sync: " ++ error)] }

/-- The task of a file ends; a file that was delivered is one whose record has been removed. -/
def fileEnds (s : OutboxState) (i : Nat) (delivered : Bool) : OutboxState :=
  match s.fileTasks[i]? with
  | none => s
  | some outboxId =>
    let s := { s with fileTasks := s.fileTasks.eraseIdx i }
    match delivered, outboxId with
    | true, some outboxId => s.removeOutbox outboxId
    | _, _ => s

def step (env : OutboxEnv) (s : OutboxState) : OutboxLabel → OutboxState
  | .syncTickets peer request uuid now connected => s.syncTickets env peer request uuid now connected
  | .sendFile peer file uuid now connected => s.sendFile env peer file uuid now connected
  | .connectionEstablished peer order order' => s.connectionEstablished env peer order order'
  | .outgoingConnectionError none _ _ => s
  | .outgoingConnectionError (some peer) connected error =>
    if connected then s else s.outgoingConnectionError peer error
  | .response requestId response => s.receive requestId response
  | .outboundFailure requestId error => s.outboundFailure requestId error
  | .fileEnds i delivered => s.fileEnds i delivered

/-- Uuids are fresh, and a listing of a directory has each of its files. -/
def Enabled (s : OutboxState) : OutboxLabel → Prop
  | .syncTickets _ _ uuid _ _ | .sendFile _ _ uuid _ _ => uuid ∉ s.enqueued.map OutboxRecord.id
  | .connectionEstablished _ order order' => (∀ files, (order files).Perm files) ∧ ∀ files, (order' files).Perm files
  | _ => True

/-- The record is in its file. -/
def OnDisk (env : OutboxEnv) (s : OutboxState) (record : OutboxRecord) : Prop :=
  ∃ bytes, env.recordToJson record = .ok bytes ∧ s.outbox[record.id]? = some bytes

/-- The payload of a record is a request that changes tickets, or a file. -/
def Proper (env : OutboxEnv) (record : OutboxRecord) : Prop :=
  (record.kind = ticketSync ∧ ∃ request, isTicketMutation request = true ∧ env.requestToJson request = .ok record.payload) ∨
  (record.kind = fileSend ∧ ∃ file, env.fileToJson file = .ok record.payload)

end OutboxState

/-- The event loop from its start, on an outbox as earlier runs have left it. -/
def outboxMachine (env : OutboxEnv) : Machine OutboxState OutboxLabel where
  start := fun s => s.pendingSyncTickets = Std.ExtTreeMap.empty ∧ s.pendingSyncDials = [] ∧ s.pendingFileDials = [] ∧
    s.fileTasks = [] ∧ s.sent = [] ∧ s.answered = [] ∧ (s.enqueued.map OutboxRecord.id).Nodup ∧
    (∀ record ∈ s.enqueued, s.OnDisk env record ∧ OutboxState.Proper env record) ∧
    ∀ id bytes, s.outbox[id]? = some bytes → ∃ record ∈ s.enqueued, record.id = id ∧ env.recordToJson record = .ok bytes
  enabled := fun s l => s.Enabled l
  step := fun s l => s.step env l

end Fortiq
