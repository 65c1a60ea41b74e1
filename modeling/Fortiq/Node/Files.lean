/-
Incoming files (`handle_incoming_file_stream` in `fortiq-p2p/src/node.rs`). Each stream has a task of its own, up to
`MAX_PARALLEL_FILES` at a time: the offer is checked, its bytes go to a part file named by the file id while they are
hashed, and a file whose hash is the one offered is renamed and recorded in the ticket. A run interleaves the steps of
all tasks, down to single chunks, with every other section of the engine. SHA-256 and the parser of uuids are external.
-/
import Fortiq.Lib.FileSystem
import Fortiq.Lib.Machine
import Fortiq.Node.Basic

namespace Fortiq

open TicketEngine

/-! ## Offers -/

structure FileEnv extends NodeEnv where
  sha256 : List UInt8 → Vector UInt8 32
  /-- `Uuid::parse_str`. -/
  parseUuid : String → Option (Vector UInt8 16)

structure FileOfferWire where
  ticketId : String
  fileId : String
  filename : String
  fileSize : UInt64
  sha256 : String
  authority : Option OperatorSessionProof

structure FileNode where
  localPeerId : String
  authority : Option AuthorityContext
  filesBaseDir : String

def maxFileSize : UInt64 := 50 * 1024 * 1024

def maxTicketStorage : UInt64 := 500 * 1024 * 1024

def maxParallelFiles : Nat := 2

/-- The byte that refuses a file. -/
inductive FileDenial where
  | denied
  | noTicket
  | ticketClosed
  | tooLarge
deriving DecidableEq, Repr

def FileDenial.byte : FileDenial → UInt8
  | denied => 0x00
  | noTicket => 0x02
  | ticketClosed => 0x03
  | tooLarge => 0x04

/-- The digest as `format!("{:x}")` prints it. -/
def FileEnv.sha256Hex (env : FileEnv) (bytes : List UInt8) : String := hexEncode (env.sha256 bytes).toList

section Offers

variable (env : FileEnv) (node : FileNode)

/-- A file id in its canonical form, 32 hexadecimal digits. -/
def normalizeFileId (fileId : String) : Option String := (env.parseUuid fileId).map fun id => hexEncode id.toList

def isTicketCounterparty (ticket : TicketRecord) (remote : PeerId) : Bool :=
  ticket.clientPeerId = env.peerToString remote || ticket.clientPeerId = node.localPeerId

/-- A file for a ticket of this node needs an operator session that may transfer files. -/
def fileAuthorized (turn : Turn) (remote : PeerId) (offer : FileOfferWire) : Bool :=
  match offer.authority, node.authority with
  | some proof, some authority =>
    verifyOperatorSessionProof env.toNodeEnv turn authority remote proof "file" offer.ticketId offer.fileId 0
      (utf8 (offer.filename ++ ":" ++ toString offer.fileSize.toNat ++ ":" ++ offer.sha256))
      OperatorCapabilities.fileTransfer
  | _, _ => false

/-- The sum of the sizes in a ticket; it wraps, as in a release build. -/
def storedBytes (engine : TicketEngine) (ticketId : String) : UInt64 :=
  ((engine.state.listAttachments ticketId).map AttachmentRecord.sizeBytes).foldl (· + ·) 0

def saturatingAdd (a b : UInt64) : UInt64 := if a.toNat + b.toNat < 2 ^ 64 then a + b else 0xffffffffffffffff

/-- The checks of an offer: the canonical file id, or the refusal. -/
def checkOffer (engine : TicketEngine) (turn : Turn) (remote : PeerId) (offer : FileOfferWire) : Except FileDenial String :=
  match normalizeFileId env offer.fileId with
  | none => .error .denied
  | some fileId =>
    match engine.state.getTicket offer.ticketId with
    | none => .error .noTicket
    | some ticket =>
      if !isTicketCounterparty env node ticket remote then .error .denied
      else if ticket.clientPeerId = node.localPeerId ∧ fileAuthorized env node turn remote offer = false then .error .denied
      else if !ticket.state.permitsWork then .error .ticketClosed
      else if offer.fileSize > maxFileSize then .error .tooLarge
      else if saturatingAdd (storedBytes engine offer.ticketId) offer.fileSize > maxTicketStorage then .error .tooLarge
      else .ok fileId

end Offers

/-! ## Names and paths -/

/-- The components of a path, without empty ones and dots. -/
def pathComponents : (component : List Char) → List Char → List String
  | component, [] => if component = [] ∨ component = ['.'] then [] else [String.ofList component.reverse]
  | component, c :: cs =>
    if c = '/' then
      (if component = [] ∨ component = ['.'] then [] else [String.ofList component.reverse]) ++ pathComponents [] cs
    else pathComponents (c :: component) cs

/-- `Path::file_name`: the last component, if it is a name. -/
def pathFileName (path : String) : Option String :=
  match (pathComponents [] path.toList).getLast? with
  | none => none
  | some name => if name = ".." then none else some name

/-- The name of a file without directories and without the characters file systems reserve. -/
def safeName (filename : String) : String :=
  String.ofList (((pathFileName filename).getD "file.bin").toList.map fun c =>
    if c ∈ "/\\:*?\"<>|".toList then '_' else c)

/-- A file of a ticket: in the directory of the ticket, by its id and what follows it. -/
def filePath (env : FileEnv) (node : FileNode) (ticketId fileId rest : String) : String :=
  node.filesBaseDir ++ "/" ++ env.sha256Hex (utf8 ticketId) ++ "/files/" ++ fileId ++ rest

/-! ## Transfers -/

inductive TransferPhase where
  /-- Accepted; the part file is not there yet. -/
  | accepted
  /-- What has come and been written and hashed, and how much is to come. -/
  | receiving (received : List UInt8) (remaining : Nat)
  /-- The part file is to be removed. -/
  | failed
  /-- The hash is the one that was offered. -/
  | verified (received : List UInt8)
  | renamed (received : List UInt8)
  /-- The engine has refused the record; the file is to be removed. -/
  | refused
deriving DecidableEq, Repr

structure Transfer where
  remotePeer : PeerId
  offer : FileOfferWire
  fileId : String
  phase : TransferPhase

/-- The state the tasks share, and beside it the records they have made. -/
structure FileState where
  engine : TicketEngine
  fs : FileSystem String UInt8
  transfers : List Transfer
  recorded : List AttachmentRecord

inductive FileLabel where
  /-- Another task of the node runs a section of the engine. -/
  | work (a : Action)
  | offer (remote : PeerId) (turn : Turn) (offer : FileOfferWire)
  /-- The directory or the part file cannot be made, or the answer cannot be written. -/
  | abort (i : Nat)
  | create (i : Nat)
  /-- A chunk is read and written; a write may fail after some bytes, and the task learns of it. The file is written in
  the background, so that an error comes out in the next write or in the flush; the last write, whose error would be lost
  with that of the flush, is taken to fail in sight of the task too. -/
  | chunk (i : Nat) (bytes : List UInt8) (failsAfter : Option Nat)
  /-- The stream ends early or stalls. -/
  | streamFails (i : Nat)
  /-- All bytes are there; the hash is compared. -/
  | finish (i : Nat)
  | rename (i : Nat) (fails : Bool)
  /-- The attachment is added to the ticket, and its receipt noted. -/
  | record (i : Nat) (turn : Turn) (uuid : String)
  /-- The file of a failed or refused transfer is removed, or cannot be. -/
  | discard (i : Nat) (fails : Bool)

section Steps

variable (env : FileEnv) (node : FileNode)

def Transfer.partPath (t : Transfer) : String := filePath env node t.offer.ticketId t.fileId ".part"

def Transfer.finalPath (t : Transfer) : String :=
  filePath env node t.offer.ticketId t.fileId ("_" ++ safeName t.offer.filename)

def Transfer.attachment (t : Transfer) (received : List UInt8) (now : UInt64) : AttachmentRecord where
  id := t.fileId
  ticketId := t.offer.ticketId
  senderPeerId := env.peerToString t.remotePeer
  filename := safeName t.offer.filename
  sizeBytes := t.offer.fileSize
  sha256 := env.sha256Hex received
  localPath := t.finalPath env node
  createdAt := now
  state := "STORED"

namespace FileState

def setPhase (s : FileState) (i : Nat) (t : Transfer) (phase : TransferPhase) : FileState :=
  { s with transfers := s.transfers.set i { t with phase } }

def drop (s : FileState) (i : Nat) : FileState := { s with transfers := s.transfers.eraseIdx i }

/-- The record of a stored file: the engine takes it, and its receipt is noted; or it does not. -/
def recordTransfer (s : FileState) (i : Nat) (t : Transfer) (received : List UInt8) (turn : Turn) (uuid : String) :
    FileState :=
  let attachment := t.attachment env node received turn.now
  match (Call.addAttachment turn.disk turn.timestamp attachment).run (exec env.toEnv) s.engine with
  | (.error _, engine) => { s with engine }.setPhase i t .refused
  | (.ok (), engine) =>
    let remote := env.peerToString t.remotePeer
    let note := Call.recordEvent turn.disk uuid turn.timestamp t.offer.ticketId "ATTACHMENT_RECEIVED" remote
      (some ("Fichier reçu de " ++ remote ++ ": " ++ safeName t.offer.filename))
    { s with engine := (note.run (exec env.toEnv) engine).2, recorded := s.recorded ++ [attachment] }.drop i

/-- A step of one transfer. A write that fails ends it; no bytes are lost behind a write that has succeeded, although the
result of the flush is dropped. -/
def stepTransfer (s : FileState) (i : Nat) (t : Transfer) : FileLabel → FileState
  | .abort _ => s.drop i
  | .create _ => { s with fs := s.fs.create (t.partPath env node) }.setPhase i t (.receiving [] t.offer.fileSize.toNat)
  | .chunk _ bytes failsAfter =>
    match t.phase with
    | .receiving received remaining =>
      match failsAfter with
      | none => { s with fs := s.fs.append (t.partPath env node) bytes }.setPhase i t
          (.receiving (received ++ bytes) (remaining - bytes.length))
      | some n => { s with fs := s.fs.append (t.partPath env node) (bytes.take n) }.setPhase i t .failed
    | _ => s
  | .streamFails _ => s.setPhase i t .failed
  | .finish _ =>
    match t.phase with
    | .receiving received _ =>
      s.setPhase i t (if env.sha256Hex received = t.offer.sha256 then .verified received else .failed)
    | _ => s
  | .rename _ fails =>
    match t.phase with
    | .verified received =>
      if fails ∨ s.fs.read (t.partPath env node) = none then s.setPhase i t .failed
      else { s with fs := s.fs.rename (t.partPath env node) (t.finalPath env node) }.setPhase i t (.renamed received)
    | _ => s
  | .record _ turn uuid =>
    match t.phase with
    | .renamed received => s.recordTransfer env node i t received turn uuid
    | _ => s
  | .discard _ fails =>
    let path := if t.phase = .failed then t.partPath env node else t.finalPath env node
    { s with fs := if fails then s.fs else s.fs.remove path }.drop i
  | _ => s

/-- The transfer a step belongs to. -/
def transferOf : FileLabel → Option Nat
  | .work _ | .offer _ _ _ => none
  | .abort i | .create i | .chunk i _ _ | .streamFails i | .finish i | .rename i _ | .record i _ _ | .discard i _ => some i

def step (s : FileState) (l : FileLabel) : FileState :=
  match l with
  | .work a => { s with engine := (exec env.toEnv a s.engine).2 }
  | .offer remote turn offer =>
    match checkOffer env node s.engine turn remote offer with
    | .error _ => s
    | .ok fileId => { s with transfers := s.transfers ++ [⟨remote, offer, fileId, .accepted⟩] }
  | l =>
    match transferOf l with
    | none => s
    | some i =>
      match s.transfers[i]? with
      | none => s
      | some t => s.stepTransfer env node i t l

/-- The phases in which a transfer takes a step. -/
def takes : TransferPhase → FileLabel → Bool
  | .accepted, .abort _ => true
  | .accepted, .create _ => true
  | .receiving _ remaining, .chunk _ bytes _ => 0 < remaining ∧ bytes.length = min remaining 8192
  | .receiving _ remaining, .streamFails _ => 0 < remaining
  | .receiving _ remaining, .finish _ => remaining = 0
  | .verified _, .rename _ _ => true
  | .renamed _, .record _ _ _ => true
  | .failed, .discard _ _ => true
  | .refused, .discard _ _ => true
  | _, _ => false

/-- An offer needs a free slot, and a step of a transfer the transfer in its phase. -/
def enabled (s : FileState) : FileLabel → Bool
  | .work _ => true
  | .offer _ _ _ => s.transfers.length < maxParallelFiles
  | l => (transferOf l).any fun i => s.transfers[i]?.any fun t => takes t.phase l

end FileState

end Steps

/-- The node from its start, on any engine and with any files on disk. -/
def fileMachine (env : FileEnv) (node : FileNode) : Machine FileState FileLabel where
  start := fun s => s.transfers = [] ∧ s.recorded = []
  enabled := fun s l => s.enabled l = true
  step := fun s l => s.step env node l

instance (env : FileEnv) (node : FileNode) (s : FileState) (l : FileLabel) : Decidable ((fileMachine env node).enabled s l) :=
  inferInstanceAs (Decidable (s.enabled l = true))

end Fortiq
