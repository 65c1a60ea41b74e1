/-
A file on its way from one node to another, both ends at once (`spawn_send_file_stream` and
`handle_incoming_file_stream` in `fortiq-p2p/src/node.rs`). The sender hashes its file, offers it over a stream of its
own, sends the bytes of a second reading and waits for the verdict; the receiver is a transfer of the node it runs on.
Bytes travel in pieces of any size within a window, other tasks work on either engine and on other files, and the file
that is sent may change at any time. That another stream of the same file id comes to the receiver's two paths is the
subject of `Stored`. JSON and CBOR are external.
-/
import Fortiq.Lib.CborData
import Fortiq.Lib.Pipe
import Fortiq.Node.Files

namespace Fortiq

open TicketEngine

/-! ## Offers as they are made -/

structure ExchangeEnv extends FileEnv where
  /-- `serde_json::to_vec` of an offer. -/
  offerToJson : FileOfferWire → List UInt8
  /-- `serde_json::from_slice` of an offer. -/
  offerFromJson : List UInt8 → Option FileOfferWire
  /-- `to_canonical_cbor` of a certificate, or the text of its error. -/
  certificateToCbor : OperatorSessionCertificate → Except String (List UInt8)

/-- `Uuid::to_string`: the digits in groups. -/
def hyphenated (id : Vector UInt8 16) : String :=
  let digits := (hexEncode id.toList).toList
  String.ofList (digits.take 8 ++ '-' :: (digits.drop 8).take 4 ++ '-' :: (digits.drop 12).take 4 ++
    '-' :: (digits.drop 16).take 4 ++ '-' :: digits.drop 20)

/-- An offer that fits its header is read as it was written. -/
def ExchangeEnv.RoundTrips (env : ExchangeEnv) : Prop :=
  ∀ offer, (env.offerToJson offer).length ≤ 65535 → env.offerFromJson (env.offerToJson offer) = some offer

def fileAccept : UInt8 := 0x01

/-- The arguments of the task that sends a file, and the peer it runs on. -/
structure SendArgs where
  peer : PeerId
  ticketId : String
  filePath : String
  session : Option (OperatorSessionCertificate × Ed25519Signer)

section Offers

variable (env : ExchangeEnv) (args : SendArgs)

def SendArgs.fileName : String := (pathFileName args.filePath).getD "file.bin"

/-- The proof that goes with an offer. -/
def offerProof (fileId : String) (size : UInt64) (sha256 : String) : Except String (Option OperatorSessionProof) :=
  match args.session with
  | none => .ok none
  | some (certificate, signer) =>
    let content := args.fileName ++ ":" ++ toString size.toNat ++ ":" ++ sha256
    let payload := OperatorSessionProof.signingPayload "file" args.ticketId fileId 0 (utf8 content) (env.peerToString args.peer)
    let signature := (signer.signDomain env.crypto objectSigDomain payload).bytes.toList
    match env.certificateToCbor certificate with
    | .error error => .error ("Certificate serialization failed: Certificate serialization failed: " ++ error)
    | .ok certificate => .ok (some ⟨certificate, signature⟩)

/-- The offer of a file, from its size and what was read of it. -/
def makeOffer (size : UInt64) (hashed : List UInt8) (id : Vector UInt8 16) : Except String FileOfferWire :=
  let sha256 := env.sha256Hex hashed
  match offerProof env args (hyphenated id) size sha256 with
  | .error error => .error error
  | .ok authority =>
    .ok { ticketId := args.ticketId, fileId := hyphenated id, filename := args.fileName, fileSize := size, sha256, authority }

/-- The bytes of an offer on the stream: its length in two bytes, and its JSON. -/
def offerHeader (offer : FileOfferWire) : List UInt8 :=
  Cbor.bigEndian 2 (env.offerToJson offer).length ++ env.offerToJson offer

/-- What the sender is told of a refusal. -/
def denialText (byte : UInt8) : String :=
  if byte = FileDenial.noTicket.byte then "Aucun ticket correspondant sur le poste distant"
  else if byte = FileDenial.ticketClosed.byte then "Le ticket est fermé"
  else if byte = FileDenial.tooLarge.byte then "Fichier trop volumineux"
  else "Transfert refusé par le poste distant"

/-- The sender's own record. -/
def sentAttachment (offer : FileOfferWire) (now : UInt64) : AttachmentRecord where
  id := offer.fileId
  ticketId := args.ticketId
  senderPeerId := env.peerToString args.peer
  filename := offer.filename
  sizeBytes := offer.fileSize
  sha256 := offer.sha256
  localPath := args.filePath
  createdAt := now
  state := "STORED"

end Offers

/-! ## Both ends -/

inductive SendPhase where
  | starting
  /-- The size the file had, and what has been read and hashed of it. -/
  | hashing (size : UInt64) (hashed : List UInt8)
  | connecting (offer : FileOfferWire)
  /-- What is still to be written of the offer. -/
  | offering (offer : FileOfferWire) (rest : List UInt8)
  | awaiting (offer : FileOfferWire)
  /-- How much has been read of the file again, and what is still to be written of that. -/
  | sending (offer : FileOfferWire) (read : Nat) (rest : List UInt8)
  | confirming (offer : FileOfferWire)
  | recording (offer : FileOfferWire)
  | done (result : Except String AttachmentRecord)

inductive ReceivePhase where
  /-- There is no stream yet. -/
  | waiting
  | readingLength (got : List UInt8)
  | readingOffer (want : Nat) (got : List UInt8)
  /-- The offer is accepted; the sender is to be told. -/
  | accepting
  /-- What has been read of the next chunk. -/
  | transferring (got : List UInt8)
  | replying (byte : UInt8)
  | ended
deriving DecidableEq, Repr

/-- The two nodes and the stream between them. The receiver's transfer is the only one of its `FileState`. -/
structure ExchangeState where
  /-- The file that is sent, as a reading finds it. -/
  file : List UInt8
  sender : SendPhase
  engine : TicketEngine
  receiver : ReceivePhase
  files : FileState
  up : Pipe UInt8
  down : Pipe UInt8

inductive ExchangeLabel where
  /-- The file that is sent is changed. -/
  | edit (content : List UInt8)
  /-- Other tasks run a section of an engine. -/
  | senderWork (a : Action)
  | receiverWork (a : Action)
  /-- Another file of the receiver is changed. -/
  | disturb (path : String) (content : Option (List UInt8))
  | stat
  | hash (n : Nat)
  /-- The end of the file is reached: the offer is made, under a fresh id. -/
  | offer (id : Vector UInt8 16)
  | connect
  | write (n : Nat)
  | response
  | nextChunk
  | flushed
  | confirm
  | recordSent (turn : Turn) (uuid : String)
  /-- A file or the stream fails. -/
  | senderFails (text : String)
  /-- All slots are taken. -/
  | busy
  | pull (n : Nat)
  | checkOffer (turn : Turn)
  /-- The directory of the ticket cannot be made. -/
  | noDirectory
  | accept
  | noPartFile
  /-- A step of the transfer. -/
  | fileStep (l : FileLabel)
  | reply
  /-- The stream fails or stalls. -/
  | receiverFails

namespace ExchangeState

variable (env : ExchangeEnv) (node : FileNode) (args : SendArgs) (window : Nat)

/-- What the receiver waits for: a number of bytes, and those that are there. -/
def want (s : ExchangeState) : Option (Nat × List UInt8) :=
  match s.receiver with
  | .readingLength got => some (2, got)
  | .readingOffer want got => some (want, got)
  | .transferring got =>
    match s.files.transfers with
    | [⟨_, _, _, .receiving _ remaining⟩] => some (min remaining 8192, got)
    | _ => none
  | _ => none

/-- The phase of a reader that has got more. -/
def receiverAfter (s : ExchangeState) (got : List UInt8) : ReceivePhase :=
  match s.receiver with
  | .readingLength _ => if got.length = 2 then .readingOffer (Cbor.beValue got) [] else .readingLength got
  | .readingOffer want _ => .readingOffer want got
  | .transferring _ => .transferring got
  | phase => phase

/-- The offer is read: it does not parse, is refused, or is accepted. -/
def checkOffer (s : ExchangeState) (turn : Turn) (json : List UInt8) : ExchangeState :=
  match env.offerFromJson json with
  | none => { s with receiver := .ended }
  | some offer =>
    match Fortiq.checkOffer env.toFileEnv node s.files.engine turn args.peer offer with
    | .error denial => { s with receiver := .replying denial.byte }
    | .ok _ => { s with receiver := .accepting, files := s.files.step env.toFileEnv node (.offer args.peer turn offer) }

/-- The phase after a step of the transfer. -/
def receiverAfterFile (files : FileState) (got : List UInt8) : FileLabel → ReceivePhase
  | .chunk _ _ _ => .transferring []
  | .record _ _ _ => if files.transfers.isEmpty then .replying fileAccept else .transferring got
  | .discard _ _ => .replying FileDenial.denied.byte
  | _ => .transferring got

/-- The record of a file that was sent, and its note. -/
def recordSent (s : ExchangeState) (offer : FileOfferWire) (turn : Turn) (uuid : String) : ExchangeState :=
  let attachment := sentAttachment env args offer turn.now
  match (Call.addAttachment turn.disk turn.timestamp attachment).run (exec env.toEnv) s.engine with
  | (.error e, engine) =>
    { s with engine, sender := .done (.error ("Échec de persistance de la pièce jointe locale: " ++ e.text)) }
  | (.ok (), engine) =>
    let note := Call.recordEvent turn.disk uuid turn.timestamp args.ticketId "ATTACHMENT_SENT" (env.peerToString args.peer)
      (some ("Fichier envoyé: " ++ attachment.filename))
    { s with engine := (note.run (exec env.toEnv) engine).2, sender := .done (.ok attachment) }

/-- A step of the sender. -/
def stepSender (s : ExchangeState) : ExchangeLabel → ExchangeState
  | .stat =>
    let size := s.file.length.toUInt64
    if size > maxFileSize then
      { s with sender := .done (.error ("Le fichier dépasse la taille maximale (50 Mo): " ++ toString size.toNat ++ " octets")) }
    else { s with sender := .hashing size [] }
  | .hash n =>
    match s.sender with
    | .hashing size hashed =>
      { s with sender := .hashing size (hashed ++ (s.file.drop hashed.length).take n) }
    | _ => s
  | .offer id =>
    match s.sender with
    | .hashing size hashed =>
      match makeOffer env args size hashed id with
      | .error error => { s with sender := .done (.error error) }
      | .ok offer => { s with sender := .connecting offer }
    | _ => s
  | .connect =>
    match s.sender with
    | .connecting offer =>
      if (env.offerToJson offer).length ≤ 65535 then
        { s with sender := .offering offer (offerHeader env offer), receiver := .readingLength [] }
      else { s with sender := .done (.error "Header de fichier trop grand"), receiver := .readingLength [] }
    | _ => s
  | .write n =>
    match s.sender with
    | .offering offer rest =>
      let sender := if rest.drop n = [] then .awaiting offer else .offering offer (rest.drop n)
      { s with up := s.up.push (rest.take n), sender }
    | .sending offer read rest => { s with up := s.up.push (rest.take n), sender := .sending offer read (rest.drop n) }
    | _ => s
  | .response =>
    match s.sender with
    | .awaiting offer =>
      let byte := (s.down.next 1).headD 0
      let sender := if byte ≠ fileAccept then .done (.error (denialText byte)) else .sending offer 0 []
      { s with down := s.down.pull 1, sender }
    | _ => s
  | .nextChunk =>
    match s.sender with
    | .sending offer read _ =>
      let toRead := min (offer.fileSize.toNat - read) 8192
      { s with sender := .sending offer (read + toRead) ((s.file.drop read).take toRead) }
    | _ => s
  | .flushed =>
    match s.sender with
    | .sending offer _ _ => { s with sender := .confirming offer }
    | _ => s
  | .confirm =>
    match s.sender with
    | .confirming offer =>
      let byte := (s.down.next 1).headD 0
      let sender := if byte ≠ fileAccept then
          .done (.error "Échec de vérification du fichier par le destinataire (SHA-256 invalide)")
        else .recording offer
      { s with down := s.down.pull 1, sender }
    | _ => s
  | .recordSent turn uuid =>
    match s.sender with
    | .recording offer => s.recordSent env args offer turn uuid
    | _ => s
  | .senderFails text => { s with sender := .done (.error text) }
  | _ => s

/-- A step of the receiver. -/
def stepReceiver (s : ExchangeState) : ExchangeLabel → ExchangeState
  | .busy => { s with receiver := .replying FileDenial.denied.byte }
  | .pull n =>
    match s.want with
    | some (_, got) => { s with up := s.up.pull n, receiver := s.receiverAfter (got ++ s.up.next n) }
    | none => s
  | .checkOffer turn =>
    match s.receiver with
    | .readingOffer _ got => s.checkOffer env node args turn got
    | _ => s
  | .noDirectory =>
    { s with receiver := .replying FileDenial.denied.byte, files := s.files.step env.toFileEnv node (.abort 0) }
  | .accept => { s with receiver := .transferring [], down := s.down.push [fileAccept] }
  | .noPartFile => { s with receiver := .ended, files := s.files.step env.toFileEnv node (.abort 0) }
  | .fileStep l =>
    match s.receiver with
    | .transferring got =>
      let files := s.files.step env.toFileEnv node l
      { s with files, receiver := receiverAfterFile files got l }
    | _ => s
  | .reply =>
    match s.receiver with
    | .replying byte => { s with receiver := .ended, down := s.down.push [byte] }
    | _ => s
  | .receiverFails =>
    match s.receiver with
    | .accepting => { s with receiver := .ended, files := s.files.step env.toFileEnv node (.abort 0) }
    | _ => { s with receiver := .ended }
  | _ => s

/-- A step of either end, or of what goes on beside them. -/
def step (s : ExchangeState) : ExchangeLabel → ExchangeState
  | .edit content => { s with file := content }
  | .senderWork a => { s with engine := (exec env.toEnv a s.engine).2 }
  | .receiverWork a => { s with files := { s.files with engine := (exec env.toEnv a s.files.engine).2 } }
  | .disturb path content => { s with files := { s.files with fs := ⟨Function.update s.files.fs.read path content⟩ } }
  | .stat => s.stepSender env args .stat
  | .hash n => s.stepSender env args (.hash n)
  | .offer id => s.stepSender env args (.offer id)
  | .connect => s.stepSender env args .connect
  | .write n => s.stepSender env args (.write n)
  | .response => s.stepSender env args .response
  | .nextChunk => s.stepSender env args .nextChunk
  | .flushed => s.stepSender env args .flushed
  | .confirm => s.stepSender env args .confirm
  | .recordSent turn uuid => s.stepSender env args (.recordSent turn uuid)
  | .senderFails text => s.stepSender env args (.senderFails text)
  | l => s.stepReceiver env node args l

/-- The sender takes a step: there is more to read, room for what it writes, or an answer. -/
def senderTakes (s : ExchangeState) : ExchangeLabel → SendPhase → Bool
  | .stat, .starting => s.file.length < 2 ^ 64
  | .hash n, .hashing _ hashed => 0 < n ∧ n ≤ 8192 ∧ hashed.length < s.file.length
  | .offer _, .hashing _ hashed => s.file.length ≤ hashed.length
  | .connect, .connecting _ => s.receiver = .waiting
  | .write n, .offering _ rest => 0 < n ∧ n ≤ rest.length ∧ s.up.Room window n
  | .write n, .sending _ _ rest => 0 < n ∧ n ≤ rest.length ∧ s.up.Room window n
  | .response, .awaiting _ => 0 < s.down.waiting.length
  | .nextChunk, .sending offer read rest =>
    rest = [] ∧ read < offer.fileSize.toNat ∧ read + min (offer.fileSize.toNat - read) 8192 ≤ s.file.length
  | .flushed, .sending offer read rest => rest = [] ∧ read = offer.fileSize.toNat
  | .confirm, .confirming _ => 0 < s.down.waiting.length
  | .recordSent _ _, .recording _ => true
  | .senderFails _, .done _ => false
  | .senderFails _, _ => true
  | _, _ => false

/-- A step of the transfer that the receiver takes: a chunk is what has come of it. -/
def fileTakes (s : ExchangeState) (got : List UInt8) : FileLabel → Bool
  | .chunk i bytes failsAfter => bytes = got ∧ s.files.enabled (.chunk i bytes failsAfter)
  | .work _ | .offer _ _ _ | .abort _ => false
  | l => s.files.enabled l

/-- The receiver takes a step. -/
def receiverTakes (s : ExchangeState) : ExchangeLabel → ReceivePhase → Bool
  | .busy, .readingLength [] => true
  | .pull n, _ => s.want.any fun (want, got) => 0 < n ∧ got.length + n ≤ want ∧ n ≤ s.up.waiting.length
  | .checkOffer _, .readingOffer want got => got.length = want
  | .noDirectory, .accepting => true
  | .accept, .accepting => s.down.Room window 1
  | .noPartFile, .transferring _ => s.files.transfers.any fun t => t.phase = .accepted
  | .fileStep l, .transferring got => s.fileTakes got l
  | .reply, .replying _ => s.down.Room window 1
  | .receiverFails, .readingLength _ => true
  | .receiverFails, .readingOffer _ _ => true
  | .receiverFails, .accepting => true
  | .receiverFails, .replying _ => true
  | _, _ => false

/-- The files the receiver writes, and has written. -/
def paths (s : ExchangeState) : List String :=
  s.files.transfers.flatMap (fun t => [t.partPath env.toFileEnv node, t.finalPath env.toFileEnv node]) ++
    s.files.recorded.map AttachmentRecord.localPath

def enabled (s : ExchangeState) : ExchangeLabel → Bool
  | .edit _ | .senderWork _ | .receiverWork _ => true
  | .disturb path _ => path ∉ s.paths env node
  | l => s.senderTakes window l s.sender || s.receiverTakes window l s.receiver

end ExchangeState

/-- Both ends from the start, on any engines and with any files. -/
def exchangeMachine (env : ExchangeEnv) (node : FileNode) (args : SendArgs) (window : Nat) :
    Machine ExchangeState ExchangeLabel where
  start := fun s => s.sender = .starting ∧ s.receiver = .waiting ∧ s.files.transfers = [] ∧ s.files.recorded = [] ∧
    s.up = Pipe.empty ∧ s.down = Pipe.empty
  enabled := fun s l => s.enabled env node window l = true
  step := fun s l => s.step env node args l

instance (env : ExchangeEnv) (node : FileNode) (args : SendArgs) (window : Nat) (s : ExchangeState) (l : ExchangeLabel) :
    Decidable ((exchangeMachine env node args window).enabled s l) :=
  inferInstanceAs (Decidable (s.enabled env node window l = true))

end Fortiq
