/-
The requests of the service's local interface (`process_request` in `fortiq-service/src/ipc_server.rs`), each with the
response it comes to, the commands it has the node carry out, and the state it leaves. What the node replies, and
whether it does in time, is decided outside; so is the copy of a staged file into the service's own directory.
-/
import Fortiq.Service.Tickets

namespace Fortiq

/-! ## Requests and what they find -/

inductive IpcRequest where
  | getStatus
  | listPeers
  | listTickets (stateFilter : Option TicketState)
  | getTicket (ticketId : String)
  | createTicket (title description : String) (priority : TicketPriority)
  | updateTicketStatus (ticketId : String) (state : TicketState)
  | sendChatMessage (ticketId body : String)
  | listMessages (ticketId : String)
  | sendFile (ticketId stagedPath : String)
  | listAttachments (ticketId : String)
  | listShellSessions (ticketId : String)
  | unlockOperator (mnemonic : String)
  | lockOperator
  | getOperatorStatus
deriving DecidableEq, Repr

structure ChatMessageWire where
  id : String
  ticketId : String
  body : String
  createdAt : UInt64
  authority : Option OperatorSessionProof

structure ChatAckWire where
  messageId : String
  success : Bool
  error : Option String

inductive P2pCommand where
  | listPeers
  | syncTickets (command : SyncTickets)
  | sendChatMessage (peer : PeerId) (message : ChatMessageWire)
  | sendFile (peer : PeerId) (ticketId filePath : String) (authority : Option (OperatorSessionCertificate × Ed25519Signer))

/-- `tokio::time::timeout` around a reply: it comes, its channel is dropped, or the time is over. -/
inductive Waited (α : Type) where
  | replied (reply : α)
  | dropped
  | timeout

structure IpcEnv extends ServiceEnv where
  version : String
  listenAddresses : List String
  mnemonic : MnemonicEnv
  /-- `to_canonical_cbor` of a certificate, or the text of its error. -/
  certificateToCbor : OperatorSessionCertificate → Except String (List UInt8)

/-- What any one request finds outside. -/
structure RequestTurn extends IpcTurn where
  /-- The id of the note of a sent message. -/
  auditUuid : String
  nonce : Uuid
  sessionId : Uuid
  peers : Waited (List PeerSummary)
  ack : Waited (Except String ChatAckWire)
  /-- `import_staged_upload`: the path of the copy, or the text of its error. -/
  imported : Except String String
  file : Waited (Except String AttachmentRecord)

structure IpcOutcome where
  response : IpcResponse
  commands : List P2pCommand
  state : IpcState

/-! ## Queries of the engine -/

/-- `TicketEngine::get`: the active ticket, or else the first. -/
def TicketEngine.get (engine : TicketEngine) : Option Ticket :=
  match engine.state.getActiveTicket with
  | some active => some ⟨active.id, active.state⟩
  | none => (engine.state.listTickets none).head?.map fun first => ⟨first.id, first.state⟩

/-! ## Requests one by one -/

namespace IpcState

variable (env : IpcEnv) (turn : RequestTurn)

def getStatus (s : IpcState) : IpcOutcome :=
  let (unlocked, operator) := s.operator.isOperatorAuthorizedFor OperatorCapabilities.shellExec turn.now
  let status : DaemonStatus :=
    { product := "FORTIQ", version := env.version, peerId := env.peerToString s.peerId, agentState := "online",
      activeTicket := s.ticketStore.get, listenAddresses := env.listenAddresses, isOperatorUnlocked := unlocked }
  ⟨.status status, [], { s with operator }⟩

def listPeers (s : IpcState) : IpcOutcome :=
  if !s.p2p then ⟨.peers [], [], s⟩
  else if !turn.channelOpen then ⟨.error "P2P subsystem channel closed", [], s⟩
  else
    let response := match turn.peers with
      | .replied peers => .peers peers
      | .dropped => .error "P2P event loop dropped reply channel"
      | .timeout => .error "Timeout waiting for peers from P2P node"
    ⟨response, [.listPeers], s⟩

/-- Where messages and files of a ticket go: to its client, or from the client to its bootstrap peer. -/
def target (s : IpcState) (ticket : TicketRecord) : String :=
  if ticket.clientPeerId = env.peerToString s.peerId then s.bootstrapPeer.getD "" else ticket.clientPeerId

/-- The session for what goes to the client of a ticket; the client itself needs none. -/
def sessionFor (s : IpcState) (ticket : TicketRecord) (required : UInt32) (missing : String) :
    Except String (Option ActiveOperatorSession) :=
  if ticket.clientPeerId = env.peerToString s.peerId then .ok none
  else
    match s.operator.operatorSession with
    | none => .error "Session opérateur inactive"
    | some session => if session.cert.capabilities.has required then .ok (some session) else .error missing

/-- The proof that goes with a message. -/
def chatProof (s : IpcState) (message : ChatMessage) : Option ActiveOperatorSession →
    Except String (Option OperatorSessionProof)
  | none => .ok none
  | some session =>
    let payload := OperatorSessionProof.signingPayload "chat" message.ticketId message.id message.createdAt
      (utf8 message.body) (env.peerToString s.peerId)
    let signature := (session.sessionSigner.signDomain env.crypto objectSigDomain payload).bytes.toList
    match env.certificateToCbor session.cert with
    | .error error => .error ("Certificate serialization failed: " ++ error)
    | .ok certificate => .ok (some ⟨certificate, signature⟩)

/-- The answer for a message, from what its receiver acknowledged; without an answer it counts as sent. -/
def chatResponse (message : ChatMessage) : Waited (Except String ChatAckWire) → IpcResponse
  | .replied (.ok ack) =>
    if ack.success then .messageSent message else .error (ack.error.getD "Erreur du destinataire")
  | .replied (.error error) => .error error
  | _ => .messageSent message

/-- A message that is kept goes to the other side, if there is one and the node runs. -/
def forwardMessage (s : IpcState) (ticket : TicketRecord) (message : ChatMessage) : IpcOutcome :=
  match env.parsePeerId (s.target env ticket) with
  | .error _ => ⟨.messageSent message, [], s⟩
  | .ok peer =>
    if !s.p2p then ⟨.messageSent message, [], s⟩
    else
      match s.sessionFor env ticket OperatorCapabilities.write "Capability WRITE requise" >>= s.chatProof env message with
      | .error text => ⟨.error text, [], s⟩
      | .ok authority =>
        let wire : ChatMessageWire := ⟨message.id, message.ticketId, message.body, message.createdAt, authority⟩
        -- a closed channel drops the command, and with it the place of the reply
        if turn.channelOpen then ⟨chatResponse message turn.ack, [.sendChatMessage peer wire], s⟩
        else ⟨chatResponse message .dropped, [], s⟩

def sendChatMessage (s : IpcState) (ticketId body : String) : IpcOutcome :=
  match s.ticketStore.state.getTicket ticketId with
  | none => ⟨.error "Ticket introuvable", [], s⟩
  | some ticket =>
    if !ticket.state.permitsWork then ⟨.error "Impossible d'envoyer un message : le ticket est fermé", [], s⟩
    else
      let sender := env.peerToString s.peerId
      let message : ChatMessage :=
        { id := "MSG-" ++ turn.uuid, ticketId, senderPeerId := sender, body, createdAt := turn.now,
          deliveryState := "PENDING" }
      match (Call.addChatMessage turn.disk turn.timestamp message).run (TicketEngine.exec env.toEnv) s.ticketStore with
      | (.error e, engine) =>
        ⟨.error ("Échec de persistance du message local: " ++ e.text), [], { s with ticketStore := engine }⟩
      | (.ok (), engine) =>
        let preview := String.ofList (body.toList.take 40)
        let note := Call.recordEvent turn.disk turn.auditUuid turn.timestamp ticketId "CHAT_MESSAGE_SENT" sender (some preview)
        let engine := (note.run (TicketEngine.exec env.toEnv) engine).2
        forwardMessage env turn { s with ticketStore := engine } ticket message

/-- The answer for a file, from what the node reports. -/
def fileResponse : Waited (Except String AttachmentRecord) → IpcResponse
  | .replied (.ok attachment) => .fileSent attachment
  | .replied (.error error) => .error error
  | .dropped => .error "Canal de réponse fichier abandonné"
  | .timeout => .error "Délai d'attente dépassé pour l'envoi du fichier (60s)"

def sendFile (s : IpcState) (ticketId : String) : IpcOutcome :=
  let fail := fun text => (⟨.error text, [], s⟩ : IpcOutcome)
  match s.ticketStore.state.getTicket ticketId with
  | none => fail "Ticket introuvable"
  | some ticket =>
    if !ticket.state.permitsWork then fail "Impossible d'envoyer un fichier : le ticket est fermé"
    else
      match env.parsePeerId (s.target env ticket) with
      | .error error => fail ("PeerId distant invalide: " ++ error)
      | .ok peer =>
        if !s.p2p then fail "Sous-système P2P indisponible"
        else
          match s.sessionFor env ticket OperatorCapabilities.fileTransfer "Capability FILE_TRANSFER requise" with
          | .error text => fail text
          | .ok session =>
            match turn.imported with
            | .error text => fail text
            | .ok filePath =>
              if !turn.channelOpen then fail "Canal de commande P2P fermé"
              else
                let authority := session.map fun session => (session.cert, session.sessionSigner)
                ⟨fileResponse turn.file, [.sendFile peer ticketId filePath authority], s⟩

def unlock (s : IpcState) (mnemonic : String) : IpcOutcome :=
  let operatorEnv : OperatorEnv :=
    { crypto := env.crypto, mnemonic := env.mnemonic, genesis := s.genesis, peerBytes := s.peerId.bytes }
  match unlockOperator operatorEnv s.operator mnemonic turn.now turn.nonce turn.sessionId with
  | (.ok status, operator) => ⟨.operatorStatus status, [], { s with operator }⟩
  | (.error text, operator) => ⟨.error text, [], { s with operator }⟩

def processRequest (s : IpcState) : IpcRequest → IpcOutcome
  | .getStatus => s.getStatus env turn
  | .listPeers => s.listPeers turn
  | .listTickets stateFilter => ⟨.tickets (s.ticketStore.state.listTickets stateFilter), [], s⟩
  | .getTicket ticketId => ⟨.ticketDetail (s.ticketStore.state.getTicketDetail ticketId), [], s⟩
  | .createTicket title description priority =>
    let r := s.createTicket env.toServiceEnv turn.toIpcTurn title description priority
    ⟨r.response, r.commands.map .syncTickets, r.state⟩
  | .updateTicketStatus ticketId state =>
    let r := s.updateTicketStatus env.toServiceEnv turn.toIpcTurn ticketId state
    ⟨r.response, r.commands.map .syncTickets, r.state⟩
  | .sendChatMessage ticketId body => s.sendChatMessage env turn ticketId body
  | .listMessages ticketId => ⟨.messages (s.ticketStore.state.listMessages ticketId), [], s⟩
  | .sendFile ticketId _ => s.sendFile env turn ticketId
  | .listAttachments ticketId => ⟨.attachments (s.ticketStore.state.listAttachments ticketId), [], s⟩
  | .listShellSessions ticketId => ⟨.shellSessions (s.ticketStore.state.listShellSessions ticketId), [], s⟩
  | .unlockOperator mnemonic => s.unlock env turn mnemonic
  | .lockOperator => ⟨.success, [], { s with operator := s.operator.lockOperator }⟩
  | .getOperatorStatus =>
    let (status, operator) := s.operator.getOperatorStatus turn.now
    ⟨.operatorStatus status, [], { s with operator }⟩

end IpcState

/-! ## The service -/

inductive ServiceLabel where
  | request (turn : RequestTurn) (request : IpcRequest)
  /-- Another task runs a section of the engine. -/
  | work (a : Action)
  /-- The timer of a session wakes. -/
  | expire (sessionId : Uuid)

/-- The service from its first start, with requests of any clients in any order. -/
def serviceMachine (env : IpcEnv) : Machine IpcState ServiceLabel where
  start := fun s => (∃ signer policy, s.ticketStore = TicketEngine.fresh signer policy) ∧ s.operator = OperatorState.new
  enabled := fun s l =>
    match l with
    | .expire sessionId => sessionId ∈ s.operator.timers
    | _ => True
  step := fun s l =>
    match l with
    | .request turn request => (s.processRequest env turn request).state
    | .work a => { s with ticketStore := (TicketEngine.exec env.toEnv a s.ticketStore).2 }
    | .expire sessionId => { s with operator := s.operator.expire sessionId }

end Fortiq
