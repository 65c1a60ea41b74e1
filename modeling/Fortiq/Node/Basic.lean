/-
The ticket protocol of a node (`fortiq-p2p/src/node.rs`): its messages, the checks of operator authority, and
`handle_ticket_v2`, which answers requests and takes in the responses to requests the node has sent. What a
message does to the engine is a program over the engine's sections that cannot fail. libp2p and the CBOR codec
are external: a `NodeEnv` gives their functions.
-/
import Fortiq.Engine.Basic

namespace Fortiq

/-! ## The outside of a node -/

/-- A libp2p peer id, by its bytes. -/
structure PeerId where
  bytes : List UInt8
deriving DecidableEq, Repr

structure NodeEnv extends Env where
  /-- `PeerId::to_string`. -/
  peerToString : PeerId → String
  /-- `from_canonical_cbor` at certificates, with the control limits. -/
  certificateFromCbor : List UInt8 → Option OperatorSessionCertificate

/-- What one message finds outside the node: the clock in seconds, when its certificate is checked and when the
engine stamps an event; and which file operations fail. -/
structure Turn where
  now : UInt64
  timestamp : UInt64
  disk : Disk
  read : ObjectId → Option String
  removeFails : Bool

/-! ## Messages -/

/-- The operator's signed request for a lifecycle change. -/
structure TicketStateMutation where
  networkId : NetworkId
  ticketId : String
  expectedRevision : UInt64
  newState : TicketState
  requestId : Vector UInt8 16
  operatorTransportPeerId : String
  certificate : OperatorSessionCertificate
  signature : List UInt8

/-- A string of bytes after its length. -/
def lengthPrefixed (bytes : List UInt8) : List UInt8 := beBytes32 bytes.length.toUInt32 ++ bytes

namespace TicketStateMutation

def signatureDomain : String := "FORTIQ-TICKET-STATE-v1:"

def signingPayload (m : TicketStateMutation) : List UInt8 :=
  utf8 signatureDomain ++ m.networkId.bytes.toList ++ lengthPrefixed (utf8 m.ticketId) ++ beBytes m.expectedRevision ++
    [m.newState.code] ++ m.requestId.toList ++ lengthPrefixed (utf8 m.operatorTransportPeerId)

end TicketStateMutation

structure OperatorSessionProof where
  certificate : List UInt8
  signature : List UInt8

namespace OperatorSessionProof

def signatureDomain : String := "FORTIQ-SESSION-AUTH-v1:"

def signingPayload (operation ticketId requestId : String) (createdAt : UInt64) (content : List UInt8)
    (transportPeerId : String) : List UInt8 :=
  utf8 signatureDomain ++
    [utf8 operation, utf8 ticketId, utf8 requestId, content, utf8 transportPeerId].flatMap lengthPrefixed ++
    beBytes createdAt

end OperatorSessionProof

inductive TicketSyncRequest where
  | getTickets (authority : Option OperatorSessionProof)
  | getTicket (ticketId : String) (authority : Option OperatorSessionProof)
  | pushTicket (ticket : TicketRecord)
  | updateStatusSigned (mutation : TicketStateMutation)
  | getHeads (networkId : NetworkId) (ticketId : Option String)
  | getObjects (ids : List ObjectId)
  | pushObjects (objects : List SignedObject)

inductive MutationRejectionKind where
  | permanent
  | conflict
deriving DecidableEq, Repr

inductive TicketSyncResponse where
  | tickets (tickets : List TicketRecord)
  | ticket (ticket : Option TicketRecord)
  | mutationApplied (ticket : TicketRecord)
  | mutationRejected (kind : MutationRejectionKind) (message : String) (canonical : Option TicketRecord)
  | heads (heads : List ObjectId)
  | objects (objects : List SignedObject)
  | syncAck (accepted rejected : Nat)
deriving DecidableEq, Repr

namespace TicketSyncResponse

/-- The responses after which a queued request is done with. -/
def terminal : TicketSyncResponse → Bool
  | mutationApplied _ => true
  | mutationRejected _ _ _ => true
  | syncAck _ _ => true
  | _ => false

end TicketSyncResponse

abbrev OutboundRequestId := Nat

/-- The events of the request-response behaviour. -/
inductive TicketProtocolEvent where
  | request (peer : PeerId) (request : TicketSyncRequest)
  | response (peer : PeerId) (requestId : OutboundRequestId) (response : TicketSyncResponse)
  | outboundFailure (requestId : OutboundRequestId) (error : String)
  | other

/-! ## Operator authority -/

/-- What the pinned Genesis says of the network and its owner. -/
structure AuthorityContext where
  networkId : NetworkId
  ownerId : OwnerId
  ownerVerifier : PublicKey

namespace AuthorityContext

def fromGenesis (crypto : Crypto) (genesis : Genesis) : Result AuthorityContext := do
  let ownerVerifier ← Result.context "invalid Genesis owner public key"
    (verifierOf crypto genesis.tbs.ownerRootSigningPublicKey)
  return { networkId := genesis.tbs.networkId, ownerId := genesis.tbs.ownerId, ownerVerifier }

/-- The authority of a node: that of the Genesis it has read, if the record verifies. -/
def ofGenesisFile (crypto : Crypto) (genesis : Option Genesis) : Option AuthorityContext :=
  (genesis.filter fun genesis => (genesis.verify crypto).isOk).bind fun genesis => (fromGenesis crypto genesis).toOption

/-- The certificate is for this network, owner and transport peer, has the capability, and the owner signed it. -/
def verifyCertificate (crypto : Crypto) (ctx : AuthorityContext) (remotePeer : PeerId)
    (certificate : OperatorSessionCertificate) (requiredCapability : UInt32) (now : UInt64) : Bool :=
  let expectedHost : EntityId := ⟨crypto.blake3 remotePeer.bytes⟩
  certificate.networkId = ctx.networkId && certificate.ownerId = ctx.ownerId &&
    certificate.hostEntity = expectedHost &&
    certificate.operatorKeyId = certificate.sessionPubkey.deriveId crypto &&
    certificate.capabilities.has requiredCapability &&
    (certificate.verify crypto ctx.ownerVerifier now).isOk

end AuthorityContext

def verifyOperatorSessionProof (net : NodeEnv) (turn : Turn) (authority : AuthorityContext) (remotePeer : PeerId)
    (proof : OperatorSessionProof) (operation ticketId requestId : String) (createdAt : UInt64) (content : List UInt8)
    (requiredCapability : UInt32) : Bool :=
  match net.certificateFromCbor proof.certificate with
  | none => false
  | some certificate =>
    if !authority.verifyCertificate net.crypto remotePeer certificate requiredCapability turn.now then false
    else
      match verifierOf net.crypto certificate.sessionPubkey with
      | .error _ => false
      | .ok sessionVerifier =>
        (verifyBytes net.crypto sessionVerifier
          (OperatorSessionProof.signingPayload operation ticketId requestId createdAt content
            (net.peerToString remotePeer)) proof.signature).isOk

/-! ## Requests -/

/-- A program over the engine's sections that cannot fail. -/
abbrev Handler := Prog Action Action.Ret Empty

section Requests

variable (net : NodeEnv) (turn : Turn) (localPeerId : String) (authority : Option AuthorityContext)
  (policy : AuthorityPolicy) (peer : PeerId)

/-- The peer shows an operator session that may read what it names. -/
def canRead (proof : Option OperatorSessionProof) (subject : String) : Bool :=
  match authority, proof with
  | some context, some proof =>
    verifyOperatorSessionProof net turn context peer proof "ticket-read" subject subject 0 [] OperatorCapabilities.read
  | _, _ => false

/-- The tickets of the peer itself, and with an operator session those of the node. -/
def mayRead (canRead : Bool) (ticket : TicketRecord) : Bool :=
  ticket.clientPeerId = net.peerToString peer || (ticket.clientPeerId = localPeerId && canRead)

/-- `get_ticket(..).ok().flatten()`. -/
def lookupTicket (ticketId : String) : Handler (Option TicketRecord) := do
  let r ← (Call.getTicket ticketId).attempt
  return r.toOption.join

/-- A peer may publish its own new ticket, open and at its first revision. -/
def mayPublish (ticket : TicketRecord) (existing : Option TicketRecord) : Bool :=
  ticket.clientPeerId = net.peerToString peer && ticket.state = .«open» && ticket.revision = 1 && ticket.closedAt.isNone &&
    existing.isNone

def pushTicket (ticket : TicketRecord) : Handler TicketSyncResponse := do
  let existing ← lookupTicket ticket.id
  if !mayPublish net peer ticket existing then
    return .mutationRejected .permanent "PeerId non autorisé à publier ce ticket" none
  else do
    let r ← (Call.importCanonicalTicket turn.disk ticket).attempt
    match r with
    | .ok () => return .mutationApplied ticket
    | .error error => do
      let canonical ← lookupTicket ticket.id
      return .mutationRejected .conflict ("Erreur: " ++ error.text) canonical

/-- The checks of a signed lifecycle change: network, transport peer, certificate, session signature, and the
ticket as the operator saw it. -/
def lifecycleAuthorized (mutation : TicketStateMutation) (ticket : TicketRecord) : Bool :=
  authority.any (fun authority =>
    mutation.networkId = authority.networkId && mutation.operatorTransportPeerId = net.peerToString peer &&
      authority.verifyCertificate net.crypto peer mutation.certificate OperatorCapabilities.ticketManage turn.now) &&
  ((verifierOf net.crypto mutation.certificate.sessionPubkey).bind fun verifier =>
    verifyBytes net.crypto verifier mutation.signingPayload mutation.signature).isOk &&
  ticket.clientPeerId = localPeerId && ticket.revision = mutation.expectedRevision

def updateStatusSigned (mutation : TicketStateMutation) : Handler TicketSyncResponse := do
  let current ← lookupTicket mutation.ticketId
  if !current.any (lifecycleAuthorized net turn localPeerId authority peer mutation) then
    return .mutationRejected .permanent "Signed lifecycle mutation rejected" current
  else do
    let r ← (Call.updateTicketState policy turn.disk turn.timestamp mutation.ticketId mutation.newState
      (net.peerToString peer)).attempt
    match r with
    | .ok ticket => return .mutationApplied ticket
    | .error error => return .mutationRejected .conflict error.text current

/-- Objects of a peer go to the engine as they are. -/
def pushObjects (objects : List SignedObject) : Handler TicketSyncResponse := do
  let total := objects.length
  let r ← (Call.applyRemoteObjects turn.disk objects).attempt
  match r with
  | .ok accepted => return .syncAck accepted (total - accepted)
  | .error _ => return .syncAck 0 total

/-- The answer to a request. -/
def respond : TicketSyncRequest → Handler TicketSyncResponse
  | .getTickets proof => do
    let r ← (Call.listTickets none).attempt
    return .tickets ((r.toOption.getD []).filter (mayRead net localPeerId peer (canRead net turn authority peer proof "*")))
  | .getTicket ticketId proof => do
    let ticket ← lookupTicket ticketId
    return .ticket (ticket.filter (mayRead net localPeerId peer (canRead net turn authority peer proof ticketId)))
  | .pushTicket ticket => pushTicket net turn peer ticket
  | .updateStatusSigned mutation => updateStatusSigned net turn localPeerId authority policy peer mutation
  | .getHeads _ (some ticketId) => do return .heads (← Call.ticketHeads ticketId)
  | .getHeads _ none => do return .heads (← Call.currentHeads)
  | .getObjects ids => do
    let r ← (Call.getObjects turn.read ids).attempt
    return .objects (r.toOption.getD [])
  | .pushObjects objects => pushObjects turn objects

/-- What a response brings: a canonical record is imported, objects are applied. The record of a rejection is
passed over if it says that the ticket is the node's own. -/
def settle : TicketSyncResponse → Handler Unit
  | .mutationApplied ticket => do
    let _ ← (Call.importCanonicalTicket turn.disk ticket).attempt
    return ()
  | .mutationRejected _ _ (some ticket) =>
    if ticket.clientPeerId ≠ localPeerId then do
      let _ ← (Call.importCanonicalTicket turn.disk ticket).attempt
      return ()
    else return ()
  | .objects objects => do
    let _ ← (Call.applyRemoteObjects turn.disk objects).attempt
    return ()
  | _ => return ()

end Requests

/-! ## The node -/

/-- A request the node waits for; its queued record, if it has one. -/
structure PendingTicketSync where
  outboxId : Option String
deriving DecidableEq, Repr

structure Node where
  localPeerId : String
  authority : Option AuthorityContext
  engine : TicketEngine
  pendingSyncTickets : Std.ExtTreeMap OutboundRequestId PendingTicketSync
  /-- The ids of the queued records on disk. -/
  outbox : OrdSet String

/-- What the handler sends: a response to a peer, or the outcome of a request to the task that waits for it. -/
inductive Effect where
  | sendResponse (response : TicketSyncResponse)
  | reply (outcome : Except String TicketSyncResponse)

namespace Node

variable (net : NodeEnv) (turn : Turn)

def removeOutbox (n : Node) (outboxId : String) : OrdSet String :=
  if turn.removeFails then n.outbox else n.outbox.remove outboxId

/-- What an event does to the engine. -/
def program (n : Node) : TicketProtocolEvent → Handler (Option TicketSyncResponse)
  | .request peer request => do
    return some (← respond net turn n.localPeerId n.authority n.engine.policy peer request)
  | .response _ requestId response => do
    if n.pendingSyncTickets.contains requestId then settle turn n.localPeerId response
    return none
  | _ => return none

def handleTicketV2 (n : Node) (event : TicketProtocolEvent) : Node × Option Effect :=
  let r := (n.program net turn event).value (TicketEngine.exec net.toEnv) n.engine
  match event with
  | .request _ _ => ({ n with engine := r.2 }, r.1.map .sendResponse)
  | .response _ requestId response =>
    match n.pendingSyncTickets.get? requestId with
    | none => (n, none)
    | some pending =>
      let outbox :=
        match response.terminal, pending.outboxId with
        | true, some outboxId => n.removeOutbox turn outboxId
        | _, _ => n.outbox
      ({ n with engine := r.2, pendingSyncTickets := n.pendingSyncTickets.erase requestId, outbox },
        some (.reply (.ok response)))
  | .outboundFailure requestId error =>
    match n.pendingSyncTickets.get? requestId with
    | none => (n, none)
    | some _ => ({ n with pendingSyncTickets := n.pendingSyncTickets.erase requestId },
        some (.reply (.error ("Échec de la requête ticket sync: " ++ error))))
  | .other => (n, none)

end Node

end Fortiq
