/-
The ticket requests of the service's local interface (`fortiq-service/src/ipc_server.rs`): a ticket is created or
moved in the local engine and then pushed to the bootstrap peer; a ticket of another client is moved by a signed
request to that client. The receiver of a pushed ticket takes it only as a new one, so a later state of a ticket
it holds never comes through.
-/
import Fortiq.Node.Lifecycle
import Fortiq.Service.Session

namespace Fortiq

/-! ## The service -/

structure ServiceEnv extends NodeEnv where
  /-- `str::parse::<PeerId>`, or the text of its error. -/
  parsePeerId : String → Except String PeerId

structure IpcState where
  bootstrapPeer : Option String
  peerId : PeerId
  ticketStore : TicketEngine
  /-- There is a `p2p_sender`. -/
  p2p : Bool
  operator : OperatorState
  genesis : Option Genesis

/-- The command by which the service has the node send a request. -/
structure SyncTickets where
  peer : PeerId
  request : TicketSyncRequest

structure PeerSummary where
  peerId : String
  hostname : String
  os : String
  transport : String
  status : String
  relay : Bool
  rendezvous : Bool
deriving DecidableEq, Repr

/-- What the status shows of a ticket. -/
structure Ticket where
  id : String
  state : TicketState
deriving DecidableEq, Repr

structure DaemonStatus where
  product : String
  version : String
  peerId : String
  agentState : String
  activeTicket : Option Ticket
  listenAddresses : List String
  isOperatorUnlocked : Bool
deriving DecidableEq, Repr

inductive IpcResponse where
  | status (status : DaemonStatus)
  | peers (peers : List PeerSummary)
  | tickets (tickets : List TicketRecord)
  | ticketDetail (detail : Option TicketDetail)
  | ticketCreated (ticket : TicketRecord)
  | ticketUpdated (ticket : Option TicketRecord)
  | messages (messages : List ChatMessage)
  | messageSent (message : ChatMessage)
  | attachments (attachments : List AttachmentRecord)
  | fileSent (attachment : AttachmentRecord)
  | shellSessions (sessions : List ShellSessionRecord)
  | operatorStatus (status : OperatorSessionStatus)
  | success
  | error (text : String)
deriving DecidableEq, Repr

/-- What one request finds outside: the clock at the check of the session and when the engine stamps an event, fresh
uuids, which writes fail, and what becomes of a command. -/
structure IpcTurn where
  now : UInt64
  timestamp : UInt64
  uuid : String
  requestId : Uuid
  disk : Disk
  /-- The command channel takes commands. -/
  channelOpen : Bool
  /-- What the node replies within ten seconds. -/
  reply : Option (Except String TicketSyncResponse)

/-- What a request comes to. -/
structure IpcResult where
  response : IpcResponse
  commands : List SyncTickets
  state : IpcState

/-! ## Requests -/

namespace IpcState

variable (env : ServiceEnv) (turn : IpcTurn)

def localPeerId (s : IpcState) : String := env.peerToString s.peerId

/-- The ticket goes to the bootstrap peer, if there is one; nothing waits for the reply. -/
def push (s : IpcState) (ticket : TicketRecord) : List SyncTickets :=
  match s.bootstrapPeer with
  | none => []
  | some target =>
    match env.parsePeerId target with
    | .error _ => []
    | .ok peer => if s.p2p && turn.channelOpen then [⟨peer, .pushTicket ticket⟩] else []

def createTicket (s : IpcState) (title description : String) (priority : TicketPriority) : IpcResult :=
  match (Call.createTicket turn.disk turn.uuid turn.timestamp title description priority (s.localPeerId env)).run
      (TicketEngine.exec env.toEnv) s.ticketStore with
  | (.ok record, engine) => ⟨.ticketCreated record, s.push env turn record, { s with ticketStore := engine }⟩
  | (.error e, engine) => ⟨.error ("Échec de création du ticket: " ++ e.text), [], { s with ticketStore := engine }⟩

/-- The operator's request to the client of a ticket, signed by the session. -/
def lifecycleMutation (s : IpcState) (session : ActiveOperatorSession) (networkId : NetworkId) (current : TicketRecord)
    (ticketId : String) (newState : TicketState) : TicketStateMutation :=
  let mutation : TicketStateMutation :=
    { networkId, ticketId, expectedRevision := current.revision, newState, requestId := turn.requestId,
      operatorTransportPeerId := s.localPeerId env, certificate := session.cert, signature := [] }
  { mutation with
    signature := (session.sessionSigner.signDomain env.crypto objectSigDomain mutation.signingPayload).bytes.toList }

/-- The answer to the operator, from what the client replied. -/
def lifecycleResponse : Option (Except String TicketSyncResponse) → IpcResponse
  | some (.ok (.mutationApplied ticket)) => .ticketUpdated (some ticket)
  | some (.ok (.mutationRejected _ message _)) => .error message
  | some (.error error) => .error error
  | _ => .error "Mutation mise en attente jusqu'à la reconnexion du client"

/-- A ticket of another client: the request goes to that client. -/
def updateRemoteTicket (s : IpcState) (current : TicketRecord) (ticketId : String) (newState : TicketState) : IpcResult :=
  let fail := fun text => (⟨.error text, [], s⟩ : IpcResult)
  match env.parsePeerId current.clientPeerId with
  | .error error => fail ("PeerId client invalide: " ++ error)
  | .ok peer =>
    if !s.p2p then fail "Sous-système P2P indisponible"
    else
      match s.operator.operatorSession, s.genesis with
      | none, _ => fail "Session opérateur inactive"
      | some _, none => fail "Genesis indisponible"
      | some session, some genesis =>
        if !turn.channelOpen then fail "Canal de commande P2P fermé"
        else
          let mutation := s.lifecycleMutation env turn session genesis.tbs.networkId current ticketId newState
          ⟨lifecycleResponse turn.reply, [⟨peer, .updateStatusSigned mutation⟩], s⟩

/-- A ticket of this node: it is moved here, and pushed. -/
def updateLocalTicket (s : IpcState) (ticketId : String) (newState : TicketState) : IpcResult :=
  match (Call.updateTicketState s.ticketStore.policy turn.disk turn.timestamp ticketId newState (s.localPeerId env)).run
      (TicketEngine.exec env.toEnv) s.ticketStore with
  | (.ok ticket, engine) => ⟨.ticketUpdated (some ticket), s.push env turn ticket, { s with ticketStore := engine }⟩
  | (.error e, engine) =>
    ⟨.error ("Échec de mise à jour du statut: " ++ e.text), [], { s with ticketStore := engine }⟩

def updateTicketStatus (s : IpcState) (ticketId : String) (newState : TicketState) : IpcResult :=
  let (authorized, operator) := s.operator.isOperatorAuthorizedFor OperatorCapabilities.ticketManage turn.now
  let s := { s with operator }
  if !authorized then
    ⟨.error "Seule une session Operator/Admin active peut modifier le cycle de vie du ticket", [], s⟩
  else
    match s.ticketStore.state.getTicket ticketId with
    | none => ⟨.error "Ticket introuvable", [], s⟩
    | some current =>
      if current.clientPeerId ≠ s.localPeerId env then s.updateRemoteTicket env turn current ticketId newState
      else s.updateLocalTicket env turn ticketId newState

end IpcState

/-! ## A state change of a local ticket -/

namespace TicketEngine

variable {env : Env} {U : Set Event} {s s' : TicketEngine}

/-- A ticket is kept under its own id. -/
theorem Reach.record_id (hU : IdealIds U) (h : Reach env U s) {t : String} {r : TicketRecord}
    (hr : s.state.getTicket t = some r) : r.id = t := by
  obtain ⟨a, ha, rfl⟩ := Option.map_eq_some_iff.1 hr
  rw [h.synced hU, (h.sound hU).reduce_eq] at ha
  obtain ⟨e, -, hc, hid, -⟩ := TicketReducer.replay_identity ha
  rw [Event.creates, ← hid, Option.any_some, decide_eq_true_eq] at hc
  exact hc

end TicketEngine

namespace IpcState

open TicketEngine

variable {env : ServiceEnv} {turn : IpcTurn} {U : Set Event} {c : IpcState} {t : String} {newState : TicketState}
  {ticket : TicketRecord}

/-- What a successful request for a ticket of this node has done. -/
theorem updateTicketStatus_local
    (hown : (c.ticketStore.state.getTicket t).map TicketRecord.clientPeerId = some (c.localPeerId env))
    (h : (c.updateTicketStatus env turn t newState).response = .ticketUpdated (some ticket)) :
    ∃ engine, (Call.updateTicketState c.ticketStore.policy turn.disk turn.timestamp t newState (c.localPeerId env)).run
        (exec env.toEnv) c.ticketStore = (.ok ticket, engine) ∧
      (c.updateTicketStatus env turn t newState).state.ticketStore = engine ∧
      (c.updateTicketStatus env turn t newState).commands = c.push env turn ticket := by
  obtain ⟨current, hcurrent, hclient⟩ := Option.map_eq_some_iff.1 hown
  rcases hauth : c.operator.isOperatorAuthorizedFor OperatorCapabilities.ticketManage turn.now with ⟨_ | _, operator⟩
  · simp [updateTicketStatus, hauth] at h
  · have hlocal : ({ c with operator } : IpcState).localPeerId env = c.localPeerId env := rfl
    have heq : c.updateTicketStatus env turn t newState =
        ({ c with operator } : IpcState).updateLocalTicket env turn t newState := by
      simp [updateTicketStatus, hauth, hcurrent, hclient, hlocal]
    rw [heq] at h ⊢
    unfold updateLocalTicket at h ⊢
    rw [hlocal] at h ⊢
    rcases hrun : (Call.updateTicketState c.ticketStore.policy turn.disk turn.timestamp t newState
        (c.localPeerId env)).run (exec env.toEnv) c.ticketStore with ⟨err | r, engine⟩
    · simp [hrun] at h
    · simp only [hrun] at h ⊢
      cases h
      exact ⟨engine, rfl, rfl, rfl⟩

/-- Whoever pushes a ticket that the receiver holds leaves the receiver's engine as it is. -/
theorem push_held {net : NodeEnv} {turn : Turn} {o : Node} {peer : PeerId} {held : TicketRecord}
    (hheld : o.engine.state.getTicket ticket.id = some held) :
    (o.handleTicketV2 net turn (.request peer (.pushTicket ticket))).1.engine = o.engine := by
  rw [Node.handle_engine, Node.mutation, hheld]
  simp [mayPublish, Node.performed]

/-- The commands of a push carry the ticket. -/
theorem mem_push {cmd : SyncTickets} (h : cmd ∈ c.push env turn ticket) : cmd.request = .pushTicket ticket := by
  unfold push at h
  split at h
  · cases h
  · split at h
    · cases h
    · split at h
      · rw [List.mem_singleton.1 h]
      · cases h

/-- A node that holds a ticket learns its new state from the push of the client exactly if it has that state
already. -/
theorem pushed_status_arrives_iff (hU : IdealIds U) (hc : Reach env.toEnv U c.ticketStore)
    (hown : (c.ticketStore.state.getTicket t).map TicketRecord.clientPeerId = some (c.localPeerId env))
    {o : Node} {held : TicketRecord} (hheld : o.engine.state.getTicket t = some held)
    (hok : (c.updateTicketStatus env turn t newState).response = .ticketUpdated (some ticket))
    {cmd : SyncTickets} (hcmd : cmd ∈ (c.updateTicketStatus env turn t newState).commands) (arrival : Turn) :
    ((o.handleTicketV2 env.toNodeEnv arrival (.request c.peerId cmd.request)).1.engine.state.getTicket t).map
        TicketRecord.state =
      ((c.updateTicketStatus env turn t newState).state.ticketStore.state.getTicket t).map TicketRecord.state ↔
    held.state = newState := by
  obtain ⟨engine, hrun, hstate, hcommands⟩ := updateTicketStatus_local hown hok
  obtain ⟨hafter, hnew, current, hcurrent, hident⟩ := updateTicketState_ok hrun
  have hid : ticket.id = t := (congrArg TicketIdentity.id hident).trans (hc.record_id hU hcurrent)
  rw [hcommands] at hcmd
  rw [hstate, hafter, mem_push hcmd, push_held (hid ▸ hheld), hheld]
  simp [hnew]

end IpcState

/-! ## A sample: a client and the operator that holds its ticket -/

namespace IpcSample

open TicketEngine

/-- A ticket of the client, the change it makes, and a change that is none. -/
def deskTable : EventTable where
  bodies :=
    [⟨[], 10, 1, .ticket (.created "T-aaaaaaaa" "printer" "on fire" .high "client")⟩,
     ⟨[idAt 0], 100, 2, .ticket (.statusChanged "T-aaaaaaaa" .inProgress "client" none)⟩,
     ⟨[idAt 0], 100, 2, .ticket (.statusChanged "T-aaaaaaaa" .«open» "client" none)⟩]

def deskEnv : ServiceEnv where
  toEnv := deskTable.env
  peerToString := fun peer => String.ofList (peer.bytes.map fun b => Char.ofNat b.toNat)
  certificateFromCbor := fun _ => none
  parsePeerId := fun text => .ok ⟨utf8 text⟩

def clientEngine : Reached deskTable :=
  (Reached.start deskTable).after (.createTicket "aaaaaaaa" 10 "printer" "on fire" .high "client")

/-- The client, with its ticket, an operator session and the operator as its bootstrap peer. -/
def client : IpcState where
  bootstrapPeer := some "operator"
  peerId := ⟨utf8 "client"⟩
  ticketStore := clientEngine.engine
  p2p := true
  operator := SessionSample.unlocked
  genesis := SessionSample.host.genesis

def ipcTurn : IpcTurn where
  now := 200
  timestamp := 100
  uuid := ""
  requestId := Vector.replicate 16 0
  disk := diskOk
  channelOpen := true
  reply := none

/-- The operator's node before and after the client has pushed its new ticket. -/
def operatorNode : Node where
  localPeerId := "operator"
  authority := none
  engine := TicketEngine.fresh bob ⟨none⟩
  pendingSyncTickets := Std.ExtTreeMap.empty
  outbox := OrdSet.empty

def holding : Node :=
  (operatorNode.handleTicketV2 deskEnv.toNodeEnv Node.quietTurn (.request client.peerId (.pushTicket
    { id := "T-aaaaaaaa", title := "printer", description := "on fire", state := .«open», priority := .high,
      clientPeerId := "client", revision := 1, createdAt := 10, updatedAt := 10, closedAt := none }))).1

/-- The client's request succeeds and the ticket is pushed, but the operator keeps the state it had. -/
theorem pushed_status_lost :
    (holding.engine.state.getTicket "T-aaaaaaaa").map TicketRecord.state = some .«open» ∧
    ((client.updateTicketStatus deskEnv ipcTurn "T-aaaaaaaa" .inProgress).state.ticketStore.state.getTicket
      "T-aaaaaaaa").map TicketRecord.state = some .inProgress ∧
    (client.updateTicketStatus deskEnv ipcTurn "T-aaaaaaaa" .inProgress).commands.map (fun cmd =>
      ((holding.handleTicketV2 deskEnv.toNodeEnv Node.quietTurn (.request client.peerId cmd.request)).1.engine.state.getTicket
        "T-aaaaaaaa").map TicketRecord.state) = [some .«open»] := by
  decide +kernel

/-- The theorem at a request for the state the operator has. -/
theorem pushed_status_arrives_open :
    ∃ cmd ∈ (client.updateTicketStatus deskEnv ipcTurn "T-aaaaaaaa" .«open»).commands,
      ((holding.handleTicketV2 deskEnv.toNodeEnv Node.quietTurn (.request client.peerId cmd.request)).1.engine.state.getTicket
        "T-aaaaaaaa").map TicketRecord.state =
      ((client.updateTicketStatus deskEnv ipcTurn "T-aaaaaaaa" .«open»).state.ticketStore.state.getTicket
        "T-aaaaaaaa").map TicketRecord.state := by
  have hheld : ((holding.engine.state.getTicket "T-aaaaaaaa").any fun held => held.state = .«open») := by decide +kernel
  obtain ⟨held, hheld, hopen⟩ := (Option.any_eq_true _ _).1 hheld
  have hcmd : (client.updateTicketStatus deskEnv ipcTurn "T-aaaaaaaa" .«open»).commands.length = 1 := by decide +kernel
  obtain ⟨cmd, hcmd⟩ := List.length_eq_one_iff.1 hcmd
  have hresp : (client.updateTicketStatus deskEnv ipcTurn "T-aaaaaaaa" .«open»).response =
      .ticketUpdated (some
        { id := "T-aaaaaaaa", title := "printer", description := "on fire", state := .«open», priority := .high,
          clientPeerId := "client", revision := 2, createdAt := 10, updatedAt := 100, closedAt := none }) := by
    decide +kernel
  have hmem : cmd ∈ (client.updateTicketStatus deskEnv ipcTurn "T-aaaaaaaa" .«open»).commands := by simp [hcmd]
  exact ⟨cmd, hmem, (IpcState.pushed_status_arrives_iff deskTable.idealIds clientEngine.reach (by decide +kernel) hheld
    hresp hmem Node.quietTurn).2 (of_decide_eq_true hopen)⟩

end IpcSample

end Fortiq
