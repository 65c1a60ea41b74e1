/-
A chat message that the service refuses (`IpcRequest::SendChatMessage` in `fortiq-service/src/ipc_server.rs`).
The handler appends the message and its audit note to the ticket store and only then looks for what it needs to
send the message on: the operator's session, its WRITE capability and the proof made with it. A request refused for
one of these has been recorded; a request refused before them has not.
-/
import Fortiq.Service.Requests

namespace Fortiq

/-! ## What the two appends do to the messages -/

namespace TicketEngine

variable {env : Env} {s s' : TicketEngine} {disk : Disk} {now : UInt64}

/-- A message that is added under a new id is the last message of its ticket. -/
theorem addChatMessage_ok {msg : ChatMessage} (h : (Call.addChatMessage disk now msg).run (exec env) s = (.ok (), s'))
    (hnew : msg.id ∉ (s.state.listMessages msg.ticketId).map ChatMessage.id) :
    s'.state.listMessages msg.ticketId = s.state.listMessages msg.ticketId ++
      [⟨msg.id, msg.ticketId, msg.senderPeerId, msg.body, Call.timestampOr msg.createdAt now, "DELIVERED"⟩] := by
  unfold Call.addChatMessage at h
  obtain ⟨x, s₁, happ, hret⟩ := Prog.run_bind_ok h
  cases hret
  rw [run_appendTicketEvent] at happ
  obtain ⟨hp, -, happl, hstate⟩ := append_ok happ
  rcases TicketReducer.get_step_applied hp happl with ⟨_, _, _, _, _, hte, -⟩ | ⟨a, a', hg, hg', heff⟩
  · cases hte
  · simp only [TicketEvent.ticketId] at hg hg'
    rw [TicketStateStore.listMessages, hg] at hnew
    rw [TicketStateStore.listMessages, TicketStateStore.listMessages, hstate, hg, hg']
    cases heff with
    | idle hidle => exact absurd hidle hnew
    | message => rfl

/-- An audit note leaves the messages of every ticket, whether it is recorded or not. -/
theorem recordEvent_messages (uuid ticketId kind actor : String) (metadata : Option String) (t : String) :
    ((Call.recordEvent disk uuid now ticketId kind actor metadata).run (exec env) s).2.state.listMessages t =
      s.state.listMessages t := by
  have hrun : ((Call.recordEvent disk uuid now ticketId kind actor metadata).run (exec env) s).2 =
      (appendTicketEvent env (.customAudit ticketId uuid kind actor metadata now) now disk s).2 := by
    rw [Call.recordEvent]
    exact (Prog.run_bind_ret _ (fun _ => ()) _ s).trans (by rw [run_appendTicketEvent])
  rw [hrun]
  rcases append_state (.customAudit ticketId uuid kind actor metadata now) now disk s with hs | ⟨e, hp, -, hs⟩
  · rw [hs]
  · rw [hs, TicketStateStore.listMessages, TicketStateStore.listMessages]
    cases hg : s.state.get t with
    | none =>
      rcases TicketReducer.get_step_absent hg e with ⟨-, hg'⟩ | ⟨_, _, _, _, hc, -⟩
      · rw [hg']
      · rw [hp] at hc; cases hc
    | some a =>
      obtain ⟨a', hg', h⟩ := TicketReducer.get_step_present hg e
      rw [hg']
      rcases h with ⟨-, rfl⟩ | ⟨te, hte, -, ⟨-, rfl⟩ | heff⟩
      · rfl
      · rfl
      · rw [hp] at hte
        cases hte
        cases heff <;> rfl

end TicketEngine

/-! ## The local checks -/

/-- A reason for which the service itself refuses a chat message. Its signer never fails, so making the proof fails
only where the certificate cannot be encoded. -/
inductive ChatRefusal where
  | unknownTicket
  | notWorking
  | noSession
  | missingWrite
  | serialization (error : String)
deriving DecidableEq, Repr

namespace ChatRefusal

def text : ChatRefusal → String
  | unknownTicket => "Ticket introuvable"
  | notWorking => "Impossible d'envoyer un message : le ticket est fermé"
  | noSession => "Session opérateur inactive"
  | missingWrite => "Capability WRITE requise"
  | serialization error => "Certificate serialization failed: " ++ error

theorem text_serialization (error : String) :
    (serialization error).text = "Certificate serialization failed: " ++ error := rfl

/-- The reason is found before anything is recorded. -/
def early : ChatRefusal → Bool
  | unknownTicket => true
  | notWorking => true
  | _ => false

end ChatRefusal

namespace IpcState

variable (env : IpcEnv) (turn : RequestTurn)

/-- What keeps a recorded message from being sent on: nothing where there is no peer to send to, or where the
client itself sends; otherwise the operator's session. -/
def sendingRefusal (s : IpcState) (ticket : TicketRecord) : Option ChatRefusal :=
  if !(env.parsePeerId (s.target env ticket)).isOk || !s.p2p || ticket.clientPeerId = env.peerToString s.peerId then none
  else
    match s.operator.operatorSession with
    | none => some .noSession
    | some session =>
      if !session.cert.capabilities.has OperatorCapabilities.write then some .missingWrite
      else
        match env.certificateToCbor session.cert with
        | .error error => some (.serialization error)
        | .ok _ => none

/-- The local check that a message to a ticket fails first, if it fails one. -/
def chatRefusal (s : IpcState) (ticketId : String) : Option ChatRefusal :=
  match s.ticketStore.state.getTicket ticketId with
  | none => some .unknownTicket
  | some ticket => if !ticket.state.permitsWork then some .notWorking else s.sendingRefusal env ticket

/-- The message a request makes. -/
def chatMessage (s : IpcState) (ticketId body : String) : ChatMessage where
  id := "MSG-" ++ turn.uuid
  ticketId := ticketId
  senderPeerId := env.peerToString s.peerId
  body := body
  createdAt := turn.now
  deliveryState := "PENDING"

/-- The note of a message that is recorded. -/
def chatNote (s : IpcState) (ticketId body : String) : Call Unit :=
  Call.recordEvent turn.disk turn.auditUuid turn.timestamp ticketId "CHAT_MESSAGE_SENT" (env.peerToString s.peerId)
    (some (String.ofList (body.toList.take 40)))

variable {env turn} {s : IpcState} {ticketId body : String} {reason : ChatRefusal}

theorem sendingRefusal_some {ticket : TicketRecord} (h : s.sendingRefusal env ticket = some reason)
    (message : ChatMessage) :
    reason.early = false ∧ (∃ peer, env.parsePeerId (s.target env ticket) = .ok peer) ∧ s.p2p = true ∧
      (s.sessionFor env ticket OperatorCapabilities.write "Capability WRITE requise" >>= s.chatProof env message) =
        .error reason.text := by
  unfold sendingRefusal at h
  split at h
  · cases h
  · rename_i hsend
    simp only [Bool.or_eq_true, Bool.not_eq_true', decide_eq_true_eq, not_or, Bool.not_eq_false] at hsend
    obtain ⟨⟨hpeer, hp2p⟩, hclient⟩ := hsend
    have hpeer : ∃ peer, env.parsePeerId (s.target env ticket) = .ok peer := by
      cases hq : env.parsePeerId (s.target env ticket) with
      | error => rw [hq] at hpeer; cases hpeer
      | ok peer => exact ⟨peer, rfl⟩
    rw [sessionFor, if_neg hclient]
    cases hs : s.operator.operatorSession with
    | none => rw [hs] at h; cases h; exact ⟨rfl, hpeer, hp2p, rfl⟩
    | some session =>
      simp only [hs] at h
      cases hw : session.cert.capabilities.has OperatorCapabilities.write with
      | false => simp only [hw] at h ⊢; cases h; exact ⟨rfl, hpeer, hp2p, rfl⟩
      | true =>
        simp only [hw] at h ⊢
        cases hc : env.certificateToCbor session.cert with
        | ok => rw [hc] at h; cases h
        | error error =>
          rw [hc] at h
          cases h
          refine ⟨rfl, hpeer, hp2p, ?_⟩
          change chatProof env s message (some session) = _
          simp only [chatProof, hc]
          rfl

theorem forwardMessage_refused {ticket : TicketRecord} (h : s.sendingRefusal env ticket = some reason)
    (message : ChatMessage) : forwardMessage env turn s ticket message = ⟨.error reason.text, [], s⟩ := by
  obtain ⟨-, ⟨peer, hpeer⟩, hp2p, hauth⟩ := sendingRefusal_some h message
  rw [forwardMessage, hpeer]
  simp only [hp2p, hauth]
  rfl

/-- Everything a request with a failing check comes to: it is refused at once; or its message is appended, and it is
refused because that failed, or for the check after all. -/
theorem sendChatMessage_cases (body : String) (h : s.chatRefusal env ticketId = some reason) :
    (reason.early = true ∧ s.sendChatMessage env turn ticketId body = ⟨.error reason.text, [], s⟩) ∨
    reason.early = false ∧
      ((∃ e, (s.sendChatMessage env turn ticketId body).response =
          .error ("Échec de persistance du message local: " ++ e)) ∨
        ∃ engine, (Call.addChatMessage turn.disk turn.timestamp (s.chatMessage env turn ticketId body)).run
            (TicketEngine.exec env.toEnv) s.ticketStore = (.ok (), engine) ∧
          s.sendChatMessage env turn ticketId body = ⟨.error reason.text, [],
            { s with
              ticketStore := ((s.chatNote env turn ticketId body).run (TicketEngine.exec env.toEnv) engine).2 }⟩) := by
  unfold chatRefusal at h
  unfold sendChatMessage
  cases hg : s.ticketStore.state.getTicket ticketId with
  | none => rw [hg] at h; cases h; exact .inl ⟨rfl, rfl⟩
  | some ticket =>
    simp only [hg] at h
    split at h
    · rename_i hw
      cases h
      exact .inl ⟨rfl, by simp only [if_pos hw]; rfl⟩
    · rename_i hw
      refine .inr ⟨(sendingRefusal_some h (s.chatMessage env turn ticketId body)).1, ?_⟩
      simp only [if_neg hw]
      cases hadd : (Call.addChatMessage turn.disk turn.timestamp (s.chatMessage env turn ticketId body)).run
          (TicketEngine.exec env.toEnv) s.ticketStore with
      | mk r engine =>
        unfold chatMessage at hadd
        rw [hadd]
        cases r with
        | error e => exact .inl ⟨e.text, rfl⟩
        | ok u =>
          have hlate : ({ s with ticketStore := ((s.chatNote env turn ticketId body).run (TicketEngine.exec env.toEnv)
              engine).2 } : IpcState).sendingRefusal env ticket = some reason := h
          exact .inr ⟨engine, rfl, forwardMessage_refused hlate _⟩

end IpcState

/-- The text of a failed append is told apart from those of the checks by its first letter. -/
theorem ChatRefusal.text_ne_persistence (reason : ChatRefusal) (e : String) :
    reason.text ≠ "Échec de persistance du message local: " ++ e := by
  intro h
  have hhead : reason.text.toList.head? = some 'É' := by
    have hlit : "Échec de persistance du message local: ".toList.head? = some 'É' := by decide +kernel
    simp only [h, String.toList_append, List.head?_append, hlit, Option.some_or]
  cases reason with
  | serialization error =>
    have hlit : "Certificate serialization failed: ".toList.head? = some 'C' := by decide +kernel
    simp only [text_serialization, String.toList_append, List.head?_append, hlit, Option.some_or] at hhead
    exact absurd hhead (by decide)
  | _ => exact absurd hhead (by decide +kernel)

namespace IpcState

variable {env : IpcEnv} {turn : RequestTurn} {s : IpcState} {ticketId body : String} {reason : ChatRefusal}

/-- What a message refused by a local check leaves in the ticket store. Where the ticket is unknown or not in a working
state, nothing; where there is no session, no WRITE capability or no proof, the message, so that the store is changed
and a retry adds it again. The id of the message is a fresh one. -/
theorem refused_message_unrecorded_iff
    (hnew : "MSG-" ++ turn.uuid ∉ (s.ticketStore.state.listMessages ticketId).map ChatMessage.id)
    (hlocal : s.chatRefusal env ticketId = some reason)
    (hresp : (s.sendChatMessage env turn ticketId body).response = .error reason.text) :
    ((s.sendChatMessage env turn ticketId body).state.ticketStore = s.ticketStore ↔
      reason = .unknownTicket ∨ reason = .notWorking) ∧
    (¬ (reason = .unknownTicket ∨ reason = .notWorking) →
      (s.sendChatMessage env turn ticketId body).state.ticketStore.state.listMessages ticketId =
        s.ticketStore.state.listMessages ticketId ++
          [⟨"MSG-" ++ turn.uuid, ticketId, env.peerToString s.peerId, body, Call.timestampOr turn.now turn.timestamp,
            "DELIVERED"⟩]) := by
  have hearly : reason.early = true ↔ reason = .unknownTicket ∨ reason = .notWorking := by
    cases reason <;> simp [ChatRefusal.early]
  rw [← hearly]
  rcases sendChatMessage_cases body hlocal with ⟨he, hsend⟩ | ⟨hl, ⟨e, hfail⟩ | ⟨engine, hadd, hsend⟩⟩
  · rw [hsend]
    exact ⟨⟨fun _ => he, fun _ => rfl⟩, fun hne => absurd he hne⟩
  · rw [hfail] at hresp
    exact absurd (IpcResponse.error.inj hresp).symm (reason.text_ne_persistence e)
  · rw [hsend]
    have hmessages := TicketEngine.addChatMessage_ok hadd hnew
    rw [← TicketEngine.recordEvent_messages turn.auditUuid ticketId "CHAT_MESSAGE_SENT" (env.peerToString s.peerId)
      (some (String.ofList (body.toList.take 40)))] at hmessages
    refine ⟨⟨fun hsame => ?_, fun he => absurd he (by simp [hl])⟩, fun _ => hmessages⟩
    -- an unchanged store would have the messages it had
    have hsame := congrArg (fun e => (e.state.listMessages ticketId).length) hsame
    exact absurd (hsame.symm.trans (congrArg List.length hmessages)) (by simp [chatMessage])

end IpcState

/-! ## A sample: a message of an operator whose session is not open -/

namespace ChatSample

open TicketEngine

/-- A ticket of the client, and one message about it sent twice. -/
def chatTable : EventTable where
  bodies :=
    [⟨[], 10, 1, .ticket (.created "T-aaaaaaaa" "printer" "on fire" .high "client")⟩,
     ⟨[idAt 0], 200, 2, .ticket (.chatMessageAdded "T-aaaaaaaa" "MSG-1" "operator" "hello" 200)⟩,
     ⟨[idAt 1], 200, 3, .ticket (.customAudit "T-aaaaaaaa" "A1" "CHAT_MESSAGE_SENT" "operator" (some "hello") 200)⟩,
     ⟨[idAt 2], 200, 4, .ticket (.chatMessageAdded "T-aaaaaaaa" "MSG-2" "operator" "hello" 200)⟩,
     ⟨[idAt 3], 200, 5, .ticket (.customAudit "T-aaaaaaaa" "A2" "CHAT_MESSAGE_SENT" "operator" (some "hello") 200)⟩]

def chatEnv : IpcEnv where
  toEnv := chatTable.env
  peerToString := IpcSample.deskEnv.peerToString
  certificateFromCbor := IpcSample.deskEnv.certificateFromCbor
  parsePeerId := IpcSample.deskEnv.parsePeerId
  version := "0.1.0"
  listenAddresses := []
  mnemonic := SessionSample.host.mnemonic
  certificateToCbor := fun _ => .ok []

def officeEngine : Reached chatTable :=
  (Reached.start chatTable).after (.createTicket "aaaaaaaa" 10 "printer" "on fire" .high "client")

/-- The operator, who holds the ticket of the client and has no session. -/
def office : IpcState where
  bootstrapPeer := none
  peerId := ⟨utf8 "operator"⟩
  ticketStore := officeEngine.engine
  p2p := true
  operator := OperatorState.new
  genesis := SessionSample.host.genesis

def turn (uuid auditUuid : String) : RequestTurn where
  toIpcTurn := { IpcSample.ipcTurn with uuid, timestamp := 200 }
  auditUuid := auditUuid
  nonce := Vector.replicate 16 0
  sessionId := Vector.replicate 16 0
  peers := .timeout
  ack := .timeout
  imported := .error ""
  file := .timeout

def refused : IpcOutcome := office.sendChatMessage chatEnv (turn "1" "A1") "T-aaaaaaaa" "hello"

/-- The retry, once a session is open. -/
def retried : IpcOutcome :=
  { refused.state with operator := SessionSample.unlocked }.sendChatMessage chatEnv (turn "2" "A2") "T-aaaaaaaa" "hello"

/-- The request is refused for want of a session, yet the ticket has the message and its note; after the retry it has
the message twice. -/
theorem refused_message_doubled :
    office.ticketStore.state.listMessages "T-aaaaaaaa" = [] ∧
    refused.response = .error "Session opérateur inactive" ∧
    (refused.state.ticketStore.state.listMessages "T-aaaaaaaa").map ChatMessage.body = ["hello"] ∧
    (refused.state.ticketStore.state.getTicketDetail "T-aaaaaaaa").map (fun d => d.events.map TicketEventRecord.kind) =
      some ["CREATED", "CHAT_MESSAGE_SENT"] ∧
    (retried.state.ticketStore.state.listMessages "T-aaaaaaaa").map ChatMessage.body = ["hello", "hello"] := by
  decide +kernel

/-- The theorem at that request. -/
theorem refused_message_changes_store :
    office.chatRefusal chatEnv "T-aaaaaaaa" = some .noSession ∧ refused.state.ticketStore ≠ office.ticketStore := by
  have hlocal : office.chatRefusal chatEnv "T-aaaaaaaa" = some .noSession := by decide +kernel
  have hresp : (office.sendChatMessage chatEnv (turn "1" "A1") "T-aaaaaaaa" "hello").response =
      .error ChatRefusal.noSession.text := by decide +kernel
  have hiff := (IpcState.refused_message_unrecorded_iff (by decide +kernel) hlocal hresp).1
  exact ⟨hlocal, fun hsame => absurd (hiff.1 hsame) (by decide)⟩

end ChatSample

end Fortiq
