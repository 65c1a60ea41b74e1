/-
Who changes the tickets of a node. Whatever message comes in, what it does to the engine is one mutation or
nothing. A signed lifecycle request gets through only after every check; a published ticket is new; but objects
are applied as they come, and so is the record of a response, so a ticket of the node is safe from all messages
but these: objects with new events about it, and records that are ahead of it and name a state it can move to.
-/
import Fortiq.Engine.Failure
import Fortiq.Engine.History
import Fortiq.Node.Basic

namespace Fortiq

namespace Node

open TicketEngine

variable (net : NodeEnv) (turn : Turn)

/-! ## The mutation of an event -/

/-- The mutation a response comes to. -/
def settled (localPeerId : String) : TicketSyncResponse → Option Mutation
  | .mutationApplied ticket => some (.importCanonicalTicket ticket)
  | .mutationRejected _ _ (some ticket) =>
    if ticket.clientPeerId ≠ localPeerId then some (.importCanonicalTicket ticket) else none
  | .objects objects => some (.applyRemoteObjects objects)
  | _ => none

/-- The mutation an event comes to, if it comes to one. -/
def mutation (n : Node) : TicketProtocolEvent → Option Mutation
  | .request peer (.pushTicket ticket) =>
    if mayPublish net peer ticket (n.engine.state.getTicket ticket.id) then some (.importCanonicalTicket ticket) else none
  | .request peer (.updateStatusSigned m) =>
    if (n.engine.state.getTicket m.ticketId).any (lifecycleAuthorized net turn n.localPeerId n.authority peer m) then
      some (.updateTicketState turn.timestamp m.ticketId m.newState (net.peerToString peer))
    else none
  | .request _ (.pushObjects objects) => some (.applyRemoteObjects objects)
  | .response _ requestId response =>
    if n.pendingSyncTickets.contains requestId then settled n.localPeerId response else none
  | _ => none

/-- The engine after a mutation, if there is one. -/
def performed (n : Node) (m : Option Mutation) : TicketEngine :=
  m.elim n.engine fun m => (perform net.toEnv turn.disk m n.engine).2

variable {net turn} {n : Node}

/-- An attempted call leaves the engine as the call does. -/
theorem run_attempt_bind {α β : Type} (p : Call α) (f : Result α → Handler β) (s : TicketEngine) :
    (p.attempt >>= f).run (exec net.toEnv) s =
      (f (p.run (exec net.toEnv) s).1).run (exec net.toEnv) (p.run (exec net.toEnv) s).2 := by
  rw [Prog.run_bind, Prog.run_attempt, Prog.andThen_ok]

theorem perform_import (disk : Disk) (ticket : TicketRecord) (s : TicketEngine) :
    (perform net.toEnv disk (.importCanonicalTicket ticket) s).2 =
      ((Call.importCanonicalTicket disk ticket).run (exec net.toEnv) s).2 :=
  Prog.run_bind_ret _ (fun _ => Reply.done) (Call.importCanonicalTicket disk ticket) s

theorem perform_update (disk : Disk) (now : UInt64) (t : String) (newState : TicketState) (actor : String) (s : TicketEngine) :
    (perform net.toEnv disk (.updateTicketState now t newState actor) s).2 =
      ((Call.updateTicketState s.policy disk now t newState actor).run (exec net.toEnv) s).2 :=
  Prog.run_bind_ret _ Reply.ticket (Call.updateTicketState s.policy disk now t newState actor) s

theorem perform_apply (disk : Disk) (objects : List SignedObject) (s : TicketEngine) :
    (perform net.toEnv disk (.applyRemoteObjects objects) s).2 =
      ((Call.applyRemoteObjects disk objects).run (exec net.toEnv) s).2 :=
  Prog.run_bind_ret _ Reply.count (Call.applyRemoteObjects disk objects) s

theorem getObjects_run (read : ObjectId → Option String) (s : TicketEngine) : ∀ ids : List ObjectId,
    ((Call.getObjects read ids).run (exec net.toEnv) s).2 = s
  | [] => rfl
  | id :: ids => by
    show (Prog.run (exec net.toEnv) (Prog.bind (.ofExcept (s.store.get net.crypto read id)) _) s).2 = s
    cases s.store.get net.crypto read id with
    | error err => rfl
    | ok obj =>
      show (Prog.run (exec net.toEnv) (Call.getObjects read ids >>= fun objects => .ret (obj.toList ++ objects)) s).2 = s
      rw [Prog.run_bind_ret, getObjects_run read s ids]

section Answers

variable {peer : PeerId} {s s' : TicketEngine} {error : Error}

theorem pushTicket_refused {ticket : TicketRecord} (h : mayPublish net peer ticket (s.state.getTicket ticket.id) = false) :
    (pushTicket net turn peer ticket).run (exec net.toEnv) s =
      (.ok (.mutationRejected .permanent "PeerId non autorisé à publier ce ticket" none), s) := by
  show Prog.run (exec net.toEnv) (if (!mayPublish net peer ticket (s.state.getTicket ticket.id)) = true then _ else _) s = _
  rw [h]
  rfl

theorem pushTicket_ok {ticket : TicketRecord} (h : mayPublish net peer ticket (s.state.getTicket ticket.id) = true)
    (hi : (Call.importCanonicalTicket turn.disk ticket).run (exec net.toEnv) s = (.ok (), s')) :
    (pushTicket net turn peer ticket).run (exec net.toEnv) s = (.ok (.mutationApplied ticket), s') := by
  show Prog.run (exec net.toEnv) (if (!mayPublish net peer ticket (s.state.getTicket ticket.id)) = true then _ else _) s = _
  rw [h, Bool.not_true, if_neg Bool.false_ne_true, run_attempt_bind, hi]
  rfl

/-- A failed import is answered with the ticket it has left. -/
theorem pushTicket_error {ticket : TicketRecord} (h : mayPublish net peer ticket (s.state.getTicket ticket.id) = true)
    (hi : (Call.importCanonicalTicket turn.disk ticket).run (exec net.toEnv) s = (.error error, s')) :
    (pushTicket net turn peer ticket).run (exec net.toEnv) s =
      (.ok (.mutationRejected .conflict ("Erreur: " ++ error.text) (s'.state.getTicket ticket.id)), s') := by
  show Prog.run (exec net.toEnv) (if (!mayPublish net peer ticket (s.state.getTicket ticket.id)) = true then _ else _) s = _
  rw [h, Bool.not_true, if_neg Bool.false_ne_true, run_attempt_bind, hi]
  rfl

section Signed

variable {policy : AuthorityPolicy} {localPeerId : String} {authority : Option AuthorityContext} {m : TicketStateMutation}

theorem updateStatusSigned_refused
    (h : (s.state.getTicket m.ticketId).any (lifecycleAuthorized net turn localPeerId authority peer m) = false) :
    (updateStatusSigned net turn localPeerId authority policy peer m).run (exec net.toEnv) s =
      (.ok (.mutationRejected .permanent "Signed lifecycle mutation rejected" (s.state.getTicket m.ticketId)), s) := by
  show Prog.run (exec net.toEnv) (if (!(s.state.getTicket m.ticketId).any _) = true then _ else _) s = _
  rw [h]
  rfl

theorem updateStatusSigned_ok {ticket : TicketRecord}
    (h : (s.state.getTicket m.ticketId).any (lifecycleAuthorized net turn localPeerId authority peer m) = true)
    (hu : (Call.updateTicketState policy turn.disk turn.timestamp m.ticketId m.newState (net.peerToString peer)).run
      (exec net.toEnv) s = (.ok ticket, s')) :
    (updateStatusSigned net turn localPeerId authority policy peer m).run (exec net.toEnv) s =
      (.ok (.mutationApplied ticket), s') := by
  show Prog.run (exec net.toEnv) (if (!(s.state.getTicket m.ticketId).any _) = true then _ else _) s = _
  rw [h, Bool.not_true, if_neg Bool.false_ne_true, run_attempt_bind, hu]
  rfl

/-- A failed change is answered with the ticket as it was before. -/
theorem updateStatusSigned_error
    (h : (s.state.getTicket m.ticketId).any (lifecycleAuthorized net turn localPeerId authority peer m) = true)
    (hu : (Call.updateTicketState policy turn.disk turn.timestamp m.ticketId m.newState (net.peerToString peer)).run
      (exec net.toEnv) s = (.error error, s')) :
    (updateStatusSigned net turn localPeerId authority policy peer m).run (exec net.toEnv) s =
      (.ok (.mutationRejected .conflict error.text (s.state.getTicket m.ticketId)), s') := by
  show Prog.run (exec net.toEnv) (if (!(s.state.getTicket m.ticketId).any _) = true then _ else _) s = _
  rw [h, Bool.not_true, if_neg Bool.false_ne_true, run_attempt_bind, hu]
  rfl

end Signed

theorem pushObjects_ack (objects : List SignedObject) (s : TicketEngine) : ∃ accepted rejected,
    (pushObjects turn objects).run (exec net.toEnv) s = (.ok (.syncAck accepted rejected),
      ((Call.applyRemoteObjects turn.disk objects).run (exec net.toEnv) s).2) := by
  rw [pushObjects, run_attempt_bind]
  cases ((Call.applyRemoteObjects turn.disk objects).run (exec net.toEnv) s).1 <;> exact ⟨_, _, rfl⟩

end Answers

theorem pushTicket_run (peer : PeerId) (ticket : TicketRecord) :
    ((pushTicket net turn peer ticket).run (exec net.toEnv) n.engine).2 =
      n.performed net turn (n.mutation net turn (.request peer (.pushTicket ticket))) := by
  simp only [mutation]
  cases hp : mayPublish net peer ticket (n.engine.state.getTicket ticket.id) with
  | false => rw [pushTicket_refused hp]; rfl
  | true =>
    rw [if_pos rfl, performed, Option.elim_some, perform_import]
    rcases hi : (Call.importCanonicalTicket turn.disk ticket).run (exec net.toEnv) n.engine with ⟨err | u, s'⟩
    · rw [pushTicket_error hp hi]
    · rw [pushTicket_ok hp hi]

theorem updateStatusSigned_run (peer : PeerId) (m : TicketStateMutation) :
    ((updateStatusSigned net turn n.localPeerId n.authority n.engine.policy peer m).run (exec net.toEnv) n.engine).2 =
      n.performed net turn (n.mutation net turn (.request peer (.updateStatusSigned m))) := by
  simp only [mutation]
  cases hany : (n.engine.state.getTicket m.ticketId).any (lifecycleAuthorized net turn n.localPeerId n.authority peer m) with
  | false => rw [updateStatusSigned_refused hany]; rfl
  | true =>
    rw [if_pos rfl, performed, Option.elim_some, perform_update]
    rcases hu : (Call.updateTicketState n.engine.policy turn.disk turn.timestamp m.ticketId m.newState
      (net.peerToString peer)).run (exec net.toEnv) n.engine with ⟨err | ticket, s'⟩
    · rw [updateStatusSigned_error hany hu]
    · rw [updateStatusSigned_ok hany hu]

theorem pushObjects_run (objects : List SignedObject) (s : TicketEngine) :
    ((pushObjects turn objects).run (exec net.toEnv) s).2 =
      (perform net.toEnv turn.disk (.applyRemoteObjects objects) s).2 := by
  obtain ⟨accepted, rejected, h⟩ := @pushObjects_ack net turn objects s
  rw [perform_apply, h]

theorem settle_run (response : TicketSyncResponse) :
    ((settle turn n.localPeerId response).run (exec net.toEnv) n.engine).2 =
      n.performed net turn (settled n.localPeerId response) := by
  have himport : ∀ ticket, ((((Call.importCanonicalTicket turn.disk ticket).attempt >>= fun _ => .ret ()) : Handler Unit).run
      (exec net.toEnv) n.engine).2 = n.performed net turn (some (.importCanonicalTicket ticket)) := by
    intro ticket
    rw [run_attempt_bind, performed, Option.elim_some, perform_import, Prog.run_ret]
  cases response with
  | mutationApplied ticket => exact himport ticket
  | mutationRejected kind message canonical =>
    cases canonical with
    | none => rfl
    | some ticket =>
      simp only [settle, settled]
      split
      · exact himport ticket
      · rfl
  | objects objects =>
    show (Prog.run (exec net.toEnv) ((Call.applyRemoteObjects turn.disk objects).attempt >>= fun _ => .ret ()) n.engine).2 = _
    rw [run_attempt_bind, settled, performed, Option.elim_some, perform_apply, Prog.run_ret]
  | _ => rfl

theorem respond_run (peer : PeerId) (request : TicketSyncRequest) :
    ((respond net turn n.localPeerId n.authority n.engine.policy peer request).run (exec net.toEnv) n.engine).2 =
      n.performed net turn (n.mutation net turn (.request peer request)) := by
  cases request with
  | pushTicket ticket => exact pushTicket_run peer ticket
  | updateStatusSigned m => exact updateStatusSigned_run peer m
  | pushObjects objects => exact pushObjects_run objects n.engine
  | getObjects ids =>
    show (Prog.run (exec net.toEnv) ((Call.getObjects turn.read ids).attempt >>= fun r => .ret _) n.engine).2 = n.engine
    rw [run_attempt_bind, Prog.run_ret, getObjects_run]
  | getHeads networkId ticketId => cases ticketId <;> rfl
  | _ => rfl

/-- An event does to the engine what its mutation does, or nothing. -/
theorem handle_engine (event : TicketProtocolEvent) :
    (n.handleTicketV2 net turn event).1.engine = n.performed net turn (n.mutation net turn event) := by
  cases event with
  | request peer request =>
    show (Prog.value (exec net.toEnv) (n.program net turn (.request peer request)) n.engine).2 = _
    rw [Prog.value_snd]
    exact (Prog.run_bind_ret _ some _ _).trans (respond_run peer request)
  | response peer requestId response =>
    simp only [handleTicketV2, mutation]
    cases hp : n.pendingSyncTickets.get? requestId with
    | none =>
      have hc : n.pendingSyncTickets.contains requestId = false := by
        rw [Std.ExtTreeMap.contains_eq_isSome_getElem?, ← Std.ExtTreeMap.get?_eq_getElem?, hp]; rfl
      simp [hc, performed]
    | some pending =>
      have hc : n.pendingSyncTickets.contains requestId = true := by
        rw [Std.ExtTreeMap.contains_eq_isSome_getElem?, ← Std.ExtTreeMap.get?_eq_getElem?, hp]; rfl
      show (Prog.value (exec net.toEnv) (n.program net turn (.response peer requestId response)) n.engine).2 = _
      rw [Prog.value_snd, program]
      simp only [hc, if_true]
      exact (Prog.run_bind_ret _ (fun _ => none) _ _).trans (settle_run response)
  | outboundFailure requestId error =>
    simp only [handleTicketV2]
    cases n.pendingSyncTickets.get? requestId <;> rfl
  | other => rfl

/-! ## Authorised changes -/

/-- Everything a signed lifecycle request claims has been checked: the network, the transport peer, the owner's
certificate for it with the right to manage tickets, the signature of the session, and that the ticket is one of
the node at the revision the operator saw. -/
structure Authorized (net : NodeEnv) (turn : Turn) (n : Node) (peer : PeerId) (m : TicketStateMutation)
    (ctx : AuthorityContext) (ticket : TicketRecord) : Prop where
  context : n.authority = some ctx
  network : m.networkId = ctx.networkId
  transport : m.operatorTransportPeerId = net.peerToString peer
  certNetwork : m.certificate.networkId = ctx.networkId
  certOwner : m.certificate.ownerId = ctx.ownerId
  certHost : m.certificate.hostEntity = ⟨net.crypto.blake3 peer.bytes⟩
  certKey : m.certificate.operatorKeyId = m.certificate.sessionPubkey.deriveId net.crypto
  manages : m.certificate.capabilities.has OperatorCapabilities.ticketManage = true
  unexpired : turn.now < m.certificate.expiresAt
  ownerSigned : net.crypto.verifyStrict ctx.ownerVerifier.bytes
    (domainDigest net.crypto operatorCertDomain m.certificate.tbs) m.certificate.signature.bytes = true
  sessionSigned : ∃ h : m.signature.length = 64, net.crypto.verifyStrict m.certificate.sessionPubkey.bytes
    (domainDigest net.crypto objectSigDomain m.signingPayload) ⟨m.signature.toArray, by simpa using h⟩ = true
  own : ticket.clientPeerId = n.localPeerId
  revision : ticket.revision = m.expectedRevision

theorem verify_isOk {crypto : Crypto} {c : OperatorSessionCertificate} {key : PublicKey} {now : UInt64}
    (h : (c.verify crypto key now).isOk = true) : now < c.expiresAt ∧
      crypto.verifyStrict key.bytes (domainDigest crypto operatorCertDomain c.tbs) c.signature.bytes = true := by
  unfold OperatorSessionCertificate.verify at h
  split at h
  · cases h
  · rename_i hn
    exact ⟨UInt64.not_le.1 hn, verifyDomain_isOk.1 h⟩

theorem verifyBytes_of_verifierOf {crypto : Crypto} {pk : PublicKey} {payload sig : List UInt8}
    (h : ((verifierOf crypto pk).bind fun v => verifyBytes crypto v payload sig).isOk = true) :
    ∃ hl : sig.length = 64, crypto.verifyStrict pk.bytes (domainDigest crypto objectSigDomain payload)
      ⟨sig.toArray, by simpa using hl⟩ = true := by
  unfold verifierOf at h
  split at h
  · exact verifyBytes_isOk h
  · cases h

theorem lifecycleAuthorized_spec {peer : PeerId} {m : TicketStateMutation} {ticket : TicketRecord}
    (h : lifecycleAuthorized net turn n.localPeerId n.authority peer m ticket = true) :
    ∃ ctx, Authorized net turn n peer m ctx ticket := by
  simp only [lifecycleAuthorized, Bool.and_eq_true, decide_eq_true_eq] at h
  obtain ⟨⟨⟨hauth, hsess⟩, hown⟩, hrev⟩ := h
  cases hctx : n.authority with
  | none => rw [hctx] at hauth; cases hauth
  | some ctx =>
    rw [hctx] at hauth
    simp only [Option.any_some, AuthorityContext.verifyCertificate, Bool.and_eq_true, decide_eq_true_eq] at hauth
    obtain ⟨⟨hnet, htrans⟩, ⟨⟨⟨⟨hcn, hco⟩, hch⟩, hck⟩, hcap⟩, hver⟩ := hauth
    obtain ⟨hexp, hsig⟩ := verify_isOk hver
    exact ⟨ctx, hctx, hnet, htrans, hcn, hco, hch, hck, hcap, hexp, hsig, verifyBytes_of_verifierOf hsess, hown, hrev⟩

/-! ## What leaves a ticket alone -/

section Tickets

variable {env : Env} {U : Set Event} {s : TicketEngine} {disk : Disk}

/-- A record that is not ahead of the ticket, or names no state it can move to, is imported without effect on the
state. -/
theorem import_stale {ticket : TicketRecord} {a : TicketAggregate} (hg : s.state.get ticket.id = some a)
    (h : ticket.revision ≤ a.record.revision ∨ ticket.state = a.record.state ∨
      a.record.state.canTransitionTo ticket.state = false) :
    (perform env disk (.importCanonicalTicket ticket) s).2.state = s.state := by
  obtain ⟨P, hcall, hP⟩ := import_call env s.policy disk ticket
  have hget : s.state.getTicket ticket.id = some a.record := by rw [TicketStateStore.getTicket, hg]; rfl
  rw [(perform_read (U := ∅) hcall (hP s.state)).1, hget, Prog.run_bind_ret]
  simp only
  split
  · rename_i hcond
    have hno : ¬ TicketReducer.Applicable s.state (Call.importedStatus ticket) := by
      rintro ⟨a', ha', hc⟩
      rw [hg] at ha'; cases ha'
      rcases h with h | h | h
      · exact absurd hcond.1 (UInt64.not_lt.2 h)
      · exact hcond.2 h
      · rw [h] at hc; cases hc
    rw [importStatus, Prog.run_bind_ret, run_appendTicketEvent]
    exact append_refused hno _ _
  · rfl

theorem import_get_of_ne {ticket : TicketRecord} {t : String} (hne : ticket.id ≠ t) :
    (perform env disk (.importCanonicalTicket ticket) s).2.state.get t = s.state.get t :=
  perform_get_of_ne (m := .importCanonicalTicket ticket) rfl fun heq => hne (Option.some_injective _ heq)

/-- Objects without a new event about a ticket leave it as it is. -/
theorem apply_get_of_not_about (hU : IdealIds U) (h : Reach env U s) {objects : List SignedObject}
    (ha : Admitted env U disk (.applyRemoteObjects objects) s) {t : String}
    (hnew : ∀ obj ∈ objects, ∀ e, decoded env obj = some e → s.graph.contains e.id = false → e.about t = false) :
    (perform env disk (.applyRemoteObjects objects) s).2.state.get t = s.state.get t := by
  have hstep : TicketEngine.Step env U s (perform env disk (.applyRemoteObjects objects) s).2 := ⟨disk, _, ha, rfl⟩
  have h' := h.step hstep
  rw [h'.synced hU, h.synced hU, (h'.sound hU).reduce_eq, (h.sound hU).reduce_eq]
  refine TicketReducer.replay_get_congr (EventGraph.nodup_sortKey _) (EventGraph.nodup_sortKey _) fun e he => ⟨?_, ?_⟩
  · intro hmem
    by_contra hn
    obtain ⟨obj, ho, hd, hc⟩ := remote_new hU (h.sound hU) rfl ha hmem hn
    rw [hnew obj ho e hd hc] at he
    cases he
  · exact (Step.sound hU hstep (h.sound hU)).2 e

end Tickets

/-! ## Harmless events -/

/-- The ticket exists and its client is this node. -/
def Owns (n : Node) (t : String) : Prop := (n.engine.state.getTicket t).map TicketRecord.clientPeerId = some n.localPeerId

/-- No object brings a new event about a ticket of the node. -/
def NoNews (net : NodeEnv) (n : Node) (objects : List SignedObject) : Prop :=
  ∀ obj ∈ objects, ∀ e, decoded net.toEnv obj = some e → n.engine.graph.contains e.id = false →
    ∀ t, e.about t = true → ¬ n.Owns t

/-- The record is not of a ticket of the node, or does not move it. -/
def Stale (n : Node) (ticket : TicketRecord) : Prop :=
  n.Owns ticket.id → ∀ curr, n.engine.state.getTicket ticket.id = some curr →
    ticket.revision ≤ curr.revision ∨ ticket.state = curr.state ∨ curr.state.canTransitionTo ticket.state = false

/-- The events that cannot move a ticket of the node without authority. -/
def Harmless (net : NodeEnv) (n : Node) : TicketProtocolEvent → Prop
  | .request _ (.pushObjects objects) => n.NoNews net objects
  | .response _ requestId (.objects objects) => n.pendingSyncTickets.contains requestId = true → n.NoNews net objects
  | .response _ requestId (.mutationApplied ticket) => n.pendingSyncTickets.contains requestId = true → n.Stale ticket
  | .response _ requestId (.mutationRejected _ _ (some ticket)) =>
    n.pendingSyncTickets.contains requestId = true → ticket.clientPeerId ≠ n.localPeerId → n.Stale ticket
  | _ => True

/-- The mutation of the event works on events in play. -/
def Takes (net : NodeEnv) (U : Set Event) (turn : Turn) (n : Node) (event : TicketProtocolEvent) : Prop :=
  ∀ m, n.mutation net turn event = some m → Admitted net.toEnv U turn.disk m n.engine

/-- The node sends a request, or handles a harmless event. -/
inductive Step (net : NodeEnv) (U : Set Event) : Node → Node → Prop
  | send {n : Node} (requestId : OutboundRequestId) (pending : PendingTicketSync) :
      Step net U n { n with pendingSyncTickets := n.pendingSyncTickets.insert requestId pending }
  | receive {n : Node} (turn : Turn) (event : TicketProtocolEvent) (ht : n.Takes net U turn event)
      (hh : n.Harmless net event) : Step net U n (n.handleTicketV2 net turn event).1

variable {U : Set Event} {n' : Node} {event : TicketProtocolEvent}

theorem handle_reach (ht : n.Takes net U turn event) (h : Reach net.toEnv U n.engine) :
    Reach net.toEnv U (n.handleTicketV2 net turn event).1.engine := by
  rw [handle_engine]
  cases hm : n.mutation net turn event with
  | none => exact h
  | some m => exact h.step ⟨turn.disk, m, ht m hm, rfl⟩

theorem Step.reach (hs : Step net U n n') (h : Reach net.toEnv U n.engine) : Reach net.toEnv U n'.engine := by
  cases hs with
  | send => exact h
  | receive turn event ht hh => exact handle_reach ht h

/-- What a response comes to leaves the tickets of the node alone, if the response is harmless. -/
theorem settled_keeps (hU : IdealIds U) (h : Reach net.toEnv U n.engine) {peer : PeerId} {requestId : OutboundRequestId}
    {response : TicketSyncResponse} {m : Mutation} (hp : n.pendingSyncTickets.contains requestId = true)
    (hm : settled n.localPeerId response = some m) (ha : Admitted net.toEnv U turn.disk m n.engine)
    (hh : n.Harmless net (.response peer requestId response)) {t : String} {a : TicketAggregate}
    (hget : n.engine.state.get t = some a) (hown : n.Owns t) :
    (perform net.toEnv turn.disk m n.engine).2.state.get t = some a := by
  have himport : ∀ ticket, n.Stale ticket →
      (perform net.toEnv turn.disk (.importCanonicalTicket ticket) n.engine).2.state.get t = some a := by
    intro ticket hst
    by_cases hid : ticket.id = t
    · subst hid
      rw [import_stale hget (hst hown a.record (by rw [TicketStateStore.getTicket, hget]; rfl)), hget]
    · rw [import_get_of_ne hid, hget]
  cases response with
  | mutationApplied ticket => cases hm; exact himport ticket (hh hp)
  | mutationRejected kind message canonical =>
    cases canonical with
    | none => cases hm
    | some ticket =>
      simp only [settled] at hm
      split at hm
      · rename_i hc
        cases hm
        exact himport ticket (hh hp hc)
      · cases hm
  | objects objects =>
    cases hm
    rw [apply_get_of_not_about hU h ha fun obj ho e hd hc => ?_, hget]
    exact Bool.eq_false_iff.2 fun hab => hh hp obj ho e hd hc t hab hown
  | _ => cases hm

/-- One event, from a reachable engine. -/
theorem handle_keeps (hU : IdealIds U) (h : Reach net.toEnv U n.engine) (ht : n.Takes net U turn event)
    (hh : n.Harmless net event) {t : String} {a : TicketAggregate} (hget : n.engine.state.get t = some a)
    (hown : a.record.clientPeerId = n.localPeerId) :
    (n.handleTicketV2 net turn event).1.engine.state.get t = some a ∨
    ∃ peer m ctx, event = .request peer (.updateStatusSigned m) ∧ m.ticketId = t ∧
      Authorized net turn n peer m ctx a.record := by
  have htick : n.engine.state.getTicket t = some a.record := by rw [TicketStateStore.getTicket, hget]; rfl
  have howns : n.Owns t := by rw [Owns, htick, Option.map_some, hown]
  rw [handle_engine]
  cases hm : n.mutation net turn event with
  | none => exact .inl hget
  | some m =>
    have hadm := ht m hm
    show (perform net.toEnv turn.disk m n.engine).2.state.get t = some a ∨ _
    cases event with
    | request peer request =>
      cases request with
      | pushTicket ticket =>
        left
        simp only [mutation] at hm
        split at hm
        · rename_i hpub
          cases hm
          -- a ticket that can be published is not there yet
          have hne : ticket.id ≠ t := by
            rintro rfl
            simp [mayPublish, htick] at hpub
          rw [import_get_of_ne hne, hget]
        · cases hm
      | updateStatusSigned sm =>
        simp only [mutation] at hm
        split at hm
        · rename_i hauth
          cases hm
          by_cases hid : sm.ticketId = t
          · right
            rw [hid, htick, Option.any_some] at hauth
            obtain ⟨ctx, hctx⟩ := lifecycleAuthorized_spec hauth
            exact ⟨peer, sm, ctx, rfl, hid, hctx⟩
          · left
            rw [perform_get_of_ne (m := .updateTicketState turn.timestamp sm.ticketId sm.newState (net.peerToString peer))
              rfl fun heq => hid (Option.some_injective _ heq), hget]
        · cases hm
      | pushObjects objects =>
        left
        cases hm
        rw [apply_get_of_not_about hU h hadm fun obj ho e hd hc => ?_, hget]
        exact Bool.eq_false_iff.2 fun hab => hh obj ho e hd hc t hab howns
      | _ => cases hm
    | response peer requestId response =>
      left
      simp only [mutation] at hm
      split at hm
      · rename_i hp
        exact settled_keeps hU h hp hm hadm hh hget howns
      · cases hm
    | _ => cases hm

theorem steps_reach (hr : Relation.ReflTransGen (Step net U) n n') (h : Reach net.toEnv U n.engine) :
    Reach net.toEnv U n'.engine := by
  induction hr with
  | refl => exact h
  | tail _ hs ih => exact hs.reach ih

/-- Lifecycle authority. In every run of harmless events, an event leaves a ticket of the node as it is, or it is
a signed lifecycle request for the ticket that has passed every check. -/
theorem lifecycle_authority (hU : IdealIds U) (h : Reach net.toEnv U n.engine)
    (hr : Relation.ReflTransGen (Step net U) n n') (ht : n'.Takes net U turn event) (hh : n'.Harmless net event)
    {t : String} {a : TicketAggregate} (hget : n'.engine.state.get t = some a)
    (hown : a.record.clientPeerId = n'.localPeerId) :
    (n'.handleTicketV2 net turn event).1.engine.state.get t = some a ∨
    ∃ peer m ctx, event = .request peer (.updateStatusSigned m) ∧ m.ticketId = t ∧
      Authorized net turn n' peer m ctx a.record :=
  handle_keeps hU (steps_reach hr h) ht hh hget hown

section Sample

/-- A ticket of the node; a closure by a stranger; the closure the node writes for an imported record; and the
creation of a stranger's own ticket. -/
def homeTable : EventTable where
  bodies :=
    [⟨[], 10, 1, .ticket (.created "T-aaaaaaaa" "printer" "on fire" .high "home")⟩,
     ⟨[idAt 0], 20, 2, .ticket (.statusChanged "T-aaaaaaaa" .closed "mallory" none)⟩,
     ⟨[idAt 0], 30, 2, .ticket (.statusChanged "T-aaaaaaaa" .closed "mallory" none)⟩,
     ⟨[idAt 0], 40, 2, .ticket (.created "T-bbbbbbbb" "mouse" "gone" .normal "mallory")⟩]
  author := fun i => (if i = 1 then mallory else alice).publicKey tagCrypto

def homeNet : NodeEnv where
  toEnv := homeTable.env
  peerToString := fun peer => String.ofList (peer.bytes.map fun b => Char.ofNat b.toNat)
  certificateFromCbor := fun _ => none

def malloryPeer : PeerId := ⟨utf8 "mallory"⟩

/-- The engine that has created the ticket. -/
def homeEngine : Reached homeTable :=
  (Reached.start homeTable).after (.createTicket "aaaaaaaa" 10 "printer" "on fire" .high "home")

/-- The node `home` with its own ticket, no owner pinned, and one request under way. -/
def home : Node where
  localPeerId := "home"
  authority := none
  engine := homeEngine.engine
  pendingSyncTickets := Std.ExtTreeMap.empty.insert 7 ⟨none⟩
  outbox := OrdSet.empty

def quietTurn : Turn where
  now := 100
  timestamp := 100
  disk := diskOk
  read := fun _ => none
  removeFails := false

/-- The record by which a stranger closes the ticket. -/
def forgedRecord : TicketRecord :=
  { id := "T-aaaaaaaa", title := "", description := "", state := .closed, priority := .normal, clientPeerId := "mallory",
    revision := 2, createdAt := 0, updatedAt := 30, closedAt := none }

/-- The ways in: an object signed with a key of the stranger's own, pushed or sent as a response, and the record of
a response, whether it confirms a request or rejects it. -/
def forgedEvents : List TicketProtocolEvent :=
  [.request malloryPeer (.pushObjects [objectAt mallory 1 20]),
   .response malloryPeer 7 (.objects [objectAt mallory 1 20]),
   .response malloryPeer 7 (.mutationApplied forgedRecord),
   .response malloryPeer 7 (.mutationRejected .permanent "" (some forgedRecord))]

/-- Each of them closes the ticket of a node that no operator has any authority over. -/
theorem lifecycle_bypassed :
    IdealIds homeTable.inPlay ∧ Reach homeNet.toEnv homeTable.inPlay home.engine ∧
    (home.engine.state.getTicket "T-aaaaaaaa").map (fun r => (r.clientPeerId, r.state)) = some (home.localPeerId, .«open») ∧
    ∀ event ∈ forgedEvents,
      ((home.handleTicketV2 homeNet quietTurn event).1.engine.state.getTicket "T-aaaaaaaa").map TicketRecord.state =
        some .closed :=
  ⟨homeTable.idealIds, homeEngine.reach, by decide +kernel, by decide +kernel⟩

/-- A stranger publishes a ticket of their own. -/
def publishEvent : TicketProtocolEvent :=
  .request malloryPeer (.pushTicket
    { id := "T-bbbbbbbb", title := "mouse", description := "gone", state := .«open», priority := .normal,
      clientPeerId := "mallory", revision := 1, createdAt := 40, updatedAt := 40, closedAt := none })

/-- The theorem at the sample: the stranger's ticket is taken, the node's own stays as it is. -/
theorem lifecycle_authority_publish :
    let node := (home.handleTicketV2 homeNet quietTurn publishEvent).1
    (node.engine.state.getTicket "T-bbbbbbbb").isSome ∧
    ∃ a, home.engine.state.get "T-aaaaaaaa" = some a ∧ node.engine.state.get "T-aaaaaaaa" = some a := by
  refine ⟨by decide +kernel, ?_⟩
  have hrec : (home.engine.state.get "T-aaaaaaaa").any (fun a => a.record.clientPeerId = home.localPeerId) := by
    decide +kernel
  obtain ⟨a, ha, hown⟩ := (Option.any_eq_true _ _).1 hrec
  refine ⟨a, ha, ?_⟩
  have htakes : home.Takes homeNet homeTable.inPlay quietTurn publishEvent := by
    have hm : ∀ m ∈ home.mutation homeNet quietTurn publishEvent,
        Admitted homeNet.toEnv homeTable.inPlay quietTurn.disk m home.engine := by decide +kernel
    exact hm
  rcases lifecycle_authority homeTable.idealIds homeEngine.reach .refl htakes trivial ha (of_decide_eq_true hown) with
    hkeep | ⟨_, _, _, hev, _⟩
  · exact hkeep
  · cases hev

end Sample

end Node

end Fortiq
