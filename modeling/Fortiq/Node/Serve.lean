/-
What a node serves. The two requests that read tickets filter what they return by the peer that asks; a rejected
lifecycle request returns the record of the ticket to whoever sent it, and objects are returned by their ids
alone. So ticket data goes to entitled peers only, exactly for the requests that do not name a ticket or an object
of somebody else on one of these two ways.
-/
import Fortiq.Node.Lifecycle

namespace Fortiq

/-! ## What a response holds -/

namespace TicketSyncResponse

/-- The ticket records in a response. -/
def records : TicketSyncResponse → List TicketRecord
  | .tickets list => list
  | .ticket record => record.toList
  | .mutationApplied record => [record]
  | .mutationRejected _ _ canonical => canonical.toList
  | _ => []

/-- The objects in a response. -/
def signedObjects : TicketSyncResponse → List SignedObject
  | .objects list => list
  | _ => []

end TicketSyncResponse

namespace Node

open TicketEngine

section Entitlement

variable (net : NodeEnv) (turn : Turn) (n : Node) (peer : PeerId)

/-- The response to a request. -/
def response (request : TicketSyncRequest) : TicketSyncResponse :=
  ((respond net turn n.localPeerId n.authority n.engine.policy peer request).value (exec net.toEnv) n.engine).1

/-- The request carries an operator's proof or certificate that verifies for the peer. -/
def showsAuthority : TicketSyncRequest → Bool
  | .getTickets proof => canRead net turn n.authority peer proof "*"
  | .getTicket ticketId proof => canRead net turn n.authority peer proof ticketId
  | .updateStatusSigned mutation => n.authority.any fun authority =>
      authority.verifyCertificate net.crypto peer mutation.certificate OperatorCapabilities.ticketManage turn.now
  | _ => false

/-- Tickets of this client may be served: the client is the peer, or this node when the request shows authority. -/
def Entitled (request : TicketSyncRequest) (clientPeerId : String) : Prop :=
  clientPeerId = net.peerToString peer ∨ (clientPeerId = n.localPeerId ∧ n.showsAuthority net turn peer request = true)

/-- The object carries an event of a ticket that may be served, or no ticket's event. -/
def ObjectEntitled (request : TicketSyncRequest) (obj : SignedObject) : Prop :=
  ∀ e t, decoded net.toEnv obj = some e → e.ticketId = some t →
    ∃ record, n.engine.state.getTicket t = some record ∧ n.Entitled net turn peer request record.clientPeerId

/-- Everything in the response may be served. -/
def ServesEntitled (request : TicketSyncRequest) : Prop :=
  (∀ record ∈ (n.response net turn peer request).records, n.Entitled net turn peer request record.clientPeerId) ∧
    ∀ obj ∈ (n.response net turn peer request).signedObjects, n.ObjectEntitled net turn peer request obj

/-- A lifecycle request names a ticket that may be served, and a request for objects names no stored object of
another ticket, unless the files cannot all be read. -/
def NamesEntitled : TicketSyncRequest → Prop
  | .updateStatusSigned mutation => ∀ record, n.engine.state.getTicket mutation.ticketId = some record →
      n.Entitled net turn peer (.updateStatusSigned mutation) record.clientPeerId
  | .getObjects ids => (∃ id ∈ ids, ∃ err, n.engine.store.get net.crypto turn.read id = .error err) ∨
      ∀ id ∈ ids, ∀ obj, n.engine.store.get net.crypto turn.read id = .ok (some obj) →
        n.ObjectEntitled net turn peer (.getObjects ids) obj
  | _ => True

end Entitlement

variable {net : NodeEnv} {turn : Turn} {n : Node} {peer : PeerId}

/-- A request is answered with its response. -/
theorem handle_sends (request : TicketSyncRequest) :
    (n.handleTicketV2 net turn (.request peer request)).2 = some (.sendResponse (n.response net turn peer request)) := by
  simp only [handleTicketV2, program, response, Prog.value, Prog.run_bind]
  rcases (respond net turn n.localPeerId n.authority n.engine.policy peer request).run (exec net.toEnv) n.engine with
    ⟨err | r, s⟩
  · cases err
  · rfl

theorem response_eq {request : TicketSyncRequest} {r : TicketSyncResponse} {s : TicketEngine}
    (h : (respond net turn n.localPeerId n.authority n.engine.policy peer request).run (exec net.toEnv) n.engine = (.ok r, s)) :
    n.response net turn peer request = r := by
  simp only [response, Prog.value, h]

/-- A response without objects serves what its records say. -/
theorem serves_of_records {request : TicketSyncRequest} {r : TicketSyncResponse} {s : TicketEngine}
    (h : (respond net turn n.localPeerId n.authority n.engine.policy peer request).run (exec net.toEnv) n.engine = (.ok r, s))
    (ho : r.signedObjects = []) (hrec : ∀ record ∈ r.records, n.Entitled net turn peer request record.clientPeerId) :
    n.ServesEntitled net turn peer request := by
  rw [ServesEntitled, response_eq h, ho]
  exact ⟨hrec, by simp⟩

/-! ## Requests that read tickets -/

theorem entitled_of_mayRead {request : TicketSyncRequest} {record : TicketRecord} {read : Bool}
    (hshow : n.showsAuthority net turn peer request = read) (h : mayRead net n.localPeerId peer read record = true) :
    n.Entitled net turn peer request record.clientPeerId := by
  subst hshow
  simpa [mayRead, Entitled] using h

theorem serves_getTickets (proof : Option OperatorSessionProof) : n.ServesEntitled net turn peer (.getTickets proof) := by
  refine serves_of_records rfl rfl fun record hm => ?_
  exact entitled_of_mayRead rfl (List.mem_filter.1 hm).2

theorem serves_getTicket (t : String) (proof : Option OperatorSessionProof) :
    n.ServesEntitled net turn peer (.getTicket t proof) := by
  refine serves_of_records rfl rfl fun record hm => ?_
  exact entitled_of_mayRead rfl (Option.filter_eq_some_iff.1 (Option.mem_toList.1 hm)).2

/-! ## Requests that change tickets -/

section Changes

variable {env : Env} {s : TicketEngine}

/-- A creation makes a ticket of its client, if it makes one. -/
theorem append_created_client {t title description client : String} {priority : TicketPriority} {ts : UInt64} {disk : Disk}
    (hg : s.state.get t = none) {record : TicketRecord}
    (h : (appendTicketEvent env (.created t title description priority client) ts disk s).2.state.getTicket t = some record) :
    record.clientPeerId = client := by
  rw [TicketStateStore.getTicket] at h
  rcases @append_state env (.created t title description priority client) ts disk s with hs | ⟨e, hp, -, hs⟩
  · rw [hs, hg] at h; cases h
  · rw [hs] at h
    rcases @TicketReducer.get_step_absent env _ _ hg e with ⟨-, hnone⟩ | ⟨_, _, _, _, hp', hmade⟩
    · rw [hnone] at h; cases h
    · rw [hp] at hp'
      cases hp'
      rw [hmade] at h
      cases h
      rfl

end Changes

/-- What `PushTicket` answers with belongs to the peer: a rejection has no record, and a failed import has left
nothing or a ticket of the peer. -/
theorem serves_pushTicket (ticket : TicketRecord) : n.ServesEntitled net turn peer (.pushTicket ticket) := by
  cases hp : mayPublish net peer ticket (n.engine.state.getTicket ticket.id) with
  | false => exact serves_of_records (pushTicket_refused hp) rfl (by simp [TicketSyncResponse.records])
  | true =>
    have hpub := hp
    simp only [mayPublish, Bool.and_eq_true, decide_eq_true_eq] at hpub
    obtain ⟨⟨⟨⟨hclient, hopen⟩, -⟩, -⟩, habsent⟩ := hpub
    rcases hi : (Call.importCanonicalTicket turn.disk ticket).run (exec net.toEnv) n.engine with ⟨err | u, s'⟩
    · refine serves_of_records (pushTicket_error hp hi) rfl fun record hm => ?_
      have habsent : n.engine.state.get ticket.id = none := by simpa [TicketStateStore.getTicket] using habsent
      have hget : s'.state.getTicket ticket.id = some record := Option.mem_toList.1 hm
      have himport : s' = (appendTicketEvent net.toEnv (importedCreation ticket) ticket.createdAt turn.disk n.engine).2 := by
        refine (congrArg Prod.snd hi).symm.trans ?_
        rw [← perform_import, (@import_absent net.toEnv ∅ n.engine ticket habsent turn.disk).1,
          Prog.run_bind_ret, Prog.run_bind, run_appendTicketEvent]
        rcases appendTicketEvent net.toEnv (importedCreation ticket) ticket.createdAt turn.disk n.engine with ⟨err | x, s'⟩
        · rfl
        · simp [importRest, hopen]
      rw [himport] at hget
      exact .inl (by rw [append_created_client habsent hget, hclient])
    · exact serves_of_records (pushTicket_ok hp hi) rfl (by simpa [TicketSyncResponse.records] using .inl hclient)

/-- A lifecycle request gets the record of the ticket it names, whoever sends it; only with authority more than
that. -/
theorem serves_updateStatusSigned (m : TicketStateMutation) :
    n.ServesEntitled net turn peer (.updateStatusSigned m) ↔ n.NamesEntitled net turn peer (.updateStatusSigned m) := by
  cases hany : (n.engine.state.getTicket m.ticketId).any (lifecycleAuthorized net turn n.localPeerId n.authority peer m) with
  | false =>
    rw [ServesEntitled, response_eq (updateStatusSigned_refused hany), NamesEntitled]
    simp [TicketSyncResponse.records, TicketSyncResponse.signedObjects]
  | true =>
    obtain ⟨current, hcur, hauth⟩ := (Option.any_eq_true _ _).1 hany
    have hent : n.Entitled net turn peer (.updateStatusSigned m) current.clientPeerId := by
      obtain ⟨ctx, hctx⟩ := lifecycleAuthorized_spec hauth
      simp only [lifecycleAuthorized, Bool.and_eq_true, hctx.context, Option.any_some] at hauth
      exact .inr ⟨hctx.own, by simpa [showsAuthority, hctx.context] using hauth.1.1.1.2⟩
    refine iff_of_true ?_ fun record hrec => ?_
    · rcases hup : (Call.updateTicketState n.engine.policy turn.disk turn.timestamp m.ticketId m.newState
        (net.peerToString peer)).run (exec net.toEnv) n.engine with ⟨err | ticket, s'⟩
      · exact serves_of_records (updateStatusSigned_error hany hup) rfl (by simpa [TicketSyncResponse.records, hcur] using hent)
      · obtain ⟨-, -, cur, hc, hid⟩ := updateTicketState_ok hup
        rw [hcur] at hc; cases hc
        have hclient : ticket.clientPeerId = current.clientPeerId := congrArg TicketIdentity.clientPeerId hid
        exact serves_of_records (updateStatusSigned_ok hany hup) rfl
          (by simpa [TicketSyncResponse.records, hclient] using hent)
    · rw [hcur] at hrec; cases hrec; exact hent

/-! ## Requests for objects -/

/-- The objects of a list of ids: none if a file cannot be read, and else every one that is there. -/
theorem getObjects_cases (env : Env) (read : ObjectId → Option String) (s : TicketEngine) : ∀ ids : List ObjectId,
    ((∃ id ∈ ids, ∃ err, s.store.get env.crypto read id = .error err) ∧
      ∃ err, ((Call.getObjects read ids).run (exec env) s).1 = .error err) ∨
    ∃ objects, ((Call.getObjects read ids).run (exec env) s).1 = .ok objects ∧
      (∀ id ∈ ids, ∀ err, s.store.get env.crypto read id ≠ .error err) ∧
      ∀ obj, obj ∈ objects ↔ ∃ id ∈ ids, s.store.get env.crypto read id = .ok (some obj)
  | [] => .inr ⟨[], rfl, by simp, by simp⟩
  | id :: ids => by
    have hrun : (Call.getObjects read (id :: ids)).run (exec env) s = Prog.andThen (exec env)
        (fun obj => Call.getObjects read ids >>= fun objects => .ret (obj.toList ++ objects))
        (s.store.get env.crypto read id, s) := by
      rw [← @Prog.run_ofExcept _ Action.Ret Error _ _ (exec env) (s.store.get env.crypto read id) s, ← Prog.run_bind]
      rfl
    cases hget : s.store.get env.crypto read id with
    | error err =>
      rw [hrun, hget]
      exact .inl ⟨⟨id, List.mem_cons_self .., err, hget⟩, err, rfl⟩
    | ok obj =>
      rw [hrun, hget, Prog.andThen_ok, Prog.run_bind]
      rcases getObjects_cases env read s ids with ⟨⟨i, hi, err, he⟩, err', hr⟩ | ⟨objects, hr, hno, hmem⟩
      · refine .inl ⟨⟨i, List.mem_cons_of_mem _ hi, err, he⟩, err', ?_⟩
        rcases hx : (Call.getObjects read ids).run (exec env) s with ⟨r, s'⟩
        rw [hx] at hr
        obtain rfl : r = .error err' := hr
        rfl
      · refine .inr ⟨obj.toList ++ objects, ?_, ?_, fun o => ?_⟩
        · rcases hx : (Call.getObjects read ids).run (exec env) s with ⟨r, s'⟩
          rw [hx] at hr
          obtain rfl : r = .ok objects := hr
          rfl
        · rw [List.forall_mem_cons]
          refine ⟨fun err he => ?_, hno⟩
          rw [hget] at he; cases he
        · simp only [List.mem_append, hmem, Option.mem_toList, List.exists_mem_cons_iff, hget, Except.ok.injEq]

theorem serves_getObjects (ids : List ObjectId) :
    n.ServesEntitled net turn peer (.getObjects ids) ↔ n.NamesEntitled net turn peer (.getObjects ids) := by
  have hrun : (respond net turn n.localPeerId n.authority n.engine.policy peer (.getObjects ids)).run (exec net.toEnv)
      n.engine = Prog.run (exec net.toEnv) ((Call.getObjects turn.read ids).attempt >>= fun r =>
        .ret (.objects (r.toOption.getD []))) n.engine := rfl
  rw [run_attempt_bind, Prog.run_ret] at hrun
  rw [ServesEntitled, response_eq hrun, NamesEntitled]
  simp only [TicketSyncResponse.records, TicketSyncResponse.signedObjects, List.not_mem_nil, false_imp_iff, implies_true,
    true_and]
  rcases getObjects_cases net.toEnv turn.read n.engine ids with ⟨hfail, err, hr⟩ | ⟨objects, hr, hno, hmem⟩
  · rw [hr]
    exact iff_of_true (by simp [Except.toOption]) (.inl hfail)
  · rw [hr]
    simp only [Except.toOption, Option.getD_some, hmem]
    constructor
    · exact fun h => .inr fun id hid obj hget => h obj ⟨id, hid, hget⟩
    · rintro (⟨id, hid, err, he⟩ | h) obj ⟨i, hi, hget⟩
      · exact absurd he (hno id hid err)
      · exact h i hi obj hget

/-- Ticket data is served to entitled peers only, exactly if a lifecycle request names a ticket the peer is entitled
to, and a request for objects names no readable object of a ticket it is not entitled to. -/
theorem serves_entitled_iff (request : TicketSyncRequest) :
    (∃ r, (n.handleTicketV2 net turn (.request peer request)).2 = some (.sendResponse r) ∧
      (∀ record ∈ r.records, n.Entitled net turn peer request record.clientPeerId) ∧
      ∀ obj ∈ r.signedObjects, n.ObjectEntitled net turn peer request obj) ↔
    n.NamesEntitled net turn peer request := by
  have hserves : (∃ r, (n.handleTicketV2 net turn (.request peer request)).2 = some (.sendResponse r) ∧
      (∀ record ∈ r.records, n.Entitled net turn peer request record.clientPeerId) ∧
      ∀ obj ∈ r.signedObjects, n.ObjectEntitled net turn peer request obj) ↔ n.ServesEntitled net turn peer request := by
    rw [handle_sends]
    constructor
    · rintro ⟨r, hr, h⟩; cases hr; exact h
    · exact fun h => ⟨_, rfl, h⟩
  rw [hserves]
  cases request with
  | getTickets proof => exact iff_of_true (serves_getTickets proof) trivial
  | getTicket t proof => exact iff_of_true (serves_getTicket t proof) trivial
  | pushTicket ticket => exact iff_of_true (serves_pushTicket ticket) trivial
  | updateStatusSigned m => exact serves_updateStatusSigned m
  | getObjects ids => exact serves_getObjects ids
  | getHeads networkId ticketId =>
    refine iff_of_true ?_ trivial
    cases ticketId <;> exact serves_of_records rfl rfl (by simp [TicketSyncResponse.records])
  | pushObjects objects =>
    refine iff_of_true ?_ trivial
    obtain ⟨accepted, rejected, hrun⟩ := @pushObjects_ack net turn objects n.engine
    exact serves_of_records hrun rfl (by simp [TicketSyncResponse.records])

section Sample

/-- A lifecycle request with nothing to it but the id of a ticket. -/
def blankMutation : TicketStateMutation where
  networkId := ⟨Vector.replicate 32 0⟩
  ticketId := "T-aaaaaaaa"
  expectedRevision := 0
  newState := .closed
  requestId := Vector.replicate 16 0
  operatorTransportPeerId := ""
  certificate :=
    { networkId := ⟨Vector.replicate 32 0⟩, ownerId := ⟨Vector.replicate 32 0⟩, hostEntity := ⟨Vector.replicate 32 0⟩,
      operatorKeyId := ⟨Vector.replicate 32 0⟩, sessionPubkey := ⟨Vector.replicate 32 0⟩, capabilities := ⟨0⟩,
      createdAt := 0, expiresAt := 0, signature := ⟨Vector.replicate 64 0⟩ }
  signature := []

/-- A stranger asks for nothing it may read and gets the record of the node's ticket, and with its heads the object
of its creation; `GetTicket` gives neither. -/
theorem serves_stranger :
    Reach homeNet.toEnv homeTable.inPlay home.engine ∧
    (home.response homeNet quietTurn malloryPeer (.updateStatusSigned blankMutation)).records.map
      (fun r => (r.id, r.title, r.clientPeerId)) = [("T-aaaaaaaa", "printer", "home")] ∧
    (home.response homeNet quietTurn malloryPeer (.getHeads ⟨Vector.replicate 32 0⟩ none)) = .heads [idAt 0] ∧
    (home.response homeNet quietTurn malloryPeer (.getObjects [idAt 0])).signedObjects = [objectAt alice 0 10] ∧
    ((decoded homeNet.toEnv (objectAt alice 0 10)).bind Event.ticketId) = some "T-aaaaaaaa" ∧
    home.response homeNet quietTurn malloryPeer (.getTicket "T-aaaaaaaa" none) = .ticket none ∧
    homeNet.peerToString malloryPeer = "mallory" ∧
    home.showsAuthority homeNet quietTurn malloryPeer (.updateStatusSigned blankMutation) = false :=
  ⟨homeEngine.reach, by decide +kernel, by decide +kernel, by decide +kernel, by decide +kernel, by decide +kernel,
    by decide +kernel, by decide +kernel⟩

end Sample

end Node

end Fortiq
