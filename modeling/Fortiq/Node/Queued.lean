/-
No queued request is lost. Every id that is on its way, in a map, in a task or in a file, is the id of one record
that was queued; requests travel under the ids of requests and files under those of files. So what removes the record
of a request is a terminal response to a request that was sent under its id, and until then a connection to its peer
sends it again.
-/
import Fortiq.Node.Outbox

namespace Fortiq

open KeyOrder

namespace OutboxState

variable {env : OutboxEnv} {s t u : OutboxState} {peer : PeerId} {request : TicketSyncRequest} {id : String}
  {outboxId : Option String} {record : OutboxRecord}

/-! ## The invariant -/

/-- The request is queued for the peer under the id. -/
def Queued (env : OutboxEnv) (s : OutboxState) (peer : PeerId) (request : TicketSyncRequest) (id : String) : Prop :=
  ∃ record ∈ s.enqueued, record.id = id ∧ record.kind = ticketSync ∧ record.peerId = env.peerToString peer ∧
    env.requestToJson request = .ok record.payload

/-- A file is queued under the id. -/
def QueuedFile (s : OutboxState) (id : String) : Prop := ∃ record ∈ s.enqueued, record.id = id ∧ record.kind = fileSend

theorem Queued.mono (h : s.Queued env peer request id) (hle : ∀ r ∈ s.enqueued, r ∈ t.enqueued) :
    t.Queued env peer request id := by
  obtain ⟨r, hr, hrest⟩ := h
  exact ⟨r, hle r hr, hrest⟩

theorem QueuedFile.mono (h : s.QueuedFile id) (hle : ∀ r ∈ s.enqueued, r ∈ t.enqueued) : t.QueuedFile id := by
  obtain ⟨r, hr, hrest⟩ := h
  exact ⟨r, hle r hr, hrest⟩

/-- What is on its way under an id was queued under it. -/
structure Inv (env : OutboxEnv) (s : OutboxState) : Prop where
  unique : (s.enqueued.map OutboxRecord.id).Nodup
  proper : ∀ r ∈ s.enqueued, Proper env r
  files : ∀ id bytes, s.outbox[id]? = some bytes → ∃ r ∈ s.enqueued, r.id = id ∧ env.recordToJson r = .ok bytes
  sent : ∀ x ∈ s.sent, ∀ id ∈ x.outboxId, s.Queued env x.peer x.request id
  pending : ∀ requestId pending, s.pendingSyncTickets[requestId]? = some pending →
    ∃ x ∈ s.sent, x.requestId = requestId ∧ x.outboxId = pending.outboxId
  dials : ∀ d ∈ s.pendingSyncDials, ∀ id ∈ d.outboxId, s.Queued env d.peer d.request id
  fileDials : ∀ d ∈ s.pendingFileDials, ∀ id ∈ d.outboxId, s.QueuedFile id
  fileTasks : ∀ t ∈ s.fileTasks, ∀ id ∈ t, s.QueuedFile id

/-- An id belongs to one record. -/
theorem Inv.eq_of_id (h : s.Inv env) {r r' : OutboxRecord} (hr : r ∈ s.enqueued) (hr' : r' ∈ s.enqueued)
    (hid : r.id = r'.id) : r = r' := List.inj_on_of_nodup_map h.unique hr hr' hid

/-- The id of a file is not the id of a request. -/
theorem Inv.ne_of_queuedFile (h : s.Inv env) (hf : s.QueuedFile id) {r : OutboxRecord} (hr : r ∈ s.enqueued)
    (hkind : r.kind = ticketSync) : r.id ≠ id := by
  rintro rfl
  obtain ⟨r', hr', hid, hkind'⟩ := hf
  obtain rfl := h.eq_of_id hr' hr hid
  rw [hkind] at hkind'
  exact absurd hkind' (by decide)

/-- One state after another without loss: what was queued, sent and answered stays, the files of requests stay, and
what is newly queued has its file. -/
structure Advances (env : OutboxEnv) (s t : OutboxState) : Prop where
  inv : t.Inv env
  enqueued : ∀ r ∈ s.enqueued, r ∈ t.enqueued
  sent : ∃ new, t.sent = s.sent ++ new
  answered : ∀ x ∈ s.answered, x ∈ t.answered
  outbox : ∀ r ∈ s.enqueued, r.kind = ticketSync → t.outbox[r.id]? = s.outbox[r.id]?
  added : ∀ r ∈ t.enqueued, r.kind = ticketSync → r ∈ s.enqueued ∨ t.OnDisk env r

namespace Advances

theorem refl (h : s.Inv env) : s.Advances env s :=
  ⟨h, fun _ hr => hr, ⟨[], (List.append_nil _).symm⟩, fun _ hx => hx, fun _ _ _ => rfl, fun _ hr _ => .inl hr⟩

theorem onDisk (h : s.Advances env t) (hr : record ∈ s.enqueued) (hkind : record.kind = ticketSync)
    (hd : s.OnDisk env record) : t.OnDisk env record := by
  obtain ⟨bytes, hb, hd⟩ := hd
  exact ⟨bytes, hb, (h.outbox record hr hkind).trans hd⟩

theorem trans (h : s.Advances env t) (h' : t.Advances env u) : s.Advances env u where
  inv := h'.inv
  enqueued := fun r hr => h'.enqueued r (h.enqueued r hr)
  sent := by
    obtain ⟨new, hnew⟩ := h.sent
    obtain ⟨new', hnew'⟩ := h'.sent
    exact ⟨new ++ new', by rw [hnew', hnew, List.append_assoc]⟩
  answered := fun x hx => h'.answered x (h.answered x hx)
  outbox := fun r hr hkind => (h'.outbox r (h.enqueued r hr) hkind).trans (h.outbox r hr hkind)
  added := fun r hr hkind => by
    rcases h'.added r hr hkind with ht | hd
    · exact (h.added r ht hkind).imp_right (h'.onDisk ht hkind)
    · exact .inr hd

/-- A fold of steps that lose nothing, each on something that is known of the queue. -/
theorem foldl {α : Type} {f : OutboxState → α → OutboxState} {P : OutboxState → α → Prop} {l : List α}
    (hstep : ∀ s a, s.Inv env → P s a → s.Advances env (f s a)) (hP : ∀ s t a, s.Advances env t → P s a → P t a)
    (h : s.Inv env) (hl : ∀ a ∈ l, P s a) : s.Advances env (l.foldl f s) :=
  List.foldlRecOn (motive := fun t => s.Advances env t) l f (refl h) fun t ht a ha =>
    ht.trans (hstep t a ht.inv (hP s t a ht (hl a ha)))

end Advances

/-! ## Steps on the queue -/

/-- A request is sent under the id it is queued under. -/
theorem Inv.sendRequest (h : s.Inv env) (hq : ∀ id ∈ outboxId, s.Queued env peer request id) :
    s.Advances env (s.sendRequest peer request outboxId) := by
  have hinv : (s.sendRequest peer request outboxId).Inv env := by
    refine { h with sent := List.forall_mem_append.2 ⟨h.sent, ?_⟩, pending := fun requestId pending hp => ?_ }
    · exact List.forall_mem_singleton.2 hq
    · simp only [OutboxState.sendRequest, Std.ExtTreeMap.getElem?_insert, compare_eq_iff_eq] at hp
      split at hp
      · rename_i heq
        cases hp
        exact ⟨_, List.mem_append_right _ (List.mem_singleton_self _), heq, rfl⟩
      · obtain ⟨x, hx, hrest⟩ := h.pending requestId pending hp
        exact ⟨x, List.mem_append_left _ hx, hrest⟩
  exact { Advances.refl h with inv := hinv, sent := ⟨_, rfl⟩ }

theorem Inv.removeOutbox (h : s.Inv env) : (s.removeOutbox id).Inv env := by
  refine { h with files := fun id' bytes hb => ?_ }
  simp only [OutboxState.removeOutbox, Std.ExtTreeMap.getElem?_erase] at hb
  split at hb
  · cases hb
  · exact h.files id' bytes hb

/-- The record of a file is removed. -/
theorem Inv.removeFile (h : s.Inv env) (hf : s.QueuedFile id) : s.Advances env (s.removeOutbox id) := by
  refine { Advances.refl h with
    inv := h.removeOutbox, outbox := fun r hr hkind => ?_, added := fun _ hr _ => .inl hr }
  have hne : id ≠ r.id := (h.ne_of_queuedFile hf hr hkind).symm
  simp [OutboxState.removeOutbox, Std.ExtTreeMap.getElem?_erase, hne]

theorem enqueueOutbox_ok {now : UInt64} {peerId kind payload uuid : String}
    (he : s.enqueueOutbox env uuid now peerId kind payload = .ok (id, t)) :
    id = uuid ∧ ∃ bytes, env.recordToJson ⟨uuid, peerId, kind, payload, now⟩ = .ok bytes ∧
      t = { s with
        outbox := s.outbox.insert uuid bytes
        enqueued := s.enqueued ++ [⟨uuid, peerId, kind, payload, now⟩] } := by
  simp only [enqueueOutbox] at he
  cases hb : env.recordToJson ⟨uuid, peerId, kind, payload, now⟩ with
  | error err => rw [hb] at he; cases he
  | ok bytes =>
    rw [hb] at he
    cases he
    exact ⟨rfl, bytes, rfl, rfl⟩

/-- A record is queued under a fresh id. -/
theorem Inv.enqueueOutbox (h : s.Inv env) {now : UInt64} {peerId kind payload uuid : String}
    (hfresh : uuid ∉ s.enqueued.map OutboxRecord.id) (hproper : Proper env ⟨uuid, peerId, kind, payload, now⟩)
    (he : s.enqueueOutbox env uuid now peerId kind payload = .ok (id, t)) :
    s.Advances env t ∧ id = uuid ∧ ⟨uuid, peerId, kind, payload, now⟩ ∈ t.enqueued := by
  obtain ⟨hid, bytes, hb, rfl⟩ := enqueueOutbox_ok he
  have hmem : ∀ r ∈ s.enqueued ++ [⟨uuid, peerId, kind, payload, now⟩],
      r ∈ s.enqueued ∨ r = ⟨uuid, peerId, kind, payload, now⟩ := fun r hr => by simpa using hr
  have hold : ∀ r ∈ s.enqueued, r ∈ s.enqueued ++ [⟨uuid, peerId, kind, payload, now⟩] := fun r hr =>
    List.mem_append_left _ hr
  refine ⟨⟨⟨?_, fun r hr => ?_, fun id' bytes' hf => ?_, fun x hx id hx' => (h.sent x hx id hx').mono hold, h.pending,
    fun d hd id hd' => (h.dials d hd id hd').mono hold, fun d hd id hd' => (h.fileDials d hd id hd').mono hold,
    fun t ht id ht' => (h.fileTasks t ht id ht').mono hold⟩, hold, ⟨[], (List.append_nil _).symm⟩, fun _ hx => hx,
    fun r hr hkind => ?_, fun r hr hkind => ?_⟩, hid, by simp⟩
  · rw [List.map_append]
    exact h.unique.append (List.nodup_singleton _) (by simpa using hfresh)
  · rcases hmem r hr with hr | rfl
    exacts [h.proper r hr, hproper]
  · simp only [Std.ExtTreeMap.getElem?_insert, compare_eq_iff_eq] at hf
    split at hf
    · rename_i heq
      cases hf
      exact ⟨_, List.mem_append_right _ (List.mem_singleton_self _), heq, hb⟩
    · obtain ⟨r, hr, hrest⟩ := h.files id' bytes' hf
      exact ⟨r, hold r hr, hrest⟩
  · have hne : uuid ≠ r.id := fun heq => hfresh (heq ▸ List.mem_map_of_mem hr)
    simp [Std.ExtTreeMap.getElem?_insert, hne]
  · rcases hmem r hr with hr | rfl
    exacts [.inl hr, .inr ⟨bytes, hb, Std.ExtTreeMap.getElem?_insert_self⟩]

/-! ## Commands -/

theorem Inv.dispatch (h : s.Inv env) (hq : ∀ id ∈ outboxId, s.Queued env peer request id) (connected : Bool) :
    s.Advances env (s.dispatch peer request outboxId connected) := by
  unfold OutboxState.dispatch
  split
  · exact h.sendRequest hq
  · refine { Advances.refl h with inv := { h with dials := List.forall_mem_append.2 ⟨h.dials, ?_⟩ } }
    exact List.forall_mem_singleton.2 hq

theorem Inv.syncTickets (h : s.Inv env) {uuid : String} (hfresh : uuid ∉ s.enqueued.map OutboxRecord.id) (now : UInt64)
    (connected : Bool) : s.Advances env (s.syncTickets env peer request uuid now connected) := by
  have hfail : ∀ replies, s.Advances env { s with replies } := fun _ => { Advances.refl h with inv := { h with } }
  unfold OutboxState.syncTickets
  cases hm : isTicketMutation request with
  | false => exact h.dispatch (fun _ hid => by cases hid) connected
  | true =>
    simp only [if_true]
    cases hj : env.requestToJson request with
    | error err => exact hfail _
    | ok payload =>
      simp only [Except.bind]
      cases he : s.enqueueOutbox env uuid now (env.peerToString peer) ticketSync payload with
      | error err => exact hfail _
      | ok x =>
        obtain ⟨id, t⟩ := x
        obtain ⟨ha, rfl, hmem⟩ := h.enqueueOutbox hfresh (.inl ⟨rfl, request, hm, hj⟩) he
        refine ha.trans (ha.inv.dispatch (fun id hid => ?_) connected)
        cases hid
        exact ⟨_, hmem, rfl, rfl, rfl, hj⟩

/-- A task is started for a queued file. -/
theorem Inv.startFile (h : s.Inv env) (hf : s.QueuedFile id) :
    s.Advances env { s with fileTasks := s.fileTasks ++ [some id] } := by
  refine { Advances.refl h with inv := { h with fileTasks := List.forall_mem_append.2 ⟨h.fileTasks, ?_⟩ } }
  refine List.forall_mem_singleton.2 ?_
  rintro _ ⟨⟩
  exact hf

theorem Inv.sendFile (h : s.Inv env) {uuid : String} (hfresh : uuid ∉ s.enqueued.map OutboxRecord.id)
    (file : FileSendOutboxPayload) (now : UInt64) (connected : Bool) :
    s.Advances env (s.sendFile env peer file uuid now connected) := by
  unfold OutboxState.sendFile
  cases hj : env.fileToJson file with
  | error err => exact .refl h
  | ok payload =>
    simp only [Except.bind]
    cases he : s.enqueueOutbox env uuid now (env.peerToString peer) fileSend payload with
    | error err => exact .refl h
    | ok x =>
      obtain ⟨id, t⟩ := x
      obtain ⟨ha, rfl, hmem⟩ := h.enqueueOutbox hfresh (.inr ⟨rfl, file, hj⟩) he
      have hfile : t.QueuedFile id := ⟨_, hmem, rfl, rfl⟩
      simp only
      split
      · exact ha.trans (ha.inv.startFile hfile)
      · refine ha.trans { Advances.refl ha.inv with
          inv := { ha.inv with fileDials := List.forall_mem_append.2 ⟨ha.inv.fileDials, ?_⟩ } }
        refine List.forall_mem_singleton.2 ?_
        rintro _ ⟨⟩
        exact hfile

/-! ## Connections -/

section Connections

variable {order order' : Listing}

/-- A listing has the records for the peer that are in files. -/
theorem Inv.mem_list (hround : env.RoundTrips) (h : s.Inv env) (horder : ∀ files, (order files).Perm files)
    {peerId : String} : record ∈ s.listOutboxForPeer env order peerId ↔
      record ∈ s.enqueued ∧ s.OnDisk env record ∧ record.peerId = peerId := by
  simp only [listOutboxForPeer, mem_keySort, List.mem_filter, List.mem_filterMap, decide_eq_true_eq, Prod.exists]
  constructor
  · rintro ⟨⟨id, bytes, hmem, hdec⟩, hpeer⟩
    rw [(horder _).mem_iff, Std.ExtTreeMap.mem_toList_iff_getElem?_eq_some] at hmem
    obtain ⟨r, hr, rfl, hb⟩ := h.files id bytes hmem
    rw [hround.record hb] at hdec
    cases hdec
    exact ⟨hr, ⟨bytes, hb, hmem⟩, hpeer⟩
  · rintro ⟨hr, ⟨bytes, hb, hd⟩, hpeer⟩
    refine ⟨⟨record.id, bytes, ?_, hround.record hb⟩, hpeer⟩
    rwa [(horder _).mem_iff, Std.ExtTreeMap.mem_toList_iff_getElem?_eq_some]

/-- Requests that wait for a connection to the peer are sent under their ids. -/
theorem Inv.sendDials (h : s.Inv env) (peer : PeerId) : s.Advances env (s.sendDials peer) := by
  let rest : OutboxState := { s with pendingSyncDials := s.pendingSyncDials.filter fun dial => dial.peer ≠ peer }
  have hrest : s.Advances env rest :=
    { Advances.refl h with inv := { h with dials := fun d hd => h.dials d (List.mem_of_mem_filter hd) } }
  refine hrest.trans (Advances.foldl
    (P := fun s (d : PendingSyncDial) => ∀ id ∈ d.outboxId, s.Queued env peer d.request id)
    (fun t d ht hq => ht.sendRequest hq) (fun s t d ha hq id hid => (hq id hid).mono ha.enqueued) hrest.inv fun d hd => ?_)
  obtain ⟨hmem, hpeer⟩ := List.mem_filter.1 hd
  obtain rfl := of_decide_eq_true hpeer
  exact h.dials d hmem

/-- The payload of a queued request decodes, to what is queued under the id. -/
theorem Inv.decodes (hround : env.RoundTrips) (h : s.Inv env) (hr : record ∈ s.enqueued) (hkind : record.kind = ticketSync)
    (hpeer : record.peerId = env.peerToString peer) :
    ∃ request, env.requestFromJson record.payload = some request ∧ s.Queued env peer request record.id := by
  rcases h.proper record hr with ⟨-, request, -, hj⟩ | ⟨hkind', -⟩
  · exact ⟨request, hround.request hj, record, hr, rfl, hkind, hpeer, hj⟩
  · rw [hkind] at hkind'
    exact absurd hkind' (by decide)

/-- A request of the listing is sent again. -/
theorem Inv.resend (hround : env.RoundTrips) (h : s.Inv env) (hr : record ∈ s.enqueued) (hkind : record.kind = ticketSync)
    (hpeer : record.peerId = env.peerToString peer) : s.Advances env (s.resend env peer record) := by
  obtain ⟨request, hdec, hq⟩ := h.decodes hround hr hkind hpeer
  simp only [OutboxState.resend, hdec]
  refine h.sendRequest fun id hid => ?_
  cases hid
  exact hq

/-- A file of the listing is sent again. -/
theorem Inv.restartFile (hround : env.RoundTrips) (h : s.Inv env) (hr : record ∈ s.enqueued) (hkind : record.kind = fileSend) :
    s.Advances env (s.restartFile env record) := by
  rcases h.proper record hr with ⟨hkind', -⟩ | ⟨-, file, hj⟩
  · rw [hkind] at hkind'
    exact absurd hkind' (by decide)
  · simp only [OutboxState.restartFile, hround.file hj]
    exact h.startFile ⟨record, hr, rfl, hkind⟩

theorem Inv.resendAll (hround : env.RoundTrips) (h : s.Inv env) (horder : ∀ files, (order files).Perm files) (peer : PeerId) :
    s.Advances env (s.resendAll env peer order) := by
  refine Advances.foldl (P := fun s r => r ∈ s.enqueued ∧ r.kind = ticketSync ∧ r.peerId = env.peerToString peer)
    (fun t r ht hr => ht.resend hround hr.1 hr.2.1 hr.2.2) (fun s t r ha hr => ⟨ha.enqueued r hr.1, hr.2⟩) h fun r hr => ?_
  obtain ⟨hr, hkind⟩ := List.mem_filter.1 hr
  obtain ⟨hmem, -, hpeer⟩ := (h.mem_list hround horder).1 hr
  exact ⟨hmem, of_decide_eq_true hkind, hpeer⟩

theorem Inv.restartFiles (hround : env.RoundTrips) (h : s.Inv env) (horder : ∀ files, (order files).Perm files)
    (peer : PeerId) : s.Advances env (s.restartFiles env peer order) := by
  have hstart : s.Advances env (s.startFileDials peer) := by
    refine { Advances.refl h with inv := { h with
      fileTasks := List.forall_mem_append.2 ⟨h.fileTasks, List.forall_mem_map.2 fun d hd => ?_⟩
      fileDials := fun d hd => h.fileDials d (List.mem_of_mem_filter hd) } }
    exact h.fileDials d (List.mem_of_mem_filter hd)
  refine hstart.trans (Advances.foldl (P := fun s r => r ∈ s.enqueued ∧ r.kind = fileSend)
    (fun t r ht hr => ht.restartFile hround hr.1 hr.2) (fun s t r ha hr => ⟨ha.enqueued r hr.1, hr.2⟩) hstart.inv fun r hr => ?_)
  obtain ⟨hr, hkind⟩ := List.mem_filter.1 hr
  exact ⟨((hstart.inv.mem_list hround horder).1 hr).1, (of_decide_eq_true hkind).1⟩

theorem Inv.connectionEstablished (hround : env.RoundTrips) (h : s.Inv env)
    (horder : ∀ files, (order files).Perm files) (horder' : ∀ files, (order' files).Perm files) (peer : PeerId) :
    s.Advances env (s.connectionEstablished env peer order order') := by
  have hdials := h.sendDials peer
  have hall := hdials.inv.resendAll hround horder peer
  exact (hdials.trans hall).trans (hall.inv.restartFiles hround horder' peer)

/-- Among what was sent is the request for the record. -/
def Includes (env : OutboxEnv) (peer : PeerId) (new : List SentRequest) (record : OutboxRecord) : Prop :=
  ∃ x ∈ new, x.peer = peer ∧ x.outboxId = some record.id ∧ env.requestFromJson record.payload = some x.request

theorem resend_sent (s : OutboxState) (r : OutboxRecord) : ∃ first, (s.resend env peer r).sent = s.sent ++ first ∧
    ((env.requestFromJson r.payload).isSome → Includes env peer first r) := by
  unfold OutboxState.resend
  cases hdec : env.requestFromJson r.payload with
  | none => exact ⟨[], (List.append_nil _).symm, fun h => by cases h⟩
  | some request =>
    exact ⟨[⟨s.nextRequestId, peer, request, some r.id⟩], rfl, fun _ => ⟨_, List.mem_singleton_self _, rfl, rfl, hdec⟩⟩

/-- Each request of a list that decodes is sent. -/
theorem foldl_resend_sent : ∀ (l : List OutboxRecord) (s : OutboxState), ∃ new,
    (l.foldl (resend env peer) s).sent = s.sent ++ new ∧
      ∀ r ∈ l, (env.requestFromJson r.payload).isSome → Includes env peer new r
  | [], s => ⟨[], (List.append_nil _).symm, fun _ hr => by cases hr⟩
  | r :: l, s => by
    obtain ⟨first, hfirst, hr⟩ := @resend_sent env peer s r
    obtain ⟨new, hnew, hl⟩ := foldl_resend_sent l (s.resend env peer r)
    refine ⟨first ++ new, by rw [List.foldl_cons, hnew, hfirst, List.append_assoc], fun r' hr' hdec => ?_⟩
    rcases List.mem_cons.1 hr' with rfl | hr'
    · obtain ⟨x, hx, hrest⟩ := hr hdec
      exact ⟨x, List.mem_append_left _ hx, hrest⟩
    · obtain ⟨x, hx, hrest⟩ := hl r' hr' hdec
      exact ⟨x, List.mem_append_right _ hx, hrest⟩

/-- A connection sends each request again that is queued for its peer. -/
theorem Inv.resent (hround : env.RoundTrips) (h : s.Inv env) (horder : ∀ files, (order files).Perm files)
    (horder' : ∀ files, (order' files).Perm files) (hr : record ∈ s.enqueued) (hkind : record.kind = ticketSync)
    (hpeer : record.peerId = env.peerToString peer) (hd : s.OnDisk env record) :
    ∃ new, (s.connectionEstablished env peer order order').sent = s.sent ++ new ∧ Includes env peer new record := by
  obtain ⟨request, hdec, -⟩ := h.decodes hround hr hkind hpeer
  have hdials := h.sendDials peer
  let listed := ((s.sendDials peer).listOutboxForPeer env order (env.peerToString peer)).filter fun r => r.kind = ticketSync
  have hlisted : record ∈ listed := by
    refine List.mem_filter.2 ⟨(hdials.inv.mem_list hround horder).2 ?_, decide_eq_true hkind⟩
    exact ⟨hdials.enqueued _ hr, hdials.onDisk hr hkind hd, hpeer⟩
  obtain ⟨new₁, hnew₁⟩ := hdials.sent
  obtain ⟨new₂, hnew₂, hl⟩ := @foldl_resend_sent env peer listed (s.sendDials peer)
  obtain ⟨new₃, hnew₃⟩ := ((hdials.inv.resendAll hround horder peer).inv.restartFiles hround horder' peer).sent
  obtain ⟨x, hx, hrest⟩ := hl record hlisted (by rw [hdec]; rfl)
  refine ⟨new₁ ++ new₂ ++ new₃, ?_, x, by simp [hx], hrest⟩
  rw [OutboxState.connectionEstablished, hnew₃, OutboxState.resendAll, hnew₂, hnew₁]
  simp

end Connections

/-! ## Responses and failures -/

/-- A request the loop no longer waits for. -/
theorem Inv.forget (h : s.Inv env) (requestId : OutboundRequestId) (replies : List (Except String TicketSyncResponse)) :
    s.Advances env { s with pendingSyncTickets := s.pendingSyncTickets.erase requestId, replies } := by
  refine { Advances.refl h with inv := { h with pending := fun requestId' pending hp => ?_ } }
  simp only [Std.ExtTreeMap.getElem?_erase] at hp
  split at hp
  · cases hp
  · exact h.pending requestId' pending hp

/-- A terminal response to a request that was sent under an id removes the record of the id, and any other response
removes nothing. -/
theorem Inv.receive (h : s.Inv env) (requestId : OutboundRequestId) (response : TicketSyncResponse) :
    s.Advances env (s.receive requestId response) ∨
    response.terminal = true ∧ ∃ x ∈ s.sent, x.requestId = requestId ∧ ∃ id, x.outboxId = some id ∧
      ∃ t, s.Advances env t ∧ (requestId, response) ∈ t.answered ∧ s.receive requestId response = t.removeOutbox id := by
  have hheard : s.Advances env { s with answered := s.answered ++ [(requestId, response)] } :=
    { Advances.refl h with inv := { h with }, answered := fun x hx => List.mem_append_left _ hx }
  simp only [OutboxState.receive]
  cases hp : s.pendingSyncTickets.get? requestId with
  | none => exact .inl hheard
  | some pending =>
    have ht := hheard.trans (hheard.inv.forget requestId (s.replies ++ [.ok response]))
    obtain ⟨x, hx, hxid, hxo⟩ := h.pending requestId pending (by rwa [← Std.ExtTreeMap.get?_eq_getElem?])
    obtain ⟨outboxId⟩ := pending
    cases response.terminal with
    | false => exact .inl ht
    | true =>
      cases outboxId with
      | none => exact .inl ht
      | some id => exact .inr ⟨rfl, x, hx, hxid, id, hxo, _, ht, by simp, rfl⟩

theorem Inv.outboundFailure (h : s.Inv env) (requestId : OutboundRequestId) (error : String) :
    s.Advances env (s.outboundFailure requestId error) := by
  unfold OutboxState.outboundFailure
  cases s.pendingSyncTickets.get? requestId with
  | none => exact .refl h
  | some pending => exact h.forget requestId _

theorem Inv.outgoingConnectionError (h : s.Inv env) (peer : PeerId) (error : String) :
    s.Advances env (s.outgoingConnectionError peer error) :=
  { Advances.refl h with
    inv := { h with
      dials := fun d hd => h.dials d (List.mem_of_mem_filter hd)
      fileDials := fun d hd => h.fileDials d (List.mem_of_mem_filter hd) } }

theorem Inv.fileEnds (h : s.Inv env) (i : Nat) (delivered : Bool) : s.Advances env (s.fileEnds i delivered) := by
  unfold OutboxState.fileEnds
  cases hi : s.fileTasks[i]? with
  | none => exact .refl h
  | some outboxId =>
    have herase : s.Advances env { s with fileTasks := s.fileTasks.eraseIdx i } :=
      { Advances.refl h with inv := { h with fileTasks := fun t ht => h.fileTasks t (List.mem_of_mem_eraseIdx ht) } }
    cases delivered with
    | false => exact herase
    | true =>
      cases outboxId with
      | none => exact herase
      | some id => exact herase.trans (herase.inv.removeFile (h.fileTasks _ (List.mem_of_getElem? hi) id rfl))

/-! ## Runs -/

/-- Every step loses nothing, but that a terminal response removes the record of its request. -/
theorem Inv.step (hround : env.RoundTrips) (h : s.Inv env) {l : OutboxLabel} (hl : s.Enabled l) :
    s.Advances env (s.step env l) ∨ ∃ requestId response, l = .response requestId response ∧ response.terminal = true ∧
      ∃ x ∈ s.sent, x.requestId = requestId ∧ ∃ id, x.outboxId = some id ∧
        ∃ t, s.Advances env t ∧ (requestId, response) ∈ t.answered ∧ s.step env l = t.removeOutbox id := by
  cases l with
  | syncTickets peer request uuid now connected => exact .inl (h.syncTickets hl now connected)
  | sendFile peer file uuid now connected => exact .inl (h.sendFile hl file now connected)
  | connectionEstablished peer order order' => exact .inl (h.connectionEstablished hround hl.1 hl.2 peer)
  | outgoingConnectionError peer connected error =>
    left
    cases peer with
    | none => exact .refl h
    | some peer =>
      cases connected with
      | true => exact .refl h
      | false => exact h.outgoingConnectionError peer error
  | response requestId response =>
    rcases h.receive requestId response with ha | ⟨hterm, hrest⟩
    · exact .inl ha
    · exact .inr ⟨requestId, response, rfl, hterm, hrest⟩
  | outboundFailure requestId error => exact .inl (h.outboundFailure requestId error)
  | fileEnds i delivered => exact .inl (h.fileEnds i delivered)

theorem Inv.of_start (h : (outboxMachine env).start s) : s.Inv env := by
  obtain ⟨hpending, hdials, hfileDials, htasks, hsent, -, hunique, hrecords, hfiles⟩ := h
  refine ⟨hunique, fun r hr => (hrecords r hr).2, hfiles, ?_, ?_, ?_, ?_, ?_⟩ <;>
    simp [hpending, hdials, hfileDials, htasks, hsent]

theorem Inv.step_inv (hround : env.RoundTrips) (h : s.Inv env) {l : OutboxLabel} (hl : s.Enabled l) :
    (s.step env l).Inv env := by
  rcases h.step hround hl with ha | ⟨_, _, _, _, _, _, _, _, _, t, ht, -, heq⟩
  · exact ha.inv
  · rw [heq]
    exact ht.inv.removeOutbox

theorem inv_of_reachable (hround : env.RoundTrips) (h : (outboxMachine env).Reachable s) : s.Inv env :=
  Machine.Reachable.invariant (fun _ h₀ => .of_start h₀) (fun _ _ hl hs => Inv.step_inv hround hs hl) h

/-- The request of the record was sent to its peer under the id of the record, by the request id. -/
def SentFor (env : OutboxEnv) (s : OutboxState) (record : OutboxRecord) (requestId : OutboundRequestId) : Prop :=
  ∃ x ∈ s.sent, x.requestId = requestId ∧ x.outboxId = some record.id ∧ env.peerToString x.peer = record.peerId ∧
    env.requestFromJson record.payload = some x.request

/-- What is sent under the id of a record is its request, to its peer. -/
theorem Inv.sentFor (hround : env.RoundTrips) (h : s.Inv env) {x : SentRequest} (hx : x ∈ s.sent)
    (hid : x.outboxId = some record.id) (hr : record ∈ s.enqueued) : s.SentFor env record x.requestId := by
  obtain ⟨r, hr', hrid, -, hpeer, hj⟩ := h.sent x hx record.id hid
  obtain rfl := h.eq_of_id hr' hr hrid
  exact ⟨x, hx, rfl, hid, hpeer.symm, hround.request hj⟩

/-- What removes the file of a queued request. -/
theorem Inv.removed (hround : env.RoundTrips) (h : s.Inv env) {l : OutboxLabel} (hl : s.Enabled l) (hr : record ∈ s.enqueued)
    (hkind : record.kind = ticketSync) (hd : s.OnDisk env record) : (s.step env l).OnDisk env record ∨
      ∃ requestId response, l = .response requestId response ∧ response.terminal = true ∧ s.SentFor env record requestId := by
  rcases h.step hround hl with ha | ⟨requestId, response, rfl, hterm, x, hx, rfl, id, hxid, t, ht, -, heq⟩
  · exact .inl (ha.onDisk hr hkind hd)
  · by_cases hid : record.id = id
    · subst hid
      exact .inr ⟨x.requestId, response, rfl, hterm, h.sentFor hround hx hxid hr⟩
    · obtain ⟨bytes, hb, hget⟩ := ht.onDisk hr hkind hd
      refine .inl ⟨bytes, hb, ?_⟩
      rw [heq]
      simp only [OutboxState.removeOutbox, Std.ExtTreeMap.getElem?_erase, compare_eq_iff_eq, Ne.symm hid, if_false]
      exact hget

/-- A terminal response has come to a request that was sent for the record. -/
def Answered (env : OutboxEnv) (s : OutboxState) (record : OutboxRecord) : Prop :=
  ∃ requestId response, (requestId, response) ∈ s.answered ∧ response.terminal = true ∧ s.SentFor env record requestId

theorem Advances.mono (ha : s.Advances env t) (h : s.Answered env record) : t.Answered env record := by
  obtain ⟨requestId, response, hr, hterm, x, hx, hrest⟩ := h
  obtain ⟨new, hnew⟩ := ha.sent
  exact ⟨requestId, response, ha.answered _ hr, hterm, x, hnew ▸ List.mem_append_left _ hx, hrest⟩

/-- Every queued request has its file, or was answered. -/
def Kept (env : OutboxEnv) (s : OutboxState) : Prop :=
  ∀ record ∈ s.enqueued, record.kind = ticketSync → s.OnDisk env record ∨ s.Answered env record

theorem Advances.kept (ha : s.Advances env t) (h : s.Kept env) : t.Kept env := by
  intro r hr hkind
  rcases ha.added r hr hkind with hold | hd
  · exact (h r hold hkind).imp (ha.onDisk hold hkind) ha.mono
  · exact .inl hd

theorem Inv.step_kept (hround : env.RoundTrips) (h : s.Inv env) (hk : s.Kept env) {l : OutboxLabel} (hl : s.Enabled l) :
    (s.step env l).Kept env := by
  rcases h.step hround hl with ha | ⟨requestId, response, rfl, hterm, x, hx, rfl, id, hxid, t, ht, hans, heq⟩
  · exact ha.kept hk
  · rw [heq]
    intro r hr hkind
    obtain ⟨new, hnew⟩ := ht.sent
    by_cases hid : r.id = id
    · subst hid
      have hxt : x ∈ t.sent := hnew ▸ List.mem_append_left _ hx
      exact .inr ⟨x.requestId, response, hans, hterm, ht.inv.sentFor hround hxt hxid hr⟩
    · refine (ht.kept hk r hr hkind).imp (fun ⟨bytes, hb, hget⟩ => ⟨bytes, hb, ?_⟩) fun hanswered => hanswered
      simp only [OutboxState.removeOutbox, Std.ExtTreeMap.getElem?_erase, compare_eq_iff_eq, Ne.symm hid, if_false]
      exact hget

/-- No queued ticket mutation is lost. In every run, a request that was queued has its file or was answered; its file
is removed by a terminal response to a request that was sent under its id, and by nothing else; and a connection to
its peer sends it again as long as the file is there. -/
theorem queued_mutation_kept (hround : env.RoundTrips) (h : (outboxMachine env).Reachable s) :
    s.Kept env ∧ ∀ r ∈ s.enqueued, r.kind = ticketSync → s.OnDisk env r →
      (∀ l, s.Enabled l → (s.step env l).OnDisk env r ∨ ∃ requestId response, l = .response requestId response ∧
        response.terminal = true ∧ s.SentFor env r requestId) ∧
      ∀ peer order order', s.Enabled (.connectionEstablished peer order order') → r.peerId = env.peerToString peer →
        ∃ new, (s.step env (.connectionEstablished peer order order')).sent = s.sent ++ new ∧ Includes env peer new r := by
  have hinv := inv_of_reachable hround h
  refine ⟨?_, fun r hr hkind hd => ⟨fun l hl => hinv.removed hround hl hr hkind hd, fun peer order order' hl hpeer =>
    hinv.resent hround hl.1 hl.2 hr hkind hpeer hd⟩⟩
  have hboth : s.Inv env ∧ s.Kept env := by
    refine Machine.Reachable.invariant (I := fun s => s.Inv env ∧ s.Kept env)
      (fun s₀ h₀ => ⟨.of_start h₀, fun r hr _ => ?_⟩) (fun s l hl hs => ?_) h
    · obtain ⟨-, -, -, -, -, -, -, hrecords, -⟩ := h₀
      exact .inl (hrecords r hr).1
    · exact ⟨hs.1.step_inv hround hl, hs.1.step_kept hround hs.2 hl⟩
  exact hboth.2

section Sample

/-- The record of an empty batch of objects for the peer `home`. -/
def batchRecord : OutboxRecord := ⟨"0b0e", "home", ticketSync, "[]", 5⟩

/-- Encoders that know the batch and its record. -/
def batchEnv : OutboxEnv where
  peerToString := fun peer => String.ofList (peer.bytes.map fun b => Char.ofNat b.toNat)
  requestToJson := fun request => match request with
    | .pushObjects [] => .ok "[]"
    | _ => .error "unknown"
  requestFromJson := fun text => if text = "[]" then some (.pushObjects []) else none
  fileToJson := fun _ => .error "unknown"
  fileFromJson := fun _ => none
  recordToJson := fun record => if record = batchRecord then .ok [0] else .error "unknown"
  recordFromJson := fun bytes => if bytes = [0] then some batchRecord else none

theorem batchEnv_roundTrips : batchEnv.RoundTrips where
  request := fun {request text} h => by
    rcases request with _ | _ | _ | _ | _ | _ | (_ | _) <;> cases h
    rfl
  file := fun h => by cases h
  record := fun {record bytes} h => by
    simp only [batchEnv] at h ⊢
    split at h
    · rename_i heq
      cases h
      rw [heq]
      rfl
    · cases h

def homePeer : PeerId := ⟨utf8 "home"⟩

def emptyOutbox : OutboxState where
  outbox := Std.ExtTreeMap.empty
  pendingSyncTickets := Std.ExtTreeMap.empty
  pendingSyncDials := []
  pendingFileDials := []
  fileTasks := []
  nextRequestId := 0
  enqueued := []
  sent := []
  answered := []
  replies := []

/-- The batch is queued while the peer is away, and the dial fails. -/
def unreached : OutboxState :=
  (outboxMachine batchEnv).after emptyOutbox
    [.syncTickets homePeer (.pushObjects []) "0b0e" 5 false, .outgoingConnectionError (some homePeer) false "timeout"]

/-- The theorem at the sample: nothing has been sent, and the next connection sends the batch. -/
theorem queued_mutation_kept_unreached :
    unreached.sent.length = 0 ∧ unreached.pendingSyncDials.length = 0 ∧
    ∃ x ∈ (unreached.step batchEnv (.connectionEstablished homePeer List.reverse List.reverse)).sent, x.outboxId = some "0b0e" := by
  have hstart : (outboxMachine batchEnv).Reachable emptyOutbox :=
    .of_start ⟨rfl, rfl, rfl, rfl, rfl, rfl, List.nodup_nil, by simp [emptyOutbox], by simp [emptyOutbox]⟩
  have hreach : (outboxMachine batchEnv).Reachable unreached :=
    hstart.after _ ⟨by simp [outboxMachine, Enabled, emptyOutbox], trivial, trivial⟩
  have hmem : batchRecord ∈ unreached.enqueued := by decide +kernel
  have hdisk : unreached.OnDisk batchEnv batchRecord := ⟨[0], by decide +kernel, by decide +kernel⟩
  obtain ⟨new, hnew, x, hx, -, hid, -⟩ := ((queued_mutation_kept batchEnv_roundTrips hreach).2 batchRecord hmem rfl hdisk).2
    homePeer List.reverse List.reverse ⟨List.reverse_perm, List.reverse_perm⟩ (by decide +kernel)
  exact ⟨by decide +kernel, by decide +kernel, x, hnew ▸ List.mem_append_right _ hx, hid⟩

end Sample

end OutboxState

end Fortiq
