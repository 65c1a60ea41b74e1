/-
The tasks that send queued files. A command starts a task, or queues the file for a connection, and every connection
starts one for each file that is queued for its peer; only the files that waited for this very connection are not
started twice. So a file has one task, and one attachment at its receiver, as long as no connection to its peer is made
while it is being sent and every file that was recorded is known to be delivered.
-/
import Fortiq.Node.Queued

namespace Fortiq

open KeyOrder

namespace OutboxState

variable {env : OutboxEnv} {s t u : OutboxState} {peer : PeerId} {id : String}

/-! ## One task for each file -/

/-- A file is queued for the peer under the id. -/
def FileFor (env : OutboxEnv) (s : OutboxState) (peer : PeerId) (id : String) : Prop :=
  ∃ record ∈ s.enqueued, record.id = id ∧ record.kind = fileSend ∧ record.peerId = env.peerToString peer

/-- The tasks are for different files, and so are the files that wait for a connection, which have no task. -/
structure OneTask (env : OutboxEnv) (s : OutboxState) : Prop where
  inv : s.Inv env
  tasks : s.fileTasks.Nodup
  dials : ∀ d ∈ s.pendingFileDials, ∃ id, d.outboxId = some id ∧ s.FileFor env d.peer id
  dialsNodup : (s.pendingFileDials.map PendingFileDial.outboxId).Nodup
  apart : ∀ d ∈ s.pendingFileDials, d.outboxId ∉ s.fileTasks

/-- The file has been queued, and is neither in the outbox nor on its way. -/
structure Gone (s : OutboxState) (id : String) : Prop where
  queued : id ∈ s.enqueued.map OutboxRecord.id
  outbox : s.outbox[id]? = none
  task : some id ∉ s.fileTasks
  dial : ∀ d ∈ s.pendingFileDials, d.outboxId ≠ some id

/-- A step that starts no task: files may be given up, and nothing comes back. -/
structure Aside (s t : OutboxState) : Prop where
  tasks : t.fileTasks = s.fileTasks
  dials : t.pendingFileDials.Sublist s.pendingFileDials
  enqueued : ∀ r ∈ s.enqueued, r ∈ t.enqueued
  outbox : ∀ id ∈ s.enqueued.map OutboxRecord.id, s.outbox[id]? = none → t.outbox[id]? = none

namespace Aside

theorem refl (s : OutboxState) : s.Aside s := ⟨rfl, .refl _, fun _ hr => hr, fun _ _ h => h⟩

theorem mem_ids (h : s.Aside t) (hid : id ∈ s.enqueued.map OutboxRecord.id) : id ∈ t.enqueued.map OutboxRecord.id := by
  obtain ⟨r, hr, rfl⟩ := List.mem_map.1 hid
  exact List.mem_map_of_mem (h.enqueued r hr)

theorem trans (h : s.Aside t) (h' : t.Aside u) : s.Aside u :=
  ⟨h'.tasks.trans h.tasks, h'.dials.trans h.dials, fun r hr => h'.enqueued r (h.enqueued r hr),
    fun id hid hnone => h'.outbox id (h.mem_ids hid) (h.outbox id hid hnone)⟩

theorem foldl {α : Type} {f : OutboxState → α → OutboxState} (hstep : ∀ (s : OutboxState) a, s.Aside (f s a)) (l : List α)
    (s : OutboxState) : s.Aside (l.foldl f s) :=
  List.foldlRecOn (motive := fun t => s.Aside t) l f (refl s) fun t ht a _ => ht.trans (hstep t a)

theorem oneTask (ha : s.Aside t) (h : s.OneTask env) (ht : t.Inv env) : t.OneTask env where
  inv := ht
  tasks := ha.tasks ▸ h.tasks
  dials := fun d hd => by
    obtain ⟨id, hid, r, hr, hrest⟩ := h.dials d (ha.dials.subset hd)
    exact ⟨id, hid, r, ha.enqueued r hr, hrest⟩
  dialsNodup := h.dialsNodup.sublist (ha.dials.map _)
  apart := fun d hd => ha.tasks ▸ h.apart d (ha.dials.subset hd)

theorem gone (ha : s.Aside t) (h : s.Gone id) : t.Gone id :=
  ⟨ha.mem_ids h.queued, ha.outbox id h.queued h.outbox, ha.tasks ▸ h.task, fun d hd => h.dial d (ha.dials.subset hd)⟩

theorem removeOutbox (s : OutboxState) (id : String) : s.Aside (s.removeOutbox id) := by
  refine { refl s with outbox := fun id' _ hnone => ?_ }
  simp only [OutboxState.removeOutbox, Std.ExtTreeMap.getElem?_erase]
  split
  · rfl
  · exact hnone

theorem sendRequest (s : OutboxState) (peer : PeerId) (request : TicketSyncRequest) (outboxId : Option String) :
    s.Aside (s.sendRequest peer request outboxId) := { refl s with }

theorem dispatch (s : OutboxState) (peer : PeerId) (request : TicketSyncRequest) (outboxId : Option String)
    (connected : Bool) : s.Aside (s.dispatch peer request outboxId connected) := by
  cases connected with
  | true => exact sendRequest s peer request outboxId
  | false => exact { refl s with }

theorem enqueueOutbox {now : UInt64} {peerId kind payload uuid : String} (hfresh : uuid ∉ s.enqueued.map OutboxRecord.id)
    (he : s.enqueueOutbox env uuid now peerId kind payload = .ok (id, t)) : s.Aside t := by
  obtain ⟨-, bytes, -, rfl⟩ := enqueueOutbox_ok he
  refine ⟨rfl, .refl _, fun r hr => List.mem_append_left _ hr, fun id' hid hnone => ?_⟩
  have hne : uuid ≠ id' := by
    rintro rfl
    exact hfresh hid
  simpa [Std.ExtTreeMap.getElem?_insert, hne] using hnone

theorem syncTickets {request : TicketSyncRequest} {uuid : String} (hfresh : uuid ∉ s.enqueued.map OutboxRecord.id)
    (now : UInt64) (connected : Bool) : s.Aside (s.syncTickets env peer request uuid now connected) := by
  unfold OutboxState.syncTickets
  cases isTicketMutation request with
  | false => exact dispatch s peer request none connected
  | true =>
    simp only [if_true]
    cases env.requestToJson request with
    | error err => exact { refl s with }
    | ok payload =>
      simp only [Except.bind]
      cases he : s.enqueueOutbox env uuid now (env.peerToString peer) ticketSync payload with
      | error err => exact { refl s with }
      | ok x => exact (enqueueOutbox hfresh he).trans (dispatch _ peer request _ connected)

theorem sendDials (s : OutboxState) (peer : PeerId) : s.Aside (s.sendDials peer) :=
  have hrest : s.Aside { s with pendingSyncDials := s.pendingSyncDials.filter fun dial => dial.peer ≠ peer } :=
    { refl s with }
  hrest.trans (foldl (fun s (d : PendingSyncDial) => sendRequest s peer d.request d.outboxId) _ _)

theorem resendAll (s : OutboxState) (peer : PeerId) (order : Listing) : s.Aside (s.resendAll env peer order) := by
  refine foldl (fun s r => ?_) _ s
  unfold OutboxState.resend
  cases env.requestFromJson r.payload with
  | none => exact removeOutbox s r.id
  | some request => exact sendRequest s peer request _

theorem outgoingConnectionError (s : OutboxState) (peer : PeerId) (error : String) :
    s.Aside (s.outgoingConnectionError peer error) := { refl s with dials := List.filter_sublist }

theorem receive (s : OutboxState) (requestId : OutboundRequestId) (response : TicketSyncResponse) :
    s.Aside (s.receive requestId response) := by
  simp only [OutboxState.receive]
  cases s.pendingSyncTickets.get? requestId with
  | none => exact { refl s with }
  | some pending =>
    obtain ⟨outboxId⟩ := pending
    cases response.terminal with
    | false => exact { refl s with }
    | true =>
      cases outboxId with
      | none => exact { refl s with }
      | some id => exact { removeOutbox s id with }

theorem outboundFailure (s : OutboxState) (requestId : OutboundRequestId) (error : String) :
    s.Aside (s.outboundFailure requestId error) := by
  unfold OutboxState.outboundFailure
  cases s.pendingSyncTickets.get? requestId <;> exact { refl s with }

end Aside

/-! ## Steps that start tasks -/

theorem QueuedFile.mem_ids (h : s.QueuedFile id) : id ∈ s.enqueued.map OutboxRecord.id := by
  obtain ⟨r, hr, rfl, -⟩ := h
  exact List.mem_map_of_mem hr

theorem OneTask.task_mem_ids (h : s.OneTask env) (ht : some id ∈ s.fileTasks) : id ∈ s.enqueued.map OutboxRecord.id :=
  (h.inv.fileTasks _ ht id rfl).mem_ids

theorem OneTask.dial_mem_ids (h : s.OneTask env) (hd : some id ∈ s.pendingFileDials.map PendingFileDial.outboxId) :
    id ∈ s.enqueued.map OutboxRecord.id := by
  obtain ⟨d, hd, hid⟩ := List.mem_map.1 hd
  exact (h.inv.fileDials d hd id hid).mem_ids

section NewId

variable (htask : some id ∉ s.fileTasks) (hdial : some id ∉ s.pendingFileDials.map PendingFileDial.outboxId)
include htask hdial

/-- A task for an id that has none. -/
theorem OneTask.addTask (h : s.OneTask env)
    (hinv : ({ s with fileTasks := s.fileTasks ++ [some id] } : OutboxState).Inv env) :
    ({ s with fileTasks := s.fileTasks ++ [some id] } : OutboxState).OneTask env := by
  refine { h with inv := hinv, tasks := ?_, apart := fun d hd hin => ?_ }
  · exact h.tasks.append (List.nodup_singleton _) (by simpa using htask)
  · rcases List.mem_append.1 hin with hin | hin
    · exact h.apart d hd hin
    · exact hdial (List.mem_singleton.1 hin ▸ List.mem_map_of_mem hd)

/-- A file that waits, under an id that has no task. -/
theorem OneTask.addDial (h : s.OneTask env) (hfile : s.FileFor env peer id)
    (hinv : ({ s with pendingFileDials := s.pendingFileDials ++ [⟨peer, some id⟩] } : OutboxState).Inv env) :
    ({ s with pendingFileDials := s.pendingFileDials ++ [⟨peer, some id⟩] } : OutboxState).OneTask env := by
  refine { h with inv := hinv, dials := fun d hd => ?_, dialsNodup := ?_, apart := fun d hd => ?_ }
  · rcases List.mem_append.1 hd with hd | hd
    · exact h.dials d hd
    · obtain rfl := List.mem_singleton.1 hd
      exact ⟨id, rfl, hfile⟩
  · rw [List.map_append]
    exact h.dialsNodup.append (List.nodup_singleton _) (by simpa using hdial)
  · rcases List.mem_append.1 hd with hd | hd
    · exact h.apart d hd
    · obtain rfl := List.mem_singleton.1 hd
      exact htask

end NewId

/-- A command queues a file under a fresh id, and starts its task or leaves it to a connection. -/
theorem OneTask.sendFile (h : s.OneTask env) {file : FileSendOutboxPayload} {uuid : String}
    (hfresh : uuid ∉ s.enqueued.map OutboxRecord.id) (now : UInt64) (connected : Bool) :
    (s.sendFile env peer file uuid now connected).OneTask env ∧
    (∀ id, s.Gone id → (s.sendFile env peer file uuid now connected).Gone id) ∧
    ∃ new, (s.sendFile env peer file uuid now connected).fileTasks = s.fileTasks ++ new := by
  have hinv : (s.sendFile env peer file uuid now connected).Inv env := (h.inv.sendFile hfresh file now connected).inv
  unfold OutboxState.sendFile at hinv ⊢
  cases hj : env.fileToJson file with
  | error err => exact ⟨h, fun _ hg => hg, [], (List.append_nil _).symm⟩
  | ok payload =>
    simp only [hj, Except.bind] at hinv ⊢
    cases he : s.enqueueOutbox env uuid now (env.peerToString peer) fileSend payload with
    | error err => exact ⟨h, fun _ hg => hg, [], (List.append_nil _).symm⟩
    | ok x =>
      obtain ⟨id, t⟩ := x
      simp only [he] at hinv ⊢
      have haside := Aside.enqueueOutbox hfresh he
      obtain ⟨hadv, rfl, hmem⟩ := h.inv.enqueueOutbox hfresh (.inr ⟨rfl, file, hj⟩) he
      have ht := haside.oneTask h hadv.inv
      -- the id is new, so no task and no waiting file has it
      have htask : some id ∉ t.fileTasks := fun hin => hfresh (h.task_mem_ids (haside.tasks ▸ hin))
      have hdial : some id ∉ t.pendingFileDials.map PendingFileDial.outboxId := fun hin =>
        hfresh (h.dial_mem_ids ((haside.dials.map _).subset hin))
      have hne : ∀ id', s.Gone id' → id' ≠ id := by
        rintro _ hg rfl
        exact hfresh hg.queued
      cases connected with
      | true =>
        simp only [if_true] at hinv ⊢
        refine ⟨ht.addTask htask hdial hinv, fun id' hg => ?_, [some id], by simp [haside.tasks]⟩
        have hg' := haside.gone hg
        exact { hg' with task := by simp [hg'.task, hne id' hg] }
      | false =>
        simp only [Bool.false_eq_true, if_false] at hinv ⊢
        refine ⟨ht.addDial htask hdial ⟨_, hmem, rfl, rfl, rfl⟩ hinv, fun id' hg => ?_, [], by simp [haside.tasks]⟩
        have hg' := haside.gone hg
        refine { hg' with dial := fun d hd => ?_ }
        rcases List.mem_append.1 hd with hd | hd
        · exact hg'.dial d hd
        · obtain rfl := List.mem_singleton.1 hd
          exact fun heq => hne id' hg (Option.some.inj heq).symm

section Connections

variable {order order' : Listing}

/-- A listing has each record once. -/
theorem Inv.nodup_list (hround : env.RoundTrips) (h : s.Inv env) (horder : ∀ files, (order files).Perm files)
    (peerId : String) : ((s.listOutboxForPeer env order peerId).map OutboxRecord.id).Nodup := by
  have hkeys : ((order s.outbox.toList).map Prod.fst).Nodup := by
    rw [((horder _).map _).nodup_iff, List.nodup_iff_pairwise_ne, List.pairwise_map]
    exact Std.ExtTreeMap.distinct_keys_toList.imp fun hne heq => hne (by simp [heq])
  have hids : ((order s.outbox.toList).filterMap fun file => env.recordFromJson file.2).map OutboxRecord.id =
      (order s.outbox.toList).map Prod.fst := by
    rw [List.map_filterMap, ← List.filterMap_eq_map]
    refine List.filterMap_congr fun file hfile => ?_
    rw [(horder _).mem_iff, Std.ExtTreeMap.mem_toList_iff_getElem?_eq_some] at hfile
    obtain ⟨r, -, hid, hb⟩ := h.files _ _ hfile
    simp [hround.record hb, hid]
  unfold listOutboxForPeer
  rw [((keySort_perm _ _).map _).nodup_iff]
  exact (hids ▸ hkeys).sublist (List.filter_sublist.map _)

/-- Files that decode are all started. -/
theorem foldl_restartFile : ∀ (l : List OutboxRecord) (s : OutboxState),
    (∀ r ∈ l, (env.fileFromJson r.payload).isSome) →
      l.foldl (restartFile env) s = { s with fileTasks := s.fileTasks ++ l.map fun r => some r.id }
  | [], s, _ => by simp
  | r :: l, s, hl => by
    obtain ⟨file, hfile⟩ := Option.isSome_iff_exists.1 (hl r (List.mem_cons_self ..))
    have hstep : s.restartFile env r = { s with fileTasks := s.fileTasks ++ [some r.id] } := by
      simp only [restartFile, hfile]
    rw [List.foldl_cons, hstep, foldl_restartFile l _ fun r hr => hl r (List.mem_cons_of_mem _ hr)]
    simp

/-- The files a connection starts beside those that waited for it. -/
def listedFiles (env : OutboxEnv) (s : OutboxState) (peer : PeerId) (order : Listing) : List OutboxRecord :=
  (s.listOutboxForPeer env order (env.peerToString peer)).filter fun record => record.kind = fileSend ∧
    record.id ∉ (s.pendingFileDials.filter fun dial => dial.peer = peer).filterMap PendingFileDial.outboxId

theorem Inv.mem_listedFiles (hround : env.RoundTrips) (h : s.Inv env) (horder : ∀ files, (order files).Perm files)
    {record : OutboxRecord} (hr : record ∈ s.listedFiles env peer order) :
    record ∈ s.enqueued ∧ s.OnDisk env record ∧ record.peerId = env.peerToString peer ∧ record.kind = fileSend ∧
      ∀ d ∈ s.pendingFileDials, d.peer = peer → d.outboxId ≠ some record.id := by
  obtain ⟨hr, hkind⟩ := List.mem_filter.1 hr
  obtain ⟨hmem, hdisk, hpeer⟩ := (h.mem_list hround horder).1 hr
  obtain ⟨hkind, hnot⟩ := of_decide_eq_true hkind
  refine ⟨hmem, hdisk, hpeer, hkind, fun d hd hdp hid => hnot ?_⟩
  exact List.mem_filterMap.2 ⟨d, List.mem_filter.2 ⟨hd, decide_eq_true hdp⟩, hid⟩

/-- The ids a connection starts: of what waited for it, and of the other files in the outbox. -/
def startedFiles (env : OutboxEnv) (s : OutboxState) (peer : PeerId) (order : Listing) : List (Option String) :=
  (s.pendingFileDials.filter fun dial => dial.peer = peer).map PendingFileDial.outboxId ++
    (s.listedFiles env peer order).map fun r => some r.id

theorem Inv.restartFiles_eq (hround : env.RoundTrips) (h : s.Inv env) (horder : ∀ files, (order files).Perm files) :
    s.restartFiles env peer order =
      { s with
        fileTasks := s.fileTasks ++ s.startedFiles env peer order
        pendingFileDials := s.pendingFileDials.filter fun dial => dial.peer ≠ peer } := by
  have hdecode : ∀ r ∈ s.listedFiles env peer order, (env.fileFromJson r.payload).isSome := fun r hr => by
    obtain ⟨hmem, -, -, hkind, -⟩ := h.mem_listedFiles hround horder hr
    rcases h.proper r hmem with ⟨hkind', -⟩ | ⟨-, file, hj⟩
    · rw [hkind] at hkind'
      exact absurd hkind' (by decide)
    · rw [hround.file hj]
      rfl
  have hfold := @foldl_restartFile env (s.listedFiles env peer order) (s.startFileDials peer) hdecode
  refine Eq.trans ?_ (hfold.trans ?_)
  · rfl
  · simp [startFileDials, startedFiles]

/-- What is started is queued for the peer, and was waiting or is in the outbox. -/
theorem OneTask.mem_startedFiles (hround : env.RoundTrips) (h : s.OneTask env) (horder : ∀ files, (order files).Perm files)
    {o : Option String} (ho : o ∈ s.startedFiles env peer order) :
    ∃ id, o = some id ∧ s.FileFor env peer id ∧ ((∃ d ∈ s.pendingFileDials, d.outboxId = o) ∨ s.outbox[id]? ≠ none) := by
  rcases List.mem_append.1 ho with ho | ho
  · obtain ⟨d, hd, rfl⟩ := List.mem_map.1 ho
    obtain ⟨hd, hpeer⟩ := List.mem_filter.1 hd
    obtain ⟨id, hid, hfile⟩ := h.dials d hd
    exact ⟨id, hid, of_decide_eq_true hpeer ▸ hfile, .inl ⟨d, hd, rfl⟩⟩
  · obtain ⟨r, hr, rfl⟩ := List.mem_map.1 ho
    obtain ⟨hmem, ⟨bytes, -, hdisk⟩, hpeer, hkind, -⟩ := h.inv.mem_listedFiles hround horder hr
    exact ⟨r.id, rfl, ⟨r, hmem, rfl, hkind, hpeer⟩, .inr (by simp [hdisk])⟩

/-- No id is started twice. -/
theorem OneTask.nodup_startedFiles (hround : env.RoundTrips) (h : s.OneTask env)
    (horder : ∀ files, (order files).Perm files) : (s.startedFiles env peer order).Nodup := by
  refine List.Nodup.append (h.dialsNodup.sublist (List.filter_sublist.map _)) ?_ fun o ho ho' => ?_
  · have hids : ((s.listedFiles env peer order).map OutboxRecord.id).Nodup :=
      (h.inv.nodup_list hround horder _).sublist (List.filter_sublist.map _)
    have hsome := hids.map (Option.some_injective _)
    rwa [List.map_map] at hsome
  · obtain ⟨r, hr, rfl⟩ := List.mem_map.1 ho'
    obtain ⟨d, hd, hdid⟩ := List.mem_map.1 ho
    obtain ⟨hd, hpeer⟩ := List.mem_filter.1 hd
    exact (h.inv.mem_listedFiles hround horder hr).2.2.2.2 d hd (of_decide_eq_true hpeer) hdid

/-- A connection to a peer, while no file that is queued for the peer is being sent. -/
theorem OneTask.restartFiles (hround : env.RoundTrips) (hinj : Function.Injective env.peerToString) (h : s.OneTask env)
    (horder : ∀ files, (order files).Perm files) (hidle : ∀ id, some id ∈ s.fileTasks → ¬ s.FileFor env peer id) :
    (s.restartFiles env peer order).OneTask env ∧ (∀ id, s.Gone id → (s.restartFiles env peer order).Gone id) ∧
    ∃ new, (s.restartFiles env peer order).fileTasks = s.fileTasks ++ new := by
  have hinv := (h.inv.restartFiles hround horder peer).inv
  rw [h.inv.restartFiles_eq hround horder] at hinv ⊢
  have hrest : ∀ d ∈ s.pendingFileDials.filter (fun dial => dial.peer ≠ peer), d ∈ s.pendingFileDials ∧ d.peer ≠ peer :=
    fun d hd => ⟨List.mem_of_mem_filter hd, of_decide_eq_true (List.mem_filter.1 hd).2⟩
  refine ⟨⟨hinv, ?_, fun d hd => h.dials d (hrest d hd).1, ?_, fun d hd => ?_⟩, fun id hg => ?_, _, rfl⟩
  · refine h.tasks.append (h.nodup_startedFiles hround horder) fun o ho ho' => ?_
    obtain ⟨id, rfl, hfile, -⟩ := h.mem_startedFiles hround horder ho'
    exact hidle id ho hfile
  · exact h.dialsNodup.sublist (List.filter_sublist.map _)
  · -- a file that waits for another peer is queued for that one
    obtain ⟨hd, hpeer⟩ := hrest d hd
    intro hin
    rcases List.mem_append.1 hin with hin | hin
    · exact h.apart d hd hin
    · obtain ⟨id, hid, r, hr, hrid, -, hrpeer⟩ := h.dials d hd
      obtain ⟨id', hid', ⟨r', hr', hrid', -, hrpeer'⟩, -⟩ := h.mem_startedFiles hround horder hin
      obtain rfl : id = id' := Option.some.inj (hid.symm.trans hid')
      obtain rfl := h.inv.eq_of_id hr hr' (hrid.trans hrid'.symm)
      exact hpeer (hinj (hrpeer.symm.trans hrpeer'))
  · refine ⟨hg.queued, hg.outbox, fun hin => ?_, fun d hd => hg.dial d (hrest d hd).1⟩
    rcases List.mem_append.1 hin with hin | hin
    · exact hg.task hin
    · obtain ⟨id', hid, -, ⟨d, hd, hdid⟩ | hdisk⟩ := h.mem_startedFiles hround horder hin
      · exact hg.dial d hd hdid
      · cases hid
        exact hdisk hg.outbox

theorem OneTask.connectionEstablished (hround : env.RoundTrips) (hinj : Function.Injective env.peerToString)
    (h : s.OneTask env) (horder : ∀ files, (order files).Perm files) (horder' : ∀ files, (order' files).Perm files)
    (hidle : ∀ id, some id ∈ s.fileTasks → ¬ s.FileFor env peer id) :
    (s.connectionEstablished env peer order order').OneTask env ∧
    (∀ id, s.Gone id → (s.connectionEstablished env peer order order').Gone id) ∧
    ∃ new, (s.connectionEstablished env peer order order').fileTasks = s.fileTasks ++ new := by
  have hdials := h.inv.sendDials peer
  have hall := hdials.inv.resendAll hround horder peer
  have haside : s.Aside ((s.sendDials peer).resendAll env peer order) :=
    (Aside.sendDials s peer).trans (Aside.resendAll (s.sendDials peer) peer order)
  have ht := haside.oneTask h hall.inv
  obtain ⟨hone, hgone, new, hnew⟩ := ht.restartFiles hround hinj horder' fun id hid hfile => by
    rw [haside.tasks] at hid
    obtain ⟨r, hr, hrid, hkind⟩ := h.inv.fileTasks _ hid id rfl
    obtain ⟨r', hr', hrid', -, hpeer⟩ := hfile
    obtain rfl := ht.inv.eq_of_id (haside.enqueued r hr) hr' (hrid.trans hrid'.symm)
    exact hidle id hid ⟨r, hr, hrid, hkind, hpeer⟩
  refine ⟨hone, fun id hg => hgone id (haside.gone hg), new, ?_⟩
  rw [← haside.tasks]
  exact hnew

end Connections

/-- A task ends; if its file was delivered, it is gone. -/
theorem OneTask.fileEnds (h : s.OneTask env) {i : Nat} {outboxId : Option String} (hi : s.fileTasks[i]? = some outboxId)
    (delivered : Bool) :
    (s.fileEnds i delivered).OneTask env ∧ (∀ id, s.Gone id → (s.fileEnds i delivered).Gone id) ∧
    (s.fileEnds i delivered).fileTasks = s.fileTasks.eraseIdx i ∧
    ∀ id, delivered = true → outboxId = some id → (s.fileEnds i delivered).Gone id := by
  let erased : OutboxState := { s with fileTasks := s.fileTasks.eraseIdx i }
  have hone : erased.OneTask env := by
    have hinv : erased.Inv env :=
      { h.inv with fileTasks := fun t ht => h.inv.fileTasks t (List.mem_of_mem_eraseIdx ht) }
    exact { h with
      inv := hinv
      tasks := h.tasks.sublist (List.eraseIdx_sublist ..)
      apart := fun d hd hin => h.apart d hd (List.mem_of_mem_eraseIdx hin) }
  have hgone : ∀ id, s.Gone id → erased.Gone id := fun id hg =>
    { hg with task := fun hin => hg.task (List.mem_of_mem_eraseIdx hin) }
  simp only [OutboxState.fileEnds, hi]
  cases delivered with
  | false => exact ⟨hone, hgone, rfl, fun _ hd => by cases hd⟩
  | true =>
    cases outboxId with
    | none => exact ⟨hone, hgone, rfl, fun _ _ hid => by cases hid⟩
    | some id =>
      have haside := Aside.removeOutbox erased id
      refine ⟨haside.oneTask hone hone.inv.removeOutbox, fun id' hg => haside.gone (hgone id' hg), rfl, ?_⟩
      rintro id' - ⟨⟩
      have hmem : some id ∈ s.fileTasks := List.mem_of_getElem? hi
      refine ⟨h.task_mem_ids hmem, Std.ExtTreeMap.getElem?_erase_self, fun hin => ?_, fun d hd heq => ?_⟩
      · obtain ⟨j, hj, hjid⟩ := List.mem_eraseIdx_iff_getElem?.1 hin
        have hlt := (List.getElem?_eq_some_iff.1 hjid).1
        exact hj ((List.getElem?_inj hlt h.tasks).1 (hjid.trans hi.symm))
      · exact h.apart d hd (heq ▸ hmem)

end OutboxState

/-! ## Transfers and their receivers -/

/-- The queue of a node; its tasks that send files, each with whether the receiver has recorded the file; and the
record of each attachment that has been recorded. -/
structure TransferState where
  queue : OutboxState
  tasks : List (Option String × Bool)
  recorded : List String

inductive TransferLabel where
  | queue (l : OutboxLabel)
  /-- The receiver records the file that a task sends. -/
  | record (i : Nat)

namespace TransferState

def step (env : OutboxEnv) (x : TransferState) : TransferLabel → TransferState
  | .queue l =>
    let queue := x.queue.step env l
    let tasks := match l with
      | .fileEnds i _ => x.tasks.eraseIdx i
      | _ => x.tasks ++ (queue.fileTasks.drop x.tasks.length).map fun outboxId => (outboxId, false)
    { x with queue, tasks }
  | .record i =>
    { x with
      tasks := x.tasks.modify i fun task => (task.1, true)
      recorded := x.recorded ++ (x.tasks[i]?.bind Prod.fst).toList }

/-- A task knows that its file was delivered only after the receiver has recorded it, which it does once. -/
def Enabled (x : TransferState) : TransferLabel → Prop
  | .queue (.fileEnds i delivered) => ∃ task, x.tasks[i]? = some task ∧ (delivered = true → task.2 = true)
  | .queue l => x.queue.Enabled l
  | .record i => ∃ outboxId, x.tasks[i]? = some (outboxId, false)

/-- No connection to a peer is made while a file that is queued for it is being sent, and a task whose file was
recorded learns of it. -/
def Undisturbed (env : OutboxEnv) (x : TransferState) : TransferLabel → Prop
  | .queue (.connectionEstablished peer _ _) => ∀ id, some id ∈ x.queue.fileTasks → ¬ x.queue.FileFor env peer id
  | .queue (.fileEnds i delivered) => ∀ task, x.tasks[i]? = some task → task.2 = true → delivered = true
  | _ => True

end TransferState

def transferMachine (env : OutboxEnv) : Machine TransferState TransferLabel where
  start := fun x => (outboxMachine env).start x.queue ∧ x.tasks = [] ∧ x.recorded = []
  enabled := fun x l => x.Enabled l
  step := fun x l => x.step env l

/-! ## One attachment for each file -/

/-- Each file has one task, and is recorded once: by a task that is still running, or it is gone. -/
structure TransferState.Single (env : OutboxEnv) (x : TransferState) : Prop where
  one : x.queue.OneTask env
  tasks : x.tasks.map Prod.fst = x.queue.fileTasks
  recorded : x.recorded.Nodup
  accounted : ∀ id ∈ x.recorded, (some id, true) ∈ x.tasks ∨ x.queue.Gone id

namespace TransferState.Single

variable {env : OutboxEnv} {x : TransferState}

/-- The queue takes a step that starts some tasks and ends none. -/
theorem grow (h : x.Single env) {t : OutboxState} (hone : t.OneTask env) (hgone : ∀ id, x.queue.Gone id → t.Gone id)
    (hnew : ∃ new, t.fileTasks = x.queue.fileTasks ++ new) :
    ({ x with
       queue := t
       tasks := x.tasks ++ (t.fileTasks.drop x.tasks.length).map fun outboxId => (outboxId, false) } :
      TransferState).Single env := by
  obtain ⟨new, hnew⟩ := hnew
  have hdrop : t.fileTasks.drop x.tasks.length = new := by
    rw [hnew, ← h.tasks, ← List.length_map Prod.fst, List.drop_left]
  rw [hdrop]
  refine ⟨hone, ?_, h.recorded, fun id hid => ?_⟩
  · simp [h.tasks, hnew, Function.comp_def]
  · exact (h.accounted id hid).imp (fun hin => List.mem_append_left _ hin) (hgone id)

theorem aside (h : x.Single env) {t : OutboxState} (ha : x.queue.Aside t) (hinv : t.Inv env) :
    ({ x with
       queue := t
       tasks := x.tasks ++ (t.fileTasks.drop x.tasks.length).map fun outboxId => (outboxId, false) } :
      TransferState).Single env :=
  h.grow (ha.oneTask h.one hinv) (fun _ hg => ha.gone hg) ⟨[], by rw [ha.tasks, List.append_nil]⟩

theorem fileEnds (h : x.Single env) {i : Nat} {delivered : Bool} (hl : x.Enabled (.queue (.fileEnds i delivered)))
    (hknown : x.Undisturbed env (.queue (.fileEnds i delivered))) :
    (x.step env (.queue (.fileEnds i delivered))).Single env := by
  obtain ⟨task, htask, -⟩ := hl
  have hi : x.queue.fileTasks[i]? = some task.1 := by rw [← h.tasks, List.getElem?_map, htask]; rfl
  obtain ⟨hone, hgone, heq, hend⟩ := h.one.fileEnds hi delivered
  refine ⟨hone, ?_, h.recorded, fun id hid => ?_⟩
  · exact (List.eraseIdx_map ..).symm.trans (by rw [h.tasks]; exact heq.symm)
  · rcases h.accounted id hid with hin | hg
    · obtain ⟨j, hj⟩ := List.mem_iff_getElem?.1 hin
      by_cases hji : j = i
      · -- the task of a recorded file ends: it knows that the file was delivered
        subst hji
        rw [htask] at hj
        cases hj
        exact .inr (hend id (hknown _ htask rfl) rfl)
      · exact .inl (List.mem_eraseIdx_iff_getElem?.2 ⟨j, hji, hj⟩)
    · exact .inr (hgone id hg)

/-- A file that a task sends and has not been recorded for it has not been recorded at all. -/
theorem not_recorded (h : x.Single env) {i : Nat} {id : String} (htask : x.tasks[i]? = some (some id, false)) :
    id ∉ x.recorded := by
  have hi : x.queue.fileTasks[i]? = some (some id) := by rw [← h.tasks, List.getElem?_map, htask]; rfl
  intro hid
  rcases h.accounted id hid with hin | hg
  · obtain ⟨j, hj⟩ := List.mem_iff_getElem?.1 hin
    have hjq : x.queue.fileTasks[j]? = some (some id) := by rw [← h.tasks, List.getElem?_map, hj]; rfl
    have hlt := (List.getElem?_eq_some_iff.1 hjq).1
    obtain rfl := (List.getElem?_inj hlt h.one.tasks).1 (hjq.trans hi.symm)
    rw [htask] at hj
    cases hj
  · exact hg.task (List.mem_of_getElem? hi)

theorem record (h : x.Single env) {i : Nat} (hl : x.Enabled (.record i)) : (x.step env (.record i)).Single env := by
  obtain ⟨outboxId, htask⟩ := hl
  have hget : ∀ j, (x.tasks.modify i fun task => (task.1, true))[j]? =
      if i = j then some (outboxId, true) else x.tasks[j]? := by
    intro j
    rw [List.getElem?_modify]
    by_cases hij : i = j
    · subst hij
      simp [htask]
    · simp [hij]
  have hstep : x.step env (.record i) =
      { x with
        tasks := x.tasks.modify i fun task => (task.1, true)
        recorded := x.recorded ++ outboxId.toList } := by
    simp [TransferState.step, htask]
  rw [hstep]
  refine ⟨h.one, ?_, ?_, fun id hid => ?_⟩
  · rw [← h.tasks]
    refine List.ext_getElem? fun j => ?_
    rw [List.getElem?_map, List.getElem?_map, hget]
    split
    · rename_i hij
      rw [← hij, htask]
      rfl
    · rfl
  · cases outboxId with
    | none => simpa using h.recorded
    | some id => exact h.recorded.append (List.nodup_singleton _) (by simpa using h.not_recorded htask)
  · rcases List.mem_append.1 hid with hid | hid
    · refine (h.accounted id hid).imp_left fun hin => ?_
      obtain ⟨j, hj⟩ := List.mem_iff_getElem?.1 hin
      refine List.mem_iff_getElem?.2 ⟨j, (hget j).trans ?_⟩
      rw [if_neg, hj]
      rintro rfl
      rw [htask] at hj
      cases hj
    · obtain rfl := Option.mem_toList.1 hid
      exact .inl (List.mem_iff_getElem?.2 ⟨i, (hget i).trans (if_pos rfl)⟩)

theorem step (hround : env.RoundTrips) (hinj : Function.Injective env.peerToString) (h : x.Single env) {l : TransferLabel}
    (hl : x.Enabled l) (hcalm : x.Undisturbed env l) : (x.step env l).Single env := by
  cases l with
  | record i => exact h.record hl
  | queue l =>
    cases l with
    | syncTickets peer request uuid now connected =>
      exact h.aside (.syncTickets hl now connected) (h.one.inv.step_inv hround hl)
    | sendFile peer file uuid now connected =>
      obtain ⟨hone, hgone, hnew⟩ := h.one.sendFile hl now connected
      exact h.grow hone hgone hnew
    | connectionEstablished peer order order' =>
      obtain ⟨hone, hgone, hnew⟩ := h.one.connectionEstablished hround hinj hl.1 hl.2 hcalm
      exact h.grow hone hgone hnew
    | outgoingConnectionError peer connected error =>
      refine h.aside ?_ (h.one.inv.step_inv hround hl)
      rcases peer with _ | peer
      · exact .refl _
      · cases connected with
        | true => exact .refl _
        | false => exact .outgoingConnectionError _ peer error
    | response requestId response => exact h.aside (.receive _ requestId response) (h.one.inv.step_inv hround hl)
    | outboundFailure requestId error =>
      exact h.aside (.outboundFailure _ requestId error) (h.one.inv.step_inv hround hl)
    | fileEnds i delivered => exact h.fileEnds hl hcalm

end TransferState.Single

/-- A queued file is not sent twice at once, and its receiver records it once, if no connection to a peer is made while
a file that is queued for it is being sent and every task whose file was recorded learns of it. -/
theorem file_sent_once {env : OutboxEnv} (hround : env.RoundTrips) (hinj : Function.Injective env.peerToString)
    {x : TransferState} (h : ((transferMachine env).restrict (TransferState.Undisturbed env)).Reachable x) :
    (∀ id, x.queue.fileTasks.count (some id) ≤ 1) ∧ ∀ id, x.recorded.count id ≤ 1 := by
  have hsingle : x.Single env := by
    refine h.invariant (fun x₀ h₀ => ?_) fun x l hl hx => by
      obtain ⟨hl, hcalm⟩ := hl
      exact hx.step hround hinj hl hcalm
    obtain ⟨hstart, htasks, hrecorded⟩ := h₀
    have hinv := OutboxState.Inv.of_start hstart
    obtain ⟨-, -, hdials, hfiles, -⟩ := hstart
    refine ⟨⟨hinv, ?_, ?_, ?_, ?_⟩, ?_, ?_, ?_⟩ <;> simp [hdials, hfiles, htasks, hrecorded]
  exact ⟨fun id => List.nodup_iff_count_le_one.1 hsingle.one.tasks _,
    fun id => List.nodup_iff_count_le_one.1 hsingle.recorded id⟩

/-! ## A sample: one file for one peer -/

namespace TransferSample

open OutboxState

def report : FileSendOutboxPayload := ⟨"T-aaaaaaaa", "/tmp/report.pdf"⟩

def reportRecord : OutboxRecord := ⟨"f11e", "home", fileSend, "{}", 5⟩

/-- Encoders that know the file and its record. -/
def sendEnv : OutboxEnv where
  peerToString := fun peer => String.ofList (peer.bytes.map fun b => Char.ofNat b.toNat)
  requestToJson := fun _ => .error "unknown"
  requestFromJson := fun _ => none
  fileToJson := fun file => if file = report then .ok "{}" else .error "unknown"
  fileFromJson := fun text => if text = "{}" then some report else none
  recordToJson := fun record => if record = reportRecord then .ok [1] else .error "unknown"
  recordFromJson := fun bytes => if bytes = [1] then some reportRecord else none

theorem sendEnv_roundTrips : sendEnv.RoundTrips where
  request := fun h => by cases h
  file := fun {file text} h => by
    simp only [sendEnv] at h ⊢
    split at h
    · rename_i heq
      cases h
      rw [heq]
      rfl
    · cases h
  record := fun {record bytes} h => by
    simp only [sendEnv] at h ⊢
    split at h
    · rename_i heq
      cases h
      rw [heq]
      rfl
    · cases h

theorem sendEnv_injective : Function.Injective sendEnv.peerToString := by
  have hchar : Function.Injective fun b : UInt8 => Char.ofNat b.toNat := by
    intro a b h
    have hnat : ∀ n < 256, (Char.ofNat n).toNat = n := by decide +kernel
    have heq := congrArg Char.toNat h
    rw [hnat _ a.toNat_lt, hnat _ b.toNat_lt] at heq
    exact UInt8.toNat_inj.1 heq
  intro p q h
  have hbytes := List.map_injective_iff.2 hchar (String.ofList_injective h)
  cases p
  cases q
  exact congrArg PeerId.mk hbytes

def start : TransferState := ⟨emptyOutbox, [], []⟩

theorem start_start : (transferMachine sendEnv).start start :=
  ⟨⟨rfl, rfl, rfl, rfl, rfl, rfl, List.nodup_nil, by simp [start, emptyOutbox], by simp [start, emptyOutbox]⟩, rfl, rfl⟩

/-- A file is sent over a connection, a second connection to the peer is made, and both tasks go on. -/
def upgraded : TransferState :=
  (transferMachine sendEnv).after start
    [.queue (.sendFile homePeer report "f11e" 5 true), .queue (.connectionEstablished homePeer List.reverse List.reverse),
     .record 0, .record 1]

/-- The file of one command has two tasks at once, and two attachments. -/
theorem file_sent_twice :
    (transferMachine sendEnv).Reachable upgraded ∧ upgraded.queue.enqueued = [reportRecord] ∧
    upgraded.queue.fileTasks = [some "f11e", some "f11e"] ∧ upgraded.recorded = ["f11e", "f11e"] := by
  refine ⟨Machine.Reachable.after _ (.of_start start_start) ⟨?_, ?_, ?_, ?_, trivial⟩, by decide +kernel,
    by decide +kernel, by decide +kernel⟩
  · exact List.not_mem_nil
  · exact ⟨List.reverse_perm, List.reverse_perm⟩
  · exact ⟨some "f11e", by decide +kernel⟩
  · exact ⟨some "f11e", by decide +kernel⟩

/-- The file waits for a connection. -/
def waiting : TransferState :=
  (transferMachine sendEnv).step start (.queue (.sendFile homePeer report "f11e" 5 false))

/-- It is sent over it, recorded and known to be delivered. -/
def delivered : TransferState :=
  (transferMachine sendEnv).after waiting
    [.queue (.connectionEstablished homePeer List.reverse List.reverse), .record 0, .queue (.fileEnds 0 true)]

/-- The theorem at a file that waits for its connection. -/
theorem file_sent_once_delivered :
    delivered.recorded = ["f11e"] ∧ delivered.queue.fileTasks = [] ∧ delivered.recorded.count "f11e" ≤ 1 := by
  have hnone : waiting.queue.fileTasks = [] := by decide +kernel
  have hfirst : ((transferMachine sendEnv).restrict (TransferState.Undisturbed sendEnv)).enabled start
      (.queue (.sendFile homePeer report "f11e" 5 false)) := ⟨List.not_mem_nil, trivial⟩
  have hstart : ((transferMachine sendEnv).restrict (TransferState.Undisturbed sendEnv)).Reachable start :=
    .of_start start_start
  have hwaiting : ((transferMachine sendEnv).restrict (TransferState.Undisturbed sendEnv)).Reachable waiting :=
    hstart.step hfirst
  have hallows : ((transferMachine sendEnv).restrict (TransferState.Undisturbed sendEnv)).Allows waiting
      [.queue (.connectionEstablished homePeer List.reverse List.reverse), .record 0, .queue (.fileEnds 0 true)] := by
    refine ⟨⟨⟨List.reverse_perm, List.reverse_perm⟩, fun id hid => ?_⟩, ⟨?_, trivial⟩, ⟨?_, fun _ _ _ => rfl⟩, trivial⟩
    · rw [hnone] at hid
      cases hid
    · exact ⟨some "f11e", by decide +kernel⟩
    · exact ⟨(some "f11e", true), by decide +kernel, fun _ => rfl⟩
  have hreach : ((transferMachine sendEnv).restrict (TransferState.Undisturbed sendEnv)).Reachable delivered :=
    hwaiting.after _ hallows
  exact ⟨by decide +kernel, by decide +kernel, (file_sent_once sendEnv_roundTrips sendEnv_injective hreach).2 _⟩

end TransferSample

end Fortiq
