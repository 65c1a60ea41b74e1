/-
The synchronisation of one ticket. The objects of a ticket are only part of the graph: the events of other
tickets between them stay behind, and with them most causal edges. The order of the events is that of their
keys all the same, and a ticket is a function of its own events; so an engine that takes the objects of a
ticket shows the ticket as the engine they come from, and shows every other ticket as before.
-/
import Fortiq.Engine.Recovery
import Fortiq.Event.Sync

namespace Fortiq

namespace TicketEngine

variable {env : Env} {U : Set Event} {s a b : TicketEngine}

/-! ## Reading objects -/

/-- Every read succeeds. -/
def readOk : ObjectId → Option String := fun _ => none

/-- The object of an event of the graph can be read, and carries the event. -/
theorem Kept.get_object (h : Kept env U s) {e : Event} (he : e ∈ s.graph.events) :
    ∃ obj, s.store.get env.crypto readOk e.id = .ok (some obj) ∧ decoded env obj = some e := by
  obtain ⟨obj, ho, hd⟩ := h.backed e he
  have hid : obj.id = e.id := (Event.fromSignedObject_ok (decoded_eq_some.1 hd)).1.symm
  refine ⟨obj, ?_, hd⟩
  have hfind : s.store.objects.find? (fun o => o.id = e.id) = some obj := by
    cases hf : s.store.objects.find? (fun o => o.id = e.id) with
    | none =>
      rw [List.find?_eq_none] at hf
      exact absurd hid (by simpa using hf obj ho)
    | some o =>
      have hoid : o.id = e.id := by simpa using List.find?_some hf
      rw [List.inj_on_of_nodup_map s.store.nodup (List.mem_of_find?_eq_some hf) ho (hoid.trans hid.symm)]
  simp only [FsObjectStore.get, hfind, readOk, h.verify ho, Result.context_ok]

/-- Objects that can be read are read, one for each id. -/
theorem getObjects_run_ok {Q : ObjectId → SignedObject → Prop} : ∀ (ids : List ObjectId),
    (∀ i ∈ ids, ∃ obj, s.store.get env.crypto readOk i = .ok (some obj) ∧ Q i obj) →
    ∃ objects, (Call.getObjects readOk ids).run (exec env) s = (.ok objects, s) ∧
      (∀ obj ∈ objects, ∃ i ∈ ids, Q i obj) ∧ ∀ i ∈ ids, ∃ obj ∈ objects, Q i obj
  | [], _ => ⟨[], rfl, by simp, by simp⟩
  | i :: ids, h => by
    rw [List.forall_mem_cons] at h
    obtain ⟨⟨obj, hget, hq⟩, hrest⟩ := h
    obtain ⟨objects, hrun, hof, hall⟩ := getObjects_run_ok ids hrest
    refine ⟨obj :: objects, ?_, ?_, ?_⟩
    · show Prog.run (exec env) (Prog.bind (.ofExcept (s.store.get env.crypto readOk i)) _) s = _
      rw [hget]
      show Prog.run (exec env) (Call.getObjects readOk ids >>= fun objects => .ret ((some obj).toList ++ objects)) s = _
      rw [Prog.run_bind, hrun]
      rfl
    · rw [List.forall_mem_cons]
      refine ⟨⟨i, List.mem_cons_self .., hq⟩, fun o ho => ?_⟩
      obtain ⟨j, hj, hq⟩ := hof o ho
      exact ⟨j, List.mem_cons_of_mem _ hj, hq⟩
    · rw [List.forall_mem_cons]
      refine ⟨⟨obj, List.mem_cons_self .., hq⟩, fun j hj => ?_⟩
      obtain ⟨o, ho, hq⟩ := hall j hj
      exact ⟨o, List.mem_cons_of_mem _ ho, hq⟩

/-- The objects of a ticket carry the events of the ticket, and nothing else. -/
theorem Kept.getTicketObjects (h : Kept env U s) (t : String) :
    ∃ objects, (Call.getTicketObjects readOk t).run (exec env) s = (.ok objects, s) ∧
      (∀ obj ∈ objects, ∃ e ∈ s.graph.events, decoded env obj = some e ∧ e.about t = true) ∧
      ∀ e ∈ s.graph.events, e.about t = true → e ∈ Carried env objects := by
  have hids : ∀ i, i ∈ s.graph.ticketEventIds t ↔ ∃ e ∈ s.graph.events, e.about t = true ∧ e.id = i := by
    intro i
    simp [EventGraph.ticketEventIds, KeyOrder.mem_keySort, Event.about, and_assoc]
  obtain ⟨objects, hrun, hof, hall⟩ := getObjects_run_ok
    (Q := fun i obj => ∃ e ∈ s.graph.events, e.id = i ∧ decoded env obj = some e ∧ e.about t = true)
    (s.graph.ticketEventIds t) fun i hi => by
      obtain ⟨e, he, hab, rfl⟩ := (hids i).1 hi
      obtain ⟨obj, hget, hd⟩ := h.get_object he
      exact ⟨obj, hget, e, he, rfl, hd, hab⟩
  refine ⟨objects, hrun, fun obj ho => ?_, fun e he hab => ?_⟩
  · obtain ⟨-, -, e, he, -, hd, hab⟩ := hof obj ho
    exact ⟨e, he, hd, hab⟩
  · obtain ⟨obj, ho, e', he', hid, hd, -⟩ := hall e.id ((hids e.id).2 ⟨e, he, hab, rfl⟩)
    exact ⟨obj, ho, EventGraph.id_inj he' he hid ▸ hd⟩

/-! ## Taking objects in -/

/-- Objects whose events contradict neither each other nor the graph are all accepted. -/
theorem ingest_all (hU : IdealIds U) {S : Set Event} (hS : Consistent S) : ∀ (objects : List SignedObject) (n : Nat)
    (s : TicketEngine), Sound U s → (∀ e ∈ s.graph.events, e ∈ S) →
    (∀ obj ∈ objects, ∃ e ∈ S, e ∈ U ∧ decoded env obj = some e) →
    (objects.foldl (ingestObject env diskOk) (n, s)).1 = n + objects.length
  | [], _, _, _, _, _ => rfl
  | obj :: objects, n, s, h, hg, hobj => by
    rw [List.forall_mem_cons] at hobj
    obtain ⟨⟨e, heS, heU, hd⟩, hrest⟩ := hobj
    rw [List.foldl_cons]
    rcases ingestObject_cases env diskOk n s obj with ⟨-, hskip⟩ | ⟨e', store', hd', -, he⟩
    · rcases hskip with hn | hw
      · rw [hd] at hn; cases hn
      · exact absurd hw.2.2 (by simp [diskOk])
    · rw [hd] at hd'; cases hd'
      have hok : (s.graph.insert e).1 = .ok () := by
        refine EventGraph.insert_isOk_iff.2 (.inr ?_)
        rw [h.inv.conflict_iff_contradict]
        rintro ⟨x, hx, hcon⟩
        exact consistent_iff.1 hS x (hg x hx) e heS hcon
      rw [he, if_pos hok]
      have hsound : Sound U { s with store := store', graph := (s.graph.insert e).2 } :=
        (sound_insertAll hU h (l := [e]) (by simpa using heU) rfl).1
      rw [ingest_all hU hS objects (n + 1) _ hsound (fun x hx => ?_) hrest, List.length_cons]
      · omega
      · rcases EventGraph.mem_insert.1 hx with hx | ⟨rfl, -⟩
        · exact hg x hx
        · exact heS

/-- What `apply_remote_objects` returns is what it counted. -/
theorem applyRemoteObjects_result (env : Env) (disk : Disk) (objects : List SignedObject) (s : TicketEngine) :
    (perform env disk (.applyRemoteObjects objects) s).1 =
      .ok (.count (objects.foldl (ingestObject env disk) ((0 : Nat), s)).1) := by
  show (Prog.run (exec env) (Prog.bind (if (objects.foldl (ingestObject env disk) ((0 : Nat), s)).1 > 0 then _ else _) _)
    (objects.foldl (ingestObject env disk) ((0 : Nat), s)).2).1 = _
  split <;> rfl

/-- With a working disk every event that is carried is written. -/
theorem mem_written_ok {e : Event} : ∀ (objects : List SignedObject) (store : FsObjectStore),
    e ∈ Carried env objects → e ∈ written env diskOk store objects
  | obj :: objects, store, ⟨o, ho, hd⟩ => by
    unfold written
    rcases List.mem_cons.1 ho with rfl | ho
    · have hv := (Event.fromSignedObject_ok (decoded_eq_some.1 hd)).2
      rcases FsObjectStore.put_of_verify diskOk store hv with ⟨hw, -⟩ | ⟨store', hp⟩
      · exact absurd hw.2.2 (by simp [diskOk])
      · simp [hd, hp]
    · have hrest : ∀ st, e ∈ written env diskOk st objects := fun st => mem_written_ok objects st ⟨o, ho, hd⟩
      split
      · exact List.mem_cons_of_mem _ (hrest _)
      · exact hrest _

/-- The graph after objects that contradict nothing. -/
theorem mem_applied (hU : IdealIds U) {S : Set Event} (hS : Consistent S) (h : Sound U s)
    (hg : ∀ e ∈ s.graph.events, e ∈ S) {objects : List SignedObject}
    (hobj : ∀ obj ∈ objects, ∃ e ∈ S, e ∈ U ∧ decoded env obj = some e) {e : Event} :
    e ∈ (perform env diskOk (.applyRemoteObjects objects) s).2.graph.events ↔
      e ∈ s.graph.events ∨ e ∈ Carried env objects := by
  have hmem : ∀ x ∈ written env diskOk s.store objects, x ∈ S ∧ x ∈ U := by
    intro x hx
    obtain ⟨obj, ho, hd⟩ := mem_written hx
    obtain ⟨x', hS', hU', hd'⟩ := hobj obj ho
    rw [hd] at hd'; cases hd'
    exact ⟨hS', hU'⟩
  rw [applyRemoteObjects_graph, h.inv.insertAll_consistent hU h.mem fun x hx => (hmem x hx).2]
  · exact or_congr_right ⟨mem_written, mem_written_ok objects s.store⟩
  · rintro p hp c hc
    exact hS p (hp.elim (hg p) fun hp => (hmem p hp).1) c (hc.elim (hg c) fun hc => (hmem c hc).1)

/-! ## One ticket from one engine to another -/

/-- Ticket-scoped synchronisation is faithful. The objects of a ticket can be read; taken in any order by an engine
with no other events than those of the first, all are accepted, and the ticket is then shown as there, while every
other ticket is shown as before. -/
theorem ticket_sync (hU : IdealIds U) (hc : env.RoundTrips) (ha : Life env U a) (hb : Life env U b)
    (hsub : ∀ e ∈ b.graph.events, e ∈ a.graph.events) (t : String) :
    ∃ objects, (Call.getTicketObjects readOk t).run (exec env) a = (.ok objects, a) ∧
      ∀ l : List SignedObject, l.Perm objects →
        (perform env diskOk (.applyRemoteObjects l) b).1 = .ok (.count l.length) ∧
        (perform env diskOk (.applyRemoteObjects l) b).2.state.getTicketDetail t = a.state.getTicketDetail t ∧
        ∀ t', t' ≠ t →
          (perform env diskOk (.applyRemoteObjects l) b).2.state.getTicketDetail t' = b.state.getTicketDetail t' := by
  obtain ⟨hka, hsa⟩ := ha.kept hU hc
  obtain ⟨hkb, hsb⟩ := hb.kept hU hc
  obtain ⟨objects, hrun, hevents, hall⟩ := hka.getTicketObjects t
  refine ⟨objects, hrun, fun l hl => ?_⟩
  have hobj : ∀ obj ∈ l, ∃ e ∈ {e | e ∈ a.graph.events}, e ∈ U ∧ decoded env obj = some e := by
    intro obj ho
    obtain ⟨e, he, hd, -⟩ := hevents obj (hl.mem_iff.1 ho)
    exact ⟨e, he, hka.sound.mem e he, hd⟩
  have hmem := fun e => mem_applied (e := e) hU hka.sound.inv.consistent hkb.sound hsub hobj
  -- the batch keeps the engine sound and synchronised
  have hadm : Admitted env U diskOk (.applyRemoteObjects l) b := by
    have hing : Admits env U (.ingest l diskOk) b := by
      intro e he
      obtain ⟨obj, ho, hd⟩ := List.mem_filterMap.1 he
      obtain ⟨e', -, hU', hd'⟩ := hobj obj ho
      rw [hd] at hd'; cases hd'; exact hU'
    intro x hx
    rcases List.mem_cons.1 hx with rfl | hx
    · exact hing
    · simp only at hx
      split at hx
      · rw [List.mem_singleton.1 hx]; intro e he; cases he
      · cases hx
  obtain ⟨hkb', hsb'⟩ := (hb.call diskOk _ hadm).kept hU hc
  have hview : ∀ t' : String, ∀ s : TicketEngine, Sound U s → Synced env s →
      (∀ e : Event, e.about t' = true → (e ∈ (perform env diskOk (.applyRemoteObjects l) b).2.graph.events ↔
        e ∈ s.graph.events)) →
      (perform env diskOk (.applyRemoteObjects l) b).2.state.getTicketDetail t' = s.state.getTicketDetail t' := by
    intro t' s hs hsync hev
    rw [TicketStateStore.getTicketDetail, TicketStateStore.getTicketDetail, hsb', hsync, hkb'.sound.reduce_eq, hs.reduce_eq,
      TicketReducer.replay_get_congr (EventGraph.nodup_sortKey _) (EventGraph.nodup_sortKey _) hev]
  refine ⟨?_, hview t a hka.sound hsa fun e hab => ?_, fun t' hne => hview t' b hkb.sound hsb fun e hab => ?_⟩
  · rw [applyRemoteObjects_result, ingest_all hU hka.sound.inv.consistent l 0 b hkb.sound hsub hobj, Nat.zero_add]
  · rw [hmem]
    constructor
    · rintro (he | ⟨obj, ho, hd⟩)
      · exact hsub e he
      · obtain ⟨e', he', hd', -⟩ := hevents obj (hl.mem_iff.1 ho)
        rw [hd] at hd'; cases hd'; exact he'
    · intro he
      obtain ⟨obj, ho, hd⟩ := hall e he hab
      exact .inr ⟨obj, hl.mem_iff.2 ho, hd⟩
  · rw [hmem]
    refine ⟨fun h => h.resolve_right ?_, .inl⟩
    rintro ⟨obj, ho, hd⟩
    obtain ⟨e', -, hd', hab'⟩ := hevents obj (hl.mem_iff.1 ho)
    rw [hd] at hd'; cases hd'
    simp only [Event.about, decide_eq_true_eq] at hab hab'
    exact hne (Option.some_injective _ (hab.symm.trans hab'))

section Sample

/-- Two tickets whose events are chained through each other. -/
def chainTable : EventTable where
  bodies :=
    [⟨[], 10, 1, .ticket (.created "T-aaaaaaaa" "printer" "on fire" .high "alice")⟩,
     ⟨[idAt 0], 20, 2, .ticket (.created "T-bbbbbbbb" "mouse" "gone" .normal "alice")⟩,
     ⟨[idAt 1], 30, 3, .ticket (.statusChanged "T-aaaaaaaa" .inProgress "alice" none)⟩]

/-- The engine with both tickets. -/
def chained : {s : TicketEngine // Life chainTable.env chainTable.inPlay s} :=
  ⟨_, (((Life.start alice ⟨none⟩).call diskOk (.createTicket "aaaaaaaa" 10 "printer" "on fire" .high "alice")
    (by decide +kernel)).call diskOk (.createTicket "bbbbbbbb" 20 "mouse" "gone" .normal "alice")
    (by decide +kernel)).call diskOk (.updateTicketState 30 "T-aaaaaaaa" .inProgress "alice") (by decide +kernel)⟩

/-- An empty engine takes the first ticket, without the event between its two: two objects are accepted and the
ticket is in progress on both sides. -/
theorem ticket_sync_chained :
    ∃ objects, (Call.getTicketObjects readOk "T-aaaaaaaa").run (exec chainTable.env) chained.1 = (.ok objects, chained.1) ∧
      ∀ l : List SignedObject, l.Perm objects →
        (perform chainTable.env diskOk (.applyRemoteObjects l) (fresh bob ⟨none⟩)).1 = .ok (.count l.length) ∧
        (perform chainTable.env diskOk (.applyRemoteObjects l) (fresh bob ⟨none⟩)).2.state.getTicketDetail "T-aaaaaaaa" =
          chained.1.state.getTicketDetail "T-aaaaaaaa" ∧
        ∀ t', t' ≠ "T-aaaaaaaa" →
          (perform chainTable.env diskOk (.applyRemoteObjects l) (fresh bob ⟨none⟩)).2.state.getTicketDetail t' =
            (fresh bob ⟨none⟩).state.getTicketDetail t' :=
  ticket_sync chainTable.idealIds chainTable.roundTrips chained.2 (Life.start bob ⟨none⟩)
    (by simp [fresh, EventGraph.new]) "T-aaaaaaaa"

end Sample

end TicketEngine

end Fortiq
