/-
What a run does to one ticket. A remote event joins the history at the place of its key, and the whole
history is folded anew, so what a ticket keeps has to be a fact about sets of events. Closure is one: no
event, wherever it sorts, undoes it. Identity and revision are not: a creation event that sorts before the
held one replaces the identity, and an event that sorts among the held ones recounts the revision. Both
are characterised by where the new events sort.
-/
import Fortiq.Engine.Replay

namespace Fortiq

namespace TicketReducer

open Replay

variable {env : Env}

/-- More events never reopen a ticket. -/
theorem closed_stateOf_mono {S T : Finset Event} (hT : Set.InjOn Event.sortKey (T : Set Event)) (hST : S ⊆ T) {t : String}
    (h : Closed (stateOf Event.sortKey (step env) TicketStateStore.new S) t) :
    Closed (stateOf Event.sortKey (step env) TicketStateStore.new T) t := by
  have hS : Set.InjOn Event.sortKey (S : Set Event) := hT.mono (by exact_mod_cast hST)
  obtain ⟨a, ha, b, hb, hc, hcl, hlt⟩ := (replay_closed (nodup_toList_map hS)).1 h
  refine (replay_closed (nodup_toList_map hT)).2 ⟨a, ?_, b, ?_, hc, hcl, hlt⟩
  · exact Finset.mem_toList.2 (hST (Finset.mem_toList.1 ha))
  · exact Finset.mem_toList.2 (hST (Finset.mem_toList.1 hb))

/-- More events keep a ticket; its identity changes exactly if one of the new events creates the ticket with
another identity and sorts before every other creation of it. -/
theorem replay_identity_append {l new : List Event} (hn : ((l ++ new).map Event.id).Nodup) {t : String} {a : TicketAggregate}
    (ha : (replay env l).get t = some a) :
    ∃ a', (replay env (l ++ new)).get t = some a' ∧ (a'.record.identity = a.record.identity ↔
      ¬ ∃ e ∈ new, e.creates t = true ∧ e.creation ≠ some a.record.identity ∧
        ∀ f ∈ l ++ new, f.creates t = true → e.sortKey ≤ f.sortKey) := by
  obtain ⟨e₀, he₀, hc₀, hi₀, hmin₀⟩ := replay_identity ha
  have hsome : ((replay env (l ++ new)).get t).isSome := replay_isSome.2 ⟨e₀, List.mem_append_left _ he₀, hc₀⟩
  obtain ⟨a', ha'⟩ := Option.isSome_iff_exists.1 hsome
  obtain ⟨e₁, he₁, hc₁, hi₁, hmin₁⟩ := replay_identity ha'
  -- two creations that both sort first are the same event
  have huniq : ∀ x ∈ l ++ new, ∀ y ∈ l ++ new, x.sortKey ≤ y.sortKey → y.sortKey ≤ x.sortKey → x = y :=
    fun x hx y hy h1 h2 => List.inj_on_of_nodup_map hn hx hy (EventGraph.sortKey_id (le_antisymm h1 h2))
  refine ⟨a', ha', ?_, ?_⟩
  · rintro heq ⟨e, he, hc, hne, hmin⟩
    have hmem := List.mem_append_right l he
    obtain rfl := huniq e hmem e₁ he₁ (hmin e₁ he₁ hc₁) (hmin₁ e hmem hc)
    exact hne (by rw [← hi₁, heq])
  · intro hno
    rcases List.mem_append.1 he₁ with hold | hnew
    · obtain rfl := huniq e₁ he₁ e₀ (List.mem_append_left _ he₀) (hmin₁ e₀ (List.mem_append_left _ he₀) hc₀)
        (hmin₀ e₁ hold hc₁)
      exact Option.some_injective _ (hi₁.trans hi₀.symm)
    · by_contra hne
      refine hno ⟨e₁, hnew, hc₁, fun heq => hne ?_, hmin₁⟩
      exact Option.some_injective _ (hi₁.trans heq)

theorem closed_iff_getTicket {s : TicketStateStore} {t : String} :
    Closed s t ↔ (s.getTicket t).map TicketRecord.state = some .closed := by
  simp [Closed, TicketStateStore.getTicket]

end TicketReducer

namespace TicketEngine

open TicketReducer

variable {env : Env} {U : Set Event} {s s' : TicketEngine}

/-! ## Closure -/

/-- A replica that shows a ticket closed keeps showing it closed. -/
theorem closed_of_grows {r r' : Replica env} (h : r.Grows r') {t : String} (hc : Closed r.view t) : Closed r'.view t :=
  Replay.Replica.stays (P := fun v => Closed v t) (fun _ _ hT hST => closed_stateOf_mono hT hST) h hc

/-- A closed ticket stays closed: after every further operation of a run, and in every reachable graph
with more events. -/
theorem closed_forever (hU : IdealIds U) (t : String) :
    (∀ s s', Reach env U s → Run env U s s' → (s.state.getTicket t).map TicketRecord.state = some .closed →
      (s'.state.getTicket t).map TicketRecord.state = some .closed) ∧
    ∀ s s', Reach env U s → Reach env U s' → (∀ e ∈ s.graph.events, e ∈ s'.graph.events) →
      ((reduce env s.graph).getTicket t).map TicketRecord.state = some .closed →
      ((reduce env s'.graph).getTicket t).map TicketRecord.state = some .closed := by
  constructor
  · intro s s' h hr hc
    rw [← closed_iff_getTicket] at hc ⊢
    exact closed_of_grows (hr.replica_grows hU h) hc
  · intro s s' h h' hsub hc
    rw [← closed_iff_getTicket, ← h.synced hU] at hc
    rw [← closed_iff_getTicket, ← h'.synced hU]
    have hgrows : (h.replica hU).Grows (h'.replica hU) := fun e he => mem_log.2 (hsub e (mem_log.1 he))
    exact closed_of_grows hgrows hc

section Sample

/-- A ticket with a status change, a back-dated closure that sorts between the two, and a back-dated
creation that sorts before both. -/
def lateTable : EventTable where
  bodies :=
    [⟨[], 10, 1, .ticket (.created "T-aaaaaaaa" "printer" "on fire" .high "alice")⟩,
     ⟨[idAt 0], 20, 2, .ticket (.statusChanged "T-aaaaaaaa" .inProgress "alice" none)⟩,
     ⟨[], 15, 1, .ticket (.statusChanged "T-aaaaaaaa" .closed "mallory" none)⟩,
     ⟨[], 5, 1, .ticket (.created "T-aaaaaaaa" "stolen" "" .normal "mallory")⟩]

/-- The ticket is created. -/
def lateCreated : Reached lateTable :=
  (Reached.start lateTable).after (.createTicket "aaaaaaaa" 10 "printer" "on fire" .high "alice")

/-- It is taken up. -/
def lateTaken : Reached lateTable := lateCreated.after (.updateTicketState 20 "T-aaaaaaaa" .inProgress "alice")

/-- The back-dated closure arrives. -/
def lateClosed : Reached lateTable := lateTaken.after (.applyRemoteObject (objectAt alice 2 15))

/-- The back-dated creation arrives too. -/
def lateStolen : Reached lateTable := lateClosed.after (.applyRemoteObject (objectAt alice 3 5))

/-- The ticket of the sample is closed, and still is when a creation arrives that sorts first. -/
theorem closed_forever_lateStolen :
    (lateClosed.engine.state.getTicket "T-aaaaaaaa").map TicketRecord.state = some .closed ∧
    (lateStolen.engine.state.getTicket "T-aaaaaaaa").map TicketRecord.state = some .closed ∧
    ((reduce lateTable.env lateStolen.engine.graph).getTicket "T-aaaaaaaa").map TicketRecord.state = some .closed := by
  have hc : (lateClosed.engine.state.getTicket "T-aaaaaaaa").map TicketRecord.state = some .closed := by decide +kernel
  have hU := lateTable.idealIds
  have hstep : Step lateTable.env lateTable.inPlay lateClosed.engine lateStolen.engine := Reached.step_after _ _ _
  refine ⟨hc, (closed_forever hU _).1 _ _ lateClosed.reach (.single hstep) hc, ?_⟩
  refine (closed_forever hU _).2 _ _ lateClosed.reach lateStolen.reach ?_ ?_
  · exact (Run.sound hU (.single hstep) (lateClosed.reach.sound hU)).2
  · rw [← lateClosed.reach.synced hU]; exact hc

end Sample

/-! ## Identity -/

/-- Among the events that the call gets accepted, one creates the ticket with an identity other than the held
one and sorts before every other creation of it, held or accepted. -/
def Usurped (env : Env) (disk : Disk) (objects : List SignedObject) (s : TicketEngine) (t : String) : Prop :=
  let new := s.graph.accepted (written env disk s.store objects)
  ∃ e ∈ new, e.creates t = true ∧ e.creation ≠ (s.state.get t).map (fun a => a.record.identity) ∧
    ∀ f ∈ s.graph.events ++ new, f.creates t = true → e.sortKey ≤ f.sortKey

theorem Step.identity_iff (hU : IdealIds U) (h : Reach env U s) (hs : Step env U s s') {new : List Event}
    (hg : s'.graph.events = s.graph.events ++ new) {t : String} {a : TicketAggregate} (ha : s.state.get t = some a) :
    ∃ a', s'.state.get t = some a' ∧ (a'.record.identity = a.record.identity ↔
      ¬ ∃ e ∈ new, e.creates t = true ∧ e.creation ≠ some a.record.identity ∧
        ∀ f ∈ s.graph.events ++ new, f.creates t = true → e.sortKey ≤ f.sortKey) := by
  have h' := h.step hs
  rw [h.synced hU, (h.sound hU).reduce_eq] at ha
  rw [h'.synced hU, (h'.sound hU).reduce_eq, hg]
  exact replay_identity_append (hg ▸ s'.graph.nodup) ha

/-- A remote object or batch keeps every ticket, and keeps its identity exactly if it does not usurp it. -/
theorem identity_kept_iff (hU : IdealIds U) (h : Reach env U s) {t : String} {a : TicketAggregate}
    (ha : s.state.get t = some a) :
    (∀ disk obj, Admitted env U disk (.applyRemoteObject obj) s →
      ∃ a', (perform env disk (.applyRemoteObject obj) s).2.state.get t = some a' ∧
        (a'.record.identity = a.record.identity ↔ ¬ Usurped env disk [obj] s t)) ∧
    ∀ disk objects, Admitted env U disk (.applyRemoteObjects objects) s →
      ∃ a', (perform env disk (.applyRemoteObjects objects) s).2.state.get t = some a' ∧
        (a'.record.identity = a.record.identity ↔ ¬ Usurped env disk objects s t) := by
  simp only [Usurped, ha, Option.map_some]
  constructor
  · intro disk obj hadm
    refine Step.identity_iff hU h ⟨disk, _, hadm, rfl⟩ ?_ ha
    rw [applyRemoteObject_graph, EventGraph.insertAll_events]
  · intro disk objects hadm
    refine Step.identity_iff hU h ⟨disk, _, hadm, rfl⟩ ?_ ha
    rw [applyRemoteObjects_graph, EventGraph.insertAll_events]

/-- The back-dated creation of the sample gives the ticket another title, description, priority and client. -/
theorem identity_replaced :
    IdealIds lateTable.inPlay ∧ Reach lateTable.env lateTable.inPlay lateClosed.engine ∧
    lateStolen.engine =
      (perform lateTable.env diskOk (.applyRemoteObject (objectAt alice 3 5)) lateClosed.engine).2 ∧
    (lateClosed.engine.state.getTicket "T-aaaaaaaa").map TicketRecord.identity =
      some ⟨"T-aaaaaaaa", "printer", "on fire", .high, "alice", 10⟩ ∧
    (lateStolen.engine.state.getTicket "T-aaaaaaaa").map TicketRecord.identity =
      some ⟨"T-aaaaaaaa", "stolen", "", .normal, "mallory", 5⟩ :=
  ⟨lateTable.idealIds, lateClosed.reach, rfl, by decide +kernel, by decide +kernel⟩

/-- The theorem at the sample before the two back-dated objects arrive: the closure by itself, which keeps the identity,
and both in one batch, which do not. -/
theorem identity_kept_iff_lateTaken : ∃ a, lateTaken.engine.state.get "T-aaaaaaaa" = some a ∧
    ¬ Usurped lateTable.env diskOk [objectAt alice 2 15] lateTaken.engine "T-aaaaaaaa" ∧
    Usurped lateTable.env diskOk [objectAt alice 2 15, objectAt alice 3 5] lateTaken.engine "T-aaaaaaaa" := by
  obtain ⟨hsome, hkept, hlost⟩ : (lateTaken.engine.state.get "T-aaaaaaaa").isSome ∧
      ((perform lateTable.env diskOk (.applyRemoteObject (objectAt alice 2 15)) lateTaken.engine).2.state.get
        "T-aaaaaaaa").map (fun a => a.record.identity) =
        (lateTaken.engine.state.get "T-aaaaaaaa").map (fun a => a.record.identity) ∧
      ((perform lateTable.env diskOk (.applyRemoteObjects [objectAt alice 2 15, objectAt alice 3 5])
        lateTaken.engine).2.state.get "T-aaaaaaaa").map (fun a => a.record.identity) ≠
        (lateTaken.engine.state.get "T-aaaaaaaa").map (fun a => a.record.identity) := by decide +kernel
  obtain ⟨a, ha⟩ := Option.isSome_iff_exists.1 hsome
  obtain ⟨hsingle, hbatch⟩ := identity_kept_iff lateTable.idealIds lateTaken.reach ha
  obtain ⟨b, hb, hbiff⟩ := hsingle diskOk (objectAt alice 2 15) (by decide +kernel)
  obtain ⟨c, hc, hciff⟩ := hbatch diskOk [objectAt alice 2 15, objectAt alice 3 5] (by decide +kernel)
  rw [ha, hb, Option.map_some, Option.map_some, Option.some.injEq] at hkept
  rw [ha, hc, Option.map_some, Option.map_some, Ne, Option.some.injEq] at hlost
  exact ⟨a, ha, hbiff.1 hkept, by_contra fun h => hlost (hciff.2 h)⟩

/-! ## Revision -/

/-- Every new remote event about an existing ticket sorts after all events held about it. -/
def InOrder (env : Env) (m : Mutation) (s : TicketEngine) : Prop :=
  ∀ obj ∈ m.remoteObjects, ∀ e, decoded env obj = some e → s.graph.contains e.id = false →
    ∀ t, e.about t = true → (s.state.get t).isSome → ∀ f ∈ s.graph.events, f.about t = true → f.sortKey < e.sortKey

/-- A mutation that brings its remote events in order. -/
def OrderedStep (env : Env) (U : Set Event) (s s' : TicketEngine) : Prop :=
  ∃ disk m, Admitted env U disk m s ∧ InOrder env m s ∧ s' = (perform env disk m s).2

theorem OrderedStep.step (h : OrderedStep env U s s') : Step env U s s' := by
  obtain ⟨disk, m, ha, -, hs⟩ := h
  exact ⟨disk, m, ha, hs⟩

/-- The events about an existing ticket that an ordered step adds sort after those it finds. -/
theorem OrderedStep.last (hU : IdealIds U) (h : Sound U s) (hs : OrderedStep env U s s') {t : String}
    (ht : (s.state.get t).isSome) : ∀ b ∈ s'.graph.events, b ∉ s.graph.events → b.about t = true →
      ∀ a ∈ s.graph.events, a.about t = true → a.sortKey < b.sortKey := by
  obtain ⟨disk, m, ha, hord, rfl⟩ := hs
  intro b hb hn hbt a has hat
  cases hm : m.isLocal with
  | true => exact (local_growsLast hU hm ha h).2 b hb hn a has
  | false =>
    obtain ⟨obj, ho, hd, hnew⟩ := remote_new hU h hm ha hb hn
    exact hord obj ho b hd hnew t hbt ht a has hat

theorem OrderedStep.revision (hU : IdealIds U) (hfin : U.Finite) (hcard : U.ncard < 2 ^ 64) (h : Reach env U s)
    (hs : OrderedStep env U s s') {t : String} {a : TicketAggregate} (ha : s.state.get t = some a) :
    ∃ a', s'.state.get t = some a' ∧ (a' = a ∨ a.record.revision < a'.record.revision) := by
  have h' := h.step hs.step
  obtain ⟨hsound', hgrow⟩ := Step.sound hU hs.step (h.sound hU)
  have hlast := OrderedStep.last hU (h.sound hU) hs (t := t) (by simp [ha])
  have hlen := hsound'.length_le hfin
  have hrev := @replay_revision_mono env _ _ s.graph.nodup_sortKey s'.graph.nodup_sortKey hgrow _ hlast (by omega)
  rw [← (h.sound hU).reduce_eq, ← hsound'.reduce_eq, ← h.synced hU, ← h'.synced hU, ha] at hrev
  cases ha' : s'.state.get t with
  | none =>
    rw [ha'] at hrev
    rcases hrev with hrev | hrev
    · cases hrev
    · simp [revisionOf] at hrev
  | some a' =>
    refine ⟨a', rfl, ?_⟩
    rw [ha'] at hrev
    rcases hrev with hrev | hrev
    · exact .inl (Option.some_injective _ hrev)
    · exact .inr (UInt64.lt_iff_toNat_lt.2 hrev)

/-- In every run whose mutations bring their remote events in order, between any two states a ticket is
unchanged or its revision has grown. -/
theorem revision_detects_change (hU : IdealIds U) (hfin : U.Finite) (hcard : U.ncard < 2 ^ 64) (h : Reach env U s)
    (hr : Relation.ReflTransGen (OrderedStep env U) s s') {t : String} {a : TicketAggregate} (ha : s.state.get t = some a) :
    ∃ a', s'.state.get t = some a' ∧ (a' = a ∨ a.record.revision < a'.record.revision) := by
  induction hr with
  | refl => exact ⟨a, ha, .inl rfl⟩
  | @tail s₁ s₂ hr hs ih =>
    obtain ⟨a₁, ha₁, h₁⟩ := ih
    have hreach : Reach env U s₁ := h.run (hr.lift id fun _ _ => OrderedStep.step)
    obtain ⟨a₂, ha₂, h₂⟩ := OrderedStep.revision hU hfin hcard hreach hs ha₁
    refine ⟨a₂, ha₂, ?_⟩
    rcases h₁ with rfl | h₁
    · exact h₂
    · rcases h₂ with rfl | h₂
      · exact .inr h₁
      · exact .inr (UInt64.lt_trans h₁ h₂)

/-- The back-dated closure of the sample sorts before the status change, which is refused in the new history:
the ticket changes from in progress to closed at revision 2. -/
theorem revision_misses_change :
    IdealIds lateTable.inPlay ∧ Reach lateTable.env lateTable.inPlay lateTaken.engine ∧
    Step lateTable.env lateTable.inPlay lateTaken.engine lateClosed.engine ∧
    (lateTaken.engine.state.getTicket "T-aaaaaaaa").map (fun r => (r.state, r.revision)) = some (.inProgress, 2) ∧
    (lateClosed.engine.state.getTicket "T-aaaaaaaa").map (fun r => (r.state, r.revision)) = some (.closed, 2) :=
  ⟨lateTable.idealIds, lateTaken.reach, Reached.step_after _ _ _, by decide +kernel, by decide +kernel⟩

/-- The status change, taken as a remote object, is in order and grows the revision. -/
theorem revision_detects_change_lateCreated :
    ∃ a, lateCreated.engine.state.get "T-aaaaaaaa" = some a ∧ ∃ a',
      (perform lateTable.env diskOk (.applyRemoteObject (objectAt alice 1 20)) lateCreated.engine).2.state.get
        "T-aaaaaaaa" = some a' ∧ (a' = a ∨ a.record.revision < a'.record.revision) := by
  have hsome : (lateCreated.engine.state.get "T-aaaaaaaa").isSome := by decide +kernel
  obtain ⟨a, ha⟩ := Option.isSome_iff_exists.1 hsome
  have hlast : (decoded lateTable.env (objectAt alice 1 20)).all fun e =>
      lateCreated.engine.graph.events.all fun f => f.sortKey < e.sortKey := by decide +kernel
  have hord : InOrder lateTable.env (.applyRemoteObject (objectAt alice 1 20)) lateCreated.engine := by
    intro obj hobj e he _ t _ _ f hf _
    rw [List.mem_singleton.1 hobj] at he
    simp only [he, Option.all_some, List.all_eq_true, decide_eq_true_eq] at hlast
    exact hlast f hf
  obtain ⟨hfin, hcard⟩ := lateTable.finite_ncard_le
  have hstep : OrderedStep lateTable.env lateTable.inPlay lateCreated.engine _ :=
    ⟨diskOk, _, by decide +kernel, hord, rfl⟩
  exact ⟨a, ha, revision_detects_change lateTable.idealIds hfin (lt_of_le_of_lt hcard (by decide)) lateCreated.reach
    (.single hstep) ha⟩

end TicketEngine

end Fortiq
