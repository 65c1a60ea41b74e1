/-
Restarts and delivery orders. An engine reopened on its store loads the files in the order of a directory
walk, through the same insertion as before, and an object is on disk before the graph decides on its event.
So what a restart brings back depends on the listing exactly if two stored events contradict each other, and
the same condition decides whether a set of objects is accepted alike in every order.
-/
import Fortiq.Engine.Replay
import Fortiq.Event.Order

namespace Fortiq

namespace TicketEngine

variable {env : Env} {U : Set Event} {s s' : TicketEngine}

/-! ## Delivery orders -/

/-- The event is carried by one of the objects. -/
def Carried (env : Env) (objects : List SignedObject) : Set Event := {e | ∃ obj ∈ objects, decoded env obj = some e}

theorem mem_carried_iff {objects : List SignedObject} {e : Event} :
    e ∈ objects.filterMap (decoded env) ↔ e ∈ Carried env objects := List.mem_filterMap

/-- The graph that takes the objects one after the other and ignores the errors. -/
def load (env : Env) (objects : List SignedObject) : EventGraph := objects.foldl (loadObject env) EventGraph.new

theorem load_eq (objects : List SignedObject) : load env objects = EventGraph.new.insertAll (objects.filterMap (decoded env)) :=
  foldl_loadObject objects _

theorem load_inv {objects : List SignedObject} (hU : IdealIds U) (hsub : ∀ e ∈ Carried env objects, e ∈ U) :
    (load env objects).Inv := by
  rw [load_eq]
  exact EventGraph.inv_new.insertAll _ fun e he => hU.noSelf e (hsub e (mem_carried_iff.1 he))

theorem mem_load {objects : List SignedObject} {e : Event} (h : e ∈ (load env objects).events) : e ∈ Carried env objects := by
  rw [load_eq] at h
  rcases EventGraph.mem_of_mem_insertAll _ _ h with h | h
  · cases h
  · exact mem_carried_iff.1 h

/-- A consistent set of events is loaded whole. -/
theorem mem_load_iff {objects : List SignedObject} (hU : IdealIds U) (hsub : ∀ e ∈ Carried env objects, e ∈ U)
    (hc : Consistent (Carried env objects)) {e : Event} : e ∈ (load env objects).events ↔ e ∈ Carried env objects := by
  refine ⟨mem_load, fun he => ?_⟩
  rw [load_eq, EventGraph.inv_new.insertAll_consistent hU (by simp [EventGraph.new])
    (fun a ha => hsub a (mem_carried_iff.1 ha))]
  · exact .inr (mem_carried_iff.2 he)
  · refine fun p hp c hc' => hc p ?_ c ?_
    · exact mem_carried_iff.1 (hp.resolve_left (by simp [EventGraph.new]))
    · exact mem_carried_iff.1 (hc'.resolve_left (by simp [EventGraph.new]))

/-- An object loaded first is accepted. -/
theorem mem_load_first {obj : SignedObject} {e : Event} (h : decoded env obj = some e) (objects : List SignedObject) :
    e ∈ (load env (obj :: objects)).events := by
  rw [load_eq, List.filterMap_cons, h]
  exact EventGraph.mem_insertAll_first e _

theorem carried_congr {o₁ o₂ : List SignedObject} (h : ∀ o, o ∈ o₁ ↔ o ∈ o₂) : Carried env o₁ = Carried env o₂ := by
  ext e; simp only [Carried, Set.mem_ofPred_eq, h]

theorem reduce_congr {g g' : EventGraph} (h : g.Inv) (h' : g'.Inv) (hm : ∀ e, e ∈ g.events ↔ e ∈ g'.events) :
    TicketReducer.reduce env g = TicketReducer.reduce env g' := by
  rw [TicketReducer.reduce_eq_replay h, TicketReducer.reduce_eq_replay h']
  exact Replay.replay_congr g.nodup_sortKey g'.nodup_sortKey hm

/-- Objects are accepted alike in every order and with any repetition, and give the same state, exactly if the
clock grows along every edge between their events. -/
theorem acceptance_order_iff {objects : List SignedObject} (hU : IdealIds (Carried env objects)) :
    (∀ o₁ o₂ : List SignedObject, (∀ o, o ∈ o₁ ↔ o ∈ objects) → (∀ o, o ∈ o₂ ↔ o ∈ objects) →
      (∀ e, e ∈ (load env o₁).events ↔ e ∈ (load env o₂).events) ∧
        TicketReducer.reduce env (load env o₁) = TicketReducer.reduce env (load env o₂)) ↔
    ∀ p ∈ Carried env objects, ∀ c ∈ Carried env objects, p.id ∈ c.parents → p.lamport < c.lamport := by
  have hsub : ∀ {o : List SignedObject}, (∀ x, x ∈ o ↔ x ∈ objects) → ∀ e ∈ Carried env o, e ∈ Carried env objects :=
    fun h e he => carried_congr h ▸ he
  constructor
  · intro hall p ⟨op, hop, hp⟩ c ⟨oc, hoc, hc⟩ hpc
    by_contra hlt
    -- parent first and child first end with different sets
    have h₁ : ∀ o, o ∈ op :: oc :: objects ↔ o ∈ objects := by
      intro o; simp only [List.mem_cons]; constructor
      · rintro (rfl | rfl | h) <;> assumption
      · exact fun h => .inr (.inr h)
    have h₂ : ∀ o, o ∈ oc :: objects ↔ o ∈ objects := by
      intro o; simp only [List.mem_cons]; constructor
      · rintro (rfl | h) <;> assumption
      · exact .inr
    have hpin : p ∈ (load env (op :: oc :: objects)).events := mem_load_first hp _
    have hcin := ((hall _ _ h₁ h₂).1 c).2 (mem_load_first hc _)
    exact hlt ((load_inv hU (hsub h₁)).mono p hpin c hcin hpc)
  · intro hc o₁ o₂ h₁ h₂
    have hmem : ∀ e, e ∈ (load env o₁).events ↔ e ∈ (load env o₂).events := by
      intro e
      rw [mem_load_iff hU (hsub h₁) (@carried_congr env _ _ h₁ ▸ hc),
        mem_load_iff hU (hsub h₂) (@carried_congr env _ _ h₂ ▸ hc), carried_congr h₁, carried_congr h₂]
    exact ⟨hmem, reduce_congr (load_inv hU (hsub h₁)) (load_inv hU (hsub h₂)) hmem⟩

section Sample

/-- A creation, and a closure that names it as its parent with the same clock. -/
def clashTable : EventTable where
  bodies :=
    [⟨[], 10, 1, .ticket (.created "T-aaaaaaaa" "printer" "on fire" .high "alice")⟩,
     ⟨[idAt 0], 20, 1, .ticket (.statusChanged "T-aaaaaaaa" .closed "mallory" none)⟩]

/-- The two orders of the two objects: each accepts the first, and only one has the ticket. -/
theorem acceptance_depends_on_order :
    let env := clashTable.env
    let created := objectAt alice 0 10
    let closed := objectAt alice 1 20
    (decoded env created).isSome ∧ (decoded env closed).isSome ∧
    (load env [created, closed]).events.map Event.id = [idAt 0] ∧
    (load env [closed, created]).events.map Event.id = [idAt 1] ∧
    ((TicketReducer.reduce env (load env [created, closed])).getTicket "T-aaaaaaaa").isSome ∧
    ((TicketReducer.reduce env (load env [closed, created])).getTicket "T-aaaaaaaa").isNone := by
  decide +kernel

/-- The theorem at the two objects. -/
theorem acceptance_order_iff_clash :
    let env := clashTable.env
    let objects := [objectAt alice 0 10, objectAt alice 1 20]
    (∀ o₁ o₂ : List SignedObject, (∀ o, o ∈ o₁ ↔ o ∈ objects) → (∀ o, o ∈ o₂ ↔ o ∈ objects) →
      (∀ e, e ∈ (load env o₁).events ↔ e ∈ (load env o₂).events) ∧
        TicketReducer.reduce env (load env o₁) = TicketReducer.reduce env (load env o₂)) ↔
    ∀ p ∈ Carried env objects, ∀ c ∈ Carried env objects, p.id ∈ c.parents → p.lamport < c.lamport := by
  intro env objects
  refine acceptance_order_iff ?_
  have hall : ∀ obj ∈ objects, (decoded env obj).all (· ∈ clashTable.inPlay) := by decide +kernel
  have hsub : ∀ e ∈ Carried env objects, e ∈ clashTable.inPlay := by
    rintro e ⟨obj, ho, hd⟩
    simpa [hd] using hall obj ho
  exact ⟨fun a ha b hb => clashTable.idealIds.inj a (hsub a ha) b (hsub b hb),
    fun a ha => clashTable.idealIds.noSelf a (hsub a ha)⟩

end Sample

/-! ## The life of an engine -/

/-- An engine and its store from the beginning: calls, and restarts with any listing of the files. -/
inductive Life (env : Env) (U : Set Event) : TicketEngine → Prop
  | start (signer : Ed25519Signer) (policy : AuthorityPolicy) : Life env U (fresh signer policy)
  | call {s : TicketEngine} (h : Life env U s) (disk : Disk) (m : Mutation) (ha : Admitted env U disk m s) :
      Life env U (perform env disk m s).2
  | restart {s s' : TicketEngine} (h : Life env U s) (files : List SignedObject) (signer : Ed25519Signer)
      (policy : AuthorityPolicy) (hp : files.Perm s.store.objects)
      (ho : TicketEngine.open env s.store files signer policy = .ok s') : Life env U s'

/-- The disk and the graph: stored objects carry events in play, every event of the graph is stored, and a
stored event is in the graph or contradicts one that is. -/
structure Kept (env : Env) (U : Set Event) (s : TicketEngine) : Prop where
  sound : Sound U s
  carries : ∀ obj ∈ s.store.objects, ∃ e ∈ U, decoded env obj = some e
  backed : ∀ e ∈ s.graph.events, e ∈ Carried env s.store.objects
  held : ∀ e ∈ Carried env s.store.objects, e ∈ s.graph.events ∨ ∃ a ∈ s.graph.events, Contradict a e

theorem Kept.mem_U (h : Kept env U s) {e : Event} (he : e ∈ Carried env s.store.objects) : e ∈ U := by
  obtain ⟨obj, ho, hd⟩ := he
  obtain ⟨e', he', hd'⟩ := h.carries obj ho
  rw [hd] at hd'; cases hd'; exact he'

/-- The events on disk after a `put` are those before and the one of the object. -/
theorem Kept.carried_put (hU : IdealIds U) (h : Kept env U s) {disk : Disk} {obj : SignedObject} {e : Event}
    (hd : decoded env obj = some e) (he : e ∈ U) {store' : FsObjectStore}
    (hp : s.store.put env.crypto disk obj = (.ok obj.id, store')) {x : Event} :
    x ∈ Carried env store'.objects ↔ x ∈ Carried env s.store.objects ∨ x = e := by
  rcases (FsObjectStore.put_ok hp).2.2 with ⟨hh, hst⟩ | ⟨-, hst⟩
  · rw [hst]
    refine ⟨.inl, ?_⟩
    rintro (hx | rfl)
    · exact hx
    · -- an object of this id carries the same event
      obtain ⟨o, ho, hid⟩ := FsObjectStore.has_iff.1 hh
      obtain ⟨e', he', hd'⟩ := h.carries o ho
      have h1 := (Event.fromSignedObject_ok (decoded_eq_some.1 hd)).1
      have h2 := (Event.fromSignedObject_ok (decoded_eq_some.1 hd')).1
      exact ⟨o, ho, hU.inj x he e' he' (by rw [h1, h2, hid]) ▸ hd'⟩
  · simp only [Carried, hst, Set.mem_ofPred_eq, List.mem_append, List.mem_singleton]
    constructor
    · rintro ⟨o, ho | rfl, hx⟩
      · exact .inl ⟨o, ho, hx⟩
      · rw [hd] at hx; cases hx; exact .inr rfl
    · rintro (⟨o, ho, hx⟩ | rfl)
      · exact ⟨o, .inl ho, hx⟩
      · exact ⟨obj, .inr rfl, hd⟩

/-- Storing an object and inserting its event, whatever the graph says. -/
theorem Kept.put_insert (hU : IdealIds U) (h : Kept env U s) {disk : Disk} {obj : SignedObject} {e : Event}
    (hd : decoded env obj = some e) (he : e ∈ U)
    (hp : s.store.put env.crypto disk obj = (.ok obj.id, s'.store)) (hg : s'.graph = (s.graph.insert e).2) :
    Kept env U s' := by
  have hsound : Sound U s' := (sound_insertAll hU h.sound (l := [e]) (by simpa using he) hg).1
  have hcar : ∀ x, x ∈ Carried env s'.store.objects ↔ x ∈ Carried env s.store.objects ∨ x = e :=
    fun x => h.carried_put hU hd he hp
  have hmem : ∀ x, x ∈ s'.graph.events ↔ x ∈ s.graph.events ∨ (x = e ∧ ∀ b ∈ s.graph.events, ¬ Contradict b e) := by
    intro x; rw [hg]; exact h.sound.inv.mem_insert_iff hU h.sound.mem he
  refine ⟨hsound, ?_, ?_, ?_⟩
  · intro o ho
    rcases (FsObjectStore.put_ok hp).2.2 with ⟨-, hst⟩ | ⟨-, hst⟩
    · rw [hst] at ho; exact h.carries o ho
    · rw [hst, List.mem_append, List.mem_singleton] at ho
      rcases ho with ho | rfl
      · exact h.carries o ho
      · exact ⟨e, he, hd⟩
  · intro x hx
    rcases (hmem x).1 hx with hx | ⟨rfl, -⟩
    · exact (hcar x).2 (.inl (h.backed x hx))
    · exact (hcar x).2 (.inr rfl)
  · intro x hx
    rcases (hcar x).1 hx with hx | rfl
    · rcases h.held x hx with hin | ⟨a, ha, hcon⟩
      · exact .inl ((hmem x).2 (.inl hin))
      · exact .inr ⟨a, (hmem a).2 (.inl ha), hcon⟩
    · by_cases hc : ∃ b ∈ s.graph.events, Contradict b x
      · obtain ⟨b, hb, hcon⟩ := hc
        exact .inr ⟨b, (hmem b).2 (.inl hb), hcon⟩
      · exact .inl ((hmem x).2 (.inr ⟨rfl, by simpa using hc⟩))

/-- Only the store and the graph matter. -/
theorem Kept.congr (h : Kept env U s) (hst : s'.store = s.store) (hg : s'.graph = s.graph) : Kept env U s' :=
  ⟨⟨hg ▸ h.sound.inv, hg ▸ h.sound.mem⟩, hst ▸ h.carries, by rw [hst, hg]; exact h.backed, by rw [hst, hg]; exact h.held⟩

/-- The object of an append carries its event once it is stored. -/
theorem decoded_draft (hc : env.RoundTrips) {te : TicketEvent} {ts : UInt64} {disk : Disk} {e : Event} {obj : SignedObject}
    (hd : draft env te ts s = .ok (e, obj)) {store' : FsObjectStore}
    (hp : s.store.put env.crypto disk obj = (.ok obj.id, store')) : decoded env obj = some e :=
  decoded_eq_some.2 (Event.new_decodes hc hd (FsObjectStore.put_ok hp).2.1)

/-- A local section keeps the disk and the graph together. -/
theorem exec_kept (hU : IdealIds U) (hc : env.RoundTrips) (a : Action) (s : TicketEngine) (hl : a.IsLocal)
    (ha : Admits env U a s) (h : Kept env U s) : Kept env U (exec env a s).2 := by
  cases a with
  | readState => exact h
  | readGraph => exact h
  | getObject id read => exact h
  | append te ts disk =>
    simp only [exec]
    rcases append_cases env te ts disk s with ⟨err, -, he⟩ | ⟨e, obj, hd, ⟨err, -, he⟩ | ⟨store', hp, hrest⟩⟩
    · rw [he]; exact h
    · rw [he]; exact h
    have heU : e ∈ U := ha e (by simp [events, hd, Except.toOption])
    have hdec := decoded_draft hc hd hp
    rcases hrest with ⟨err, hi, he⟩ | ⟨g', hi, he⟩
    · rw [he]; exact h.put_insert hU hdec heU hp (by rw [hi])
    · rw [he]; exact h.put_insert hU hdec heU hp (by rw [hi])
  | _ => exact hl.elim

/-- A batch keeps the disk and the graph together. -/
theorem ingest_kept (hU : IdealIds U) (disk : Disk) : ∀ (objects : List SignedObject) (n : Nat) (s : TicketEngine),
    (∀ obj ∈ objects, ∀ e, decoded env obj = some e → e ∈ U) → Kept env U s →
    Kept env U (objects.foldl (ingestObject env disk) (n, s)).2
  | [], _, _, _, h => h
  | obj :: objects, n, s, hobj, h => by
    rw [List.forall_mem_cons] at hobj
    rw [List.foldl_cons]
    rcases ingestObject_cases env disk n s obj with ⟨he, -⟩ | ⟨e, store', hd, hp, he⟩
    · rw [he]; exact ingest_kept hU disk objects n s hobj.2 h
    · rw [he]
      exact ingest_kept hU disk objects _ _ hobj.2
        (h.put_insert hU hd (hobj.1 e hd) hp rfl)

theorem perform_kept (hU : IdealIds U) (hc : env.RoundTrips) {disk : Disk} {m : Mutation}
    (ha : Admitted env U disk m s) (h : Kept env U s) : Kept env U (perform env disk m s).2 := by
  -- local calls section by section, remote calls as a whole: in between an object is stored and not inserted
  have hlocal : m.isLocal = true → Kept env U (perform env disk m s).2 := fun hm =>
    Prog.run_invariant (fun a s => a.IsLocal ∧ Admits env U a s)
      (fun a s hok h => exec_kept hU hc a s hok.1 hok.2 h) _ s
      (fun x hx => ⟨(Mutation.every_isLocal env s.policy disk hm).trace x hx, ha x hx⟩) h
  cases m with
  | applyRemoteObject obj =>
    rcases applyRemoteObject_cases env disk obj s with
      ⟨-, err, -, he⟩ | ⟨e, hd, ⟨-, err, -, he⟩ | ⟨store', hp, hrest⟩⟩
    · rw [he]; exact h
    · rw [he]; exact h
    have heU : e ∈ U := by
      have hcall : (Mutation.applyRemoteObject obj).call env s.policy disk =
          .act (.put obj disk) fun r => (.ofExcept r >>= fun _ => .act (.insertGraph e) fun r => .ofExcept r >>= fun _ =>
            .act .replaceState .ret) >>= fun _ => .ret .done := by
        have hf := decoded_eq_some.1 hd
        simp only [Mutation.call, Call.applyRemoteObject, hf, (Event.fromSignedObject_ok hf).2]
        rfl
      rw [Admitted, hcall] at ha
      exact ha _ (List.mem_cons_self ..) e (by simp [events, hd])
    rcases hrest with ⟨err, hi, he⟩ | ⟨g', hi, he⟩
    · rw [he]; exact h.put_insert hU hd heU hp (by rw [hi])
    · rw [he]; exact h.put_insert hU hd heU hp (by rw [hi])
  | applyRemoteObjects objects =>
    have hobj : ∀ obj ∈ objects, ∀ e, decoded env obj = some e → e ∈ U := fun obj ho e hd =>
      ha (.ingest objects disk, s) (List.mem_cons_self ..) e (List.mem_filterMap.2 ⟨obj, ho, hd⟩)
    have hkept := ingest_kept hU disk objects 0 s hobj h
    rw [perform_applyRemoteObjects]
    exact hkept.congr (settle_store _) (settle_graph _)
  | _ => exact hlocal rfl

theorem Kept.verify (h : Kept env U s) {obj : SignedObject} (ho : obj ∈ s.store.objects) : obj.verify env.crypto = .ok () := by
  obtain ⟨e, -, hd⟩ := h.carries obj ho
  exact (Event.fromSignedObject_ok (decoded_eq_some.1 hd)).2

/-- A restart on a kept store succeeds, with the graph the listing loads. -/
theorem Kept.open_eq (h : Kept env U s) {files : List SignedObject} (hp : files.Perm s.store.objects)
    (signer : Ed25519Signer) (policy : AuthorityPolicy) :
    TicketEngine.open env s.store files signer policy =
      .ok { store := s.store, signer, policy, graph := load env files,
            state := TicketReducer.reduce env (load env files) } := by
  rw [load_eq]
  exact open_ok.2 ⟨fun obj ho => h.verify (hp.mem_iff.1 ho), rfl⟩

theorem Kept.restart (hU : IdealIds U) (h : Kept env U s) {files : List SignedObject} (hp : files.Perm s.store.objects)
    (hst : s'.store = s.store) (hg : s'.graph = load env files) : Kept env U s' := by
  have hcar : Carried env s.store.objects = Carried env files := carried_congr fun o => hp.mem_iff.symm
  have hsub : ∀ e ∈ Carried env files, e ∈ U := fun e he => h.mem_U (hcar ▸ he)
  refine ⟨⟨hg ▸ load_inv hU hsub, fun e he => hsub e (mem_load (hg ▸ he))⟩, hst ▸ h.carries, ?_, ?_⟩
  · intro e he; rw [hst, hcar]; exact mem_load (hg ▸ he)
  · intro e he
    rw [hst, hcar] at he
    rw [hg, load_eq]
    exact EventGraph.inv_new.insertAll_mem_or hU _ (by simp [EventGraph.new])
      (fun a ha => hsub a (mem_carried_iff.1 ha)) e (mem_carried_iff.2 he)

theorem kept_fresh (signer : Ed25519Signer) (policy : AuthorityPolicy) : Kept env U (fresh signer policy) :=
  ⟨⟨EventGraph.inv_new, by simp [fresh, EventGraph.new]⟩, by simp [fresh, FsObjectStore.empty],
    by simp [fresh, EventGraph.new], by simp [fresh, FsObjectStore.empty, Carried]⟩

/-- In every life the disk and the graph stay together, and the state is the reduction of the graph. -/
theorem Life.kept (hU : IdealIds U) (hc : env.RoundTrips) (h : Life env U s) : Kept env U s ∧ Synced env s := by
  induction h with
  | start signer policy => exact ⟨kept_fresh signer policy, rfl⟩
  | call _ disk m ha ih =>
    exact ⟨perform_kept hU hc ha ih.1, Step.synced hU ⟨disk, m, ha, rfl⟩ ih.1.sound ih.2⟩
  | restart _ files signer policy hp ho ih =>
    rw [ih.1.open_eq hp] at ho
    cases ho
    exact ⟨ih.1.restart hU hp rfl rfl, rfl⟩

/-- A restart brings back exactly the events, heads and state of the engine, with every listing of its files, if
and only if the clock grows along every edge between the events on disk. -/
theorem recovery_iff (hU : IdealIds U) (hc : env.RoundTrips) (h : Life env U s) :
    (∀ files : List SignedObject, files.Perm s.store.objects →
      ∃ s', TicketEngine.open env s.store files s.signer s.policy = .ok s' ∧
        (∀ e, e ∈ s'.graph.events ↔ e ∈ s.graph.events) ∧ s'.graph.heads = s.graph.heads ∧ s'.state = s.state) ↔
    ∀ p ∈ Carried env s.store.objects, ∀ c ∈ Carried env s.store.objects, p.id ∈ c.parents → p.lamport < c.lamport := by
  obtain ⟨hk, hs⟩ := h.kept hU hc
  constructor
  · intro hall
    refine consistent_iff.2 fun a ha b hb hcon => ?_
    -- an object listed first is accepted, so every stored event is in the graph
    have hin : ∀ e ∈ Carried env s.store.objects, e ∈ s.graph.events := by
      rintro e ⟨obj, ho, hd⟩
      obtain ⟨l, r, hlr⟩ := List.append_of_mem ho
      have hp : (obj :: (l ++ r)).Perm s.store.objects := by rw [hlr]; exact List.perm_middle.symm
      obtain ⟨s', hop, hev, -⟩ := hall _ hp
      rw [hk.open_eq hp] at hop
      cases hop
      exact (hev e).1 (mem_load_first hd _)
    exact consistent_iff.1 hk.sound.inv.consistent a (hin a ha) b (hin b hb) hcon
  · intro hcons files hp
    have hcar : Carried env files = Carried env s.store.objects := carried_congr fun o => hp.mem_iff
    have hsub : ∀ e ∈ Carried env files, e ∈ U := fun e he => hk.mem_U (hcar ▸ he)
    have hmem : ∀ e, e ∈ (load env files).events ↔ e ∈ s.graph.events := by
      intro e
      rw [mem_load_iff hU hsub (hcar ▸ hcons), hcar]
      refine ⟨fun he => (hk.held e he).resolve_right ?_, hk.backed e⟩
      rintro ⟨a, ha, hcon⟩
      exact consistent_iff.1 hcons a (hk.backed a ha) e he hcon
    refine ⟨_, hk.open_eq hp _ _, hmem, (load_inv hU hsub).heads_eq hk.sound.inv hmem, ?_⟩
    rw [hs]; exact reduce_congr (load_inv hU hsub) hk.sound.inv hmem

section Sample

/-- The creation is local; the closure arrives, is refused and is on disk all the same. -/
def clash : {s : TicketEngine // Life clashTable.env clashTable.inPlay s} :=
  ⟨_, ((Life.start alice ⟨none⟩).call diskOk (.createTicket "aaaaaaaa" 10 "printer" "on fire" .high "alice")
    (by decide +kernel)).call diskOk (.applyRemoteObject (objectAt alice 1 20)) (by decide +kernel)⟩

/-- Restarted with the refused object listed first, the engine has that event and has lost the ticket. -/
theorem recovery_loses_ticket :
    let files := [objectAt alice 1 20, objectAt alice 0 10]
    IdealIds clashTable.inPlay ∧ Life clashTable.env clashTable.inPlay clash.1 ∧
    clash.1.store.objects = files.reverse ∧ (clash.1.state.getTicket "T-aaaaaaaa").isSome ∧
    ((TicketEngine.open clashTable.env clash.1.store files alice ⟨none⟩).toOption.map fun s =>
      (s.graph.events.map Event.id, (s.state.getTicket "T-aaaaaaaa").isSome)) = some ([idAt 1], false) :=
  ⟨clashTable.idealIds, clash.2, by decide +kernel, by decide +kernel, by decide +kernel⟩

/-- The theorem at the engine of the sample. -/
theorem recovery_iff_clash :
    (∀ files : List SignedObject, files.Perm clash.1.store.objects →
      ∃ s', TicketEngine.open clashTable.env clash.1.store files clash.1.signer clash.1.policy = .ok s' ∧
        (∀ e, e ∈ s'.graph.events ↔ e ∈ clash.1.graph.events) ∧ s'.graph.heads = clash.1.graph.heads ∧
        s'.state = clash.1.state) ↔
    ∀ p ∈ Carried clashTable.env clash.1.store.objects, ∀ c ∈ Carried clashTable.env clash.1.store.objects,
      p.id ∈ c.parents → p.lamport < c.lamport :=
  recovery_iff clashTable.idealIds clashTable.roundTrips clash.2

end Sample

end TicketEngine

end Fortiq
