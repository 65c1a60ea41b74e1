/-
What one section of the engine does. Each section is inverted once: a `put` that keeps or extends
the store, an append that stops at one of its stages or goes through, an object of a batch that is
passed over or handled. Whatever a section does, its graph is the graph before with some of the
section's own events inserted.
-/
import Fortiq.Engine.Basic
import Fortiq.Reducer.Spec

namespace Fortiq

variable {env : Env}

/-! ## Verification and storing -/

theorem SignedObject.verify_not_disk {crypto : Crypto} {obj : SignedObject} {err : Error}
    (h : obj.verify crypto = .error err) : err.isDisk = false := by
  unfold SignedObject.verify verifierOf verifyDomain at h
  simp only [bind, Except.bind, throw, throwThe, MonadExceptOf.throw] at h
  split at h
  · cases h; rfl
  · split at h <;> rename_i hv
    · split at hv <;> cases hv
      cases h; rfl
    · split at hv <;> cases hv
      split at h <;> cases h
      rfl

theorem Event.fromSignedObject_not_disk {obj : SignedObject} {err : Error}
    (h : Event.fromSignedObject env obj = .error err) : err.isDisk = false := by
  unfold Event.fromSignedObject at h
  cases hv : obj.verify env.crypto with
  | error e =>
    simp only [hv, Result.context_error] at h
    cases h
    rw [Error.isDisk_context]; exact SignedObject.verify_not_disk hv
  | ok u =>
    cases hr : env.fromReader obj.payload with
    | none => simp only [hv, hr, Result.context_ok] at h; cases h; rfl
    | some b => simp only [hv, hr, Result.context_ok] at h; cases h

namespace FsObjectStore

variable {crypto : Crypto} {disk : Disk} {store : FsObjectStore} {obj : SignedObject}

theorem has_iff {i : ObjectId} : store.has i = true ↔ ∃ o ∈ store.objects, o.id = i := by simp [has]

/-- The write of the object fails: it verifies, its file is not there, and the disk refuses. -/
def WriteFails (crypto : Crypto) (disk : Disk) (store : FsObjectStore) (obj : SignedObject) : Prop :=
  obj.verify crypto = .ok () ∧ store.has obj.id = false ∧ (disk obj).isSome

/-- Everything a `put` can do. -/
theorem put_cases (crypto : Crypto) (disk : Disk) (store : FsObjectStore) (obj : SignedObject) :
    (obj.verify crypto ≠ .ok () ∧ ∃ err, err.isDisk = false ∧ store.put crypto disk obj = (.error err, store)) ∨
    (WriteFails crypto disk store obj ∧ ∃ err, err.isDisk = true ∧ store.put crypto disk obj = (.error err, store)) ∨
    (obj.verify crypto = .ok () ∧ store.has obj.id = true ∧ store.put crypto disk obj = (.ok obj.id, store)) ∨
    (obj.verify crypto = .ok () ∧ store.has obj.id = false ∧ disk obj = none ∧
      ∃ store', store.put crypto disk obj = (.ok obj.id, store') ∧ store'.objects = store.objects ++ [obj]) := by
  unfold put
  cases hv : obj.verify crypto with
  | error e =>
    refine .inl ⟨by simp, .context "cannot store invalid SignedObject" e, ?_, rfl⟩
    rw [Error.isDisk_context]; exact SignedObject.verify_not_disk hv
  | ok u =>
    refine .inr ?_
    rw [Result.context_ok]
    by_cases hh : store.has obj.id = true
    · rw [dif_pos hh]; exact .inr (.inl ⟨rfl, hh, rfl⟩)
    · rw [dif_neg hh]
      have hf : store.has obj.id = false := by simpa using hh
      cases hd : disk obj with
      | some text => exact .inl ⟨⟨hv, hf, by simp [hd]⟩, _, rfl, rfl⟩
      | none => exact .inr (.inr ⟨rfl, hf, rfl, _, rfl, rfl⟩)

/-- A stored object verifies, and afterwards the store has an object of its id and nothing else new. -/
theorem put_ok {store' : FsObjectStore} {i : ObjectId} (h : store.put crypto disk obj = (.ok i, store')) :
    i = obj.id ∧ obj.verify crypto = .ok () ∧ (store.has obj.id = true ∧ store' = store ∨
      store.has obj.id = false ∧ store'.objects = store.objects ++ [obj]) := by
  rcases put_cases crypto disk store obj with ⟨-, err, -, he⟩ | ⟨-, err, -, he⟩ | ⟨hv, hh, he⟩ | ⟨hv, hf, -, st, he, ho⟩
  · rw [he] at h; cases h
  · rw [he] at h; cases h
  · rw [he] at h; cases h; exact ⟨rfl, hv, .inl ⟨hh, rfl⟩⟩
  · rw [he] at h; cases h; exact ⟨rfl, hv, .inr ⟨hf, ho⟩⟩

/-- A failed `put` leaves the store as it was. -/
theorem put_error {store' : FsObjectStore} {err : Error} (h : store.put crypto disk obj = (.error err, store')) :
    store' = store := by
  rcases put_cases crypto disk store obj with ⟨-, e, -, he⟩ | ⟨-, e, -, he⟩ | ⟨-, -, he⟩ | ⟨-, -, -, st, he, -⟩ <;>
    rw [he] at h <;> cases h <;> rfl

/-- A valid object is stored unless its write fails. -/
theorem put_of_verify (disk : Disk) (store : FsObjectStore) (hv : obj.verify crypto = .ok ()) :
    (WriteFails crypto disk store obj ∧ ∃ err, err.isDisk = true ∧ store.put crypto disk obj = (.error err, store)) ∨
      ∃ store', store.put crypto disk obj = (.ok obj.id, store') := by
  rcases put_cases crypto disk store obj with ⟨hn, -⟩ | hw | ⟨-, -, he⟩ | ⟨-, -, -, st, he, -⟩
  · exact absurd hv hn
  · exact .inl hw
  · exact .inr ⟨store, he⟩
  · exact .inr ⟨st, he⟩

theorem WriteFails.put (hw : WriteFails crypto disk store obj) : ∃ err, store.put crypto disk obj = (.error err, store) := by
  rcases put_cases crypto disk store obj with ⟨-, err, -, he⟩ | ⟨-, err, -, he⟩ | ⟨-, hh, -⟩ | ⟨-, -, hn, -⟩
  · exact ⟨err, he⟩
  · exact ⟨err, he⟩
  · exact absurd hh (by simp [hw.2.1])
  · exact absurd hw.2.2 (by simp [hn])

end FsObjectStore

/-! ## An append -/

namespace TicketEngine

variable {s : TicketEngine}

/-- The event an append makes, with its object: it names the heads and follows their clocks. -/
def draft (env : Env) (te : TicketEvent) (ts : UInt64) (s : TicketEngine) : Result (Event × SignedObject) :=
  Event.new env s.graph.heads.toVec ts (s.graph.nextLamport s.graph.heads.toVec) (.ticket te) s.signer

/-- Everything an append can do, by the stage it reaches: the event cannot be encoded; its object cannot
be written; the graph refuses it; it is stored and inserted, and the state takes it or refuses it. -/
theorem append_cases (env : Env) (te : TicketEvent) (ts : UInt64) (disk : Disk) (s : TicketEngine) :
    (∃ err, draft env te ts s = .error err ∧ appendTicketEvent env te ts disk s = (.error err, s)) ∨
    ∃ e obj, draft env te ts s = .ok (e, obj) ∧
      ((∃ err, s.store.put env.crypto disk obj = (.error err, s.store) ∧
          appendTicketEvent env te ts disk s = (.error err, s)) ∨
        ∃ store', s.store.put env.crypto disk obj = (.ok obj.id, store') ∧
          ((∃ err, s.graph.insert e = (.error err, s.graph) ∧
              appendTicketEvent env te ts disk s = (.error err, { s with store := store' })) ∨
            (∃ g', s.graph.insert e = (.ok (), g') ∧
              appendTicketEvent env te ts disk s =
                ((TicketReducer.applyEvent env s.state e).1.map fun _ => (e, obj),
                  { s with store := store', graph := g', state := TicketReducer.step env s.state e })))) := by
  unfold appendTicketEvent
  simp only
  cases hd : draft env te ts s with
  | error err => rw [draft] at hd; rw [hd]; exact .inl ⟨err, rfl, rfl⟩
  | ok p =>
    obtain ⟨e, obj⟩ := p
    rw [draft] at hd; rw [hd]
    refine .inr ⟨e, obj, rfl, ?_⟩
    simp only
    rcases hp : s.store.put env.crypto disk obj with ⟨_ | i, store'⟩
    · exact .inl ⟨_, by rw [FsObjectStore.put_error hp], by rw [FsObjectStore.put_error hp]⟩
    · refine .inr ⟨store', by rw [(FsObjectStore.put_ok hp).1], ?_⟩
      rcases hi : s.graph.insert e with ⟨err | u, g'⟩
      · obtain ⟨rfl, -⟩ := EventGraph.insert_refused hi
        exact .inl ⟨err, rfl, rfl⟩
      · refine .inr ⟨g', rfl, ?_⟩
        simp only [TicketReducer.step]
        rcases TicketReducer.applyEvent env s.state e with ⟨err | u, st⟩ <;> rfl

/-! ## One object of a batch -/

/-- The event an object carries, if it verifies and decodes. -/
def decoded (env : Env) (obj : SignedObject) : Option Event := (Event.fromSignedObject env obj).toOption

theorem decoded_eq_some {obj : SignedObject} {e : Event} :
    decoded env obj = some e ↔ Event.fromSignedObject env obj = .ok e := by
  unfold decoded
  cases Event.fromSignedObject env obj <;> simp [Except.toOption]

/-- An object of a batch is passed over, or stored with its event inserted and counted unless refused. -/
theorem ingestObject_cases (env : Env) (disk : Disk) (n : Nat) (s : TicketEngine) (obj : SignedObject) :
    ingestObject env disk (n, s) obj = (n, s) ∧
        (decoded env obj = none ∨ FsObjectStore.WriteFails env.crypto disk s.store obj) ∨
      ∃ e store', decoded env obj = some e ∧ s.store.put env.crypto disk obj = (.ok obj.id, store') ∧
        ingestObject env disk (n, s) obj =
          (if (s.graph.insert e).1 = .ok () then n + 1 else n,
            { s with store := store', graph := (s.graph.insert e).2 }) := by
  unfold ingestObject
  cases hf : Event.fromSignedObject env obj with
  | error err =>
    left
    refine ⟨?_, .inl (by simp [decoded, hf, Except.toOption])⟩
    cases obj.verify env.crypto <;> rfl
  | ok e =>
    have hv := (Event.fromSignedObject_ok hf).2
    rw [hv]
    simp only
    rcases FsObjectStore.put_of_verify disk s.store hv with ⟨hw, err, -, he⟩ | ⟨store', he⟩
    · left; rw [he]; exact ⟨rfl, .inr hw⟩
    · refine .inr ⟨e, store', decoded_eq_some.2 hf, he, ?_⟩
      rw [he]
      rcases hi : s.graph.insert e with ⟨err | u, g'⟩ <;> simp

/-- The events of the objects of a batch that verify, decode and are on disk at their turn. -/
def written (env : Env) (disk : Disk) : FsObjectStore → List SignedObject → List Event
  | _, [] => []
  | store, obj :: objects =>
    match decoded env obj, store.put env.crypto disk obj with
    | some e, (.ok _, store') => e :: written env disk store' objects
    | _, _ => written env disk store objects

theorem written_of_writeFails {disk : Disk} {store : FsObjectStore} {obj : SignedObject}
    (hw : FsObjectStore.WriteFails env.crypto disk store obj) (objects : List SignedObject) :
    written env disk store (obj :: objects) = written env disk store objects := by
  obtain ⟨err, hp⟩ := hw.put
  simp [written, hp]

theorem mem_written {disk : Disk} {e : Event} : ∀ {objects : List SignedObject} {store : FsObjectStore},
    e ∈ written env disk store objects → ∃ obj ∈ objects, decoded env obj = some e
  | obj :: objects, store, h => by
    have hrest : ∀ {store : FsObjectStore}, e ∈ written env disk store objects →
        ∃ o ∈ obj :: objects, decoded env o = some e := by
      intro store h
      obtain ⟨o, ho, hd⟩ := mem_written h
      exact ⟨o, List.mem_cons_of_mem _ ho, hd⟩
    unfold written at h
    split at h
    · rename_i e' _ _ hd _
      rcases List.mem_cons.1 h with rfl | h
      · exact ⟨obj, List.mem_cons_self .., hd⟩
      · exact hrest h
    · exact hrest h

/-- A batch inserts the events it has written, and counts none of them only if it changes nothing. -/
theorem ingest_spec (env : Env) (disk : Disk) : ∀ (objects : List SignedObject) (n : Nat) (s : TicketEngine),
    let r := objects.foldl (ingestObject env disk) (n, s)
    (∃ store', r.2 = { s with store := store', graph := s.graph.insertAll (written env disk s.store objects) }) ∧
      n ≤ r.1 ∧ (r.1 = n → r.2.graph = s.graph)
  | [], n, s => ⟨⟨s.store, rfl⟩, le_rfl, fun _ => rfl⟩
  | obj :: objects, n, s => by
    rw [List.foldl_cons]
    rcases ingestObject_cases env disk n s obj with ⟨he, hskip⟩ | ⟨e, store', hd, hp, he⟩
    · have hw : written env disk s.store (obj :: objects) = written env disk s.store objects := by
        rcases hskip with hd | hw
        · simp [written, hd]
        · exact written_of_writeFails hw objects
      rw [he, hw]
      exact ingest_spec env disk objects n s
    · rw [he]
      obtain ⟨⟨store'', h1⟩, h2, h3⟩ := ingest_spec env disk objects
        (if (s.graph.insert e).1 = .ok () then n + 1 else n)
        { s with store := store', graph := (s.graph.insert e).2 }
      refine ⟨⟨store'', ?_⟩, ?_, ?_⟩
      · rw [h1]; simp [written, hd, hp, EventGraph.insertAll_cons]
      · exact le_trans (by split <;> omega) h2
      · intro hn
        by_cases hok : (s.graph.insert e).1 = .ok ()
        · simp only [hok, if_true] at h2 hn; omega
        · rw [if_neg hok] at h3 hn
          rw [if_neg hok, h3 hn]
          cases hr : (s.graph.insert e).1 with
          | ok u => exact absurd hr hok
          | error err => exact EventGraph.insert_error hr

/-! ## The remote calls -/

/-- Everything `apply_remote_object` can do: the object is invalid; it cannot be written; the graph refuses
its event; or the event is inserted and the state replaced. -/
theorem applyRemoteObject_cases (env : Env) (disk : Disk) (obj : SignedObject) (s : TicketEngine) :
    (decoded env obj = none ∧ ∃ err, err.isDisk = false ∧ perform env disk (.applyRemoteObject obj) s = (.error err, s)) ∨
    ∃ e, decoded env obj = some e ∧
      ((FsObjectStore.WriteFails env.crypto disk s.store obj ∧
          ∃ err, err.isDisk = true ∧ perform env disk (.applyRemoteObject obj) s = (.error err, s)) ∨
        ∃ store', s.store.put env.crypto disk obj = (.ok obj.id, store') ∧
          ((∃ err, s.graph.insert e = (.error err, s.graph) ∧
              perform env disk (.applyRemoteObject obj) s = (.error err, { s with store := store' })) ∨
            ∃ g', s.graph.insert e = (.ok (), g') ∧
              perform env disk (.applyRemoteObject obj) s =
                (.ok .done, { s with store := store', graph := g', state := TicketReducer.reduce env g' }))) := by
  have hrun : perform env disk (.applyRemoteObject obj) s = Prog.andThen (exec env) (fun _ => .ret .done)
      ((Call.applyRemoteObject env disk obj).run (exec env) s) := Prog.run_bind ..
  have hput : ∀ s : TicketEngine, (.act (.put obj disk) fun r => .ofExcept r : Call ObjectId).run (exec env) s =
      ((s.store.put env.crypto disk obj).1, { s with store := (s.store.put env.crypto disk obj).2 }) :=
    fun s => Prog.run_ofExcept ..
  have hins : ∀ (e : Event) (s : TicketEngine), (.act (.insertGraph e) fun r => .ofExcept r : Call Unit).run (exec env) s =
      ((s.graph.insert e).1, { s with graph := (s.graph.insert e).2 }) := fun e s => Prog.run_ofExcept ..
  rw [hrun, Call.applyRemoteObject, Prog.run_bind, Prog.run_ofExcept]
  cases hf : Event.fromSignedObject env obj with
  | error err =>
    refine .inl ⟨by simp [decoded, hf, Except.toOption], ?_⟩
    cases hv : obj.verify env.crypto with
    | error e =>
      refine ⟨.context "failed to verify remote SignedObject" e, ?_, rfl⟩
      rw [Error.isDisk_context]; exact SignedObject.verify_not_disk hv
    | ok u => exact ⟨err, Event.fromSignedObject_not_disk hf, rfl⟩
  | ok e =>
    have hv := (Event.fromSignedObject_ok hf).2
    refine .inr ⟨e, decoded_eq_some.2 hf, ?_⟩
    rw [hv, Result.context_ok, Prog.andThen_ok, Prog.run_bind, Prog.run_ofExcept, Prog.andThen_ok, Prog.run_bind, hput]
    rcases FsObjectStore.put_of_verify disk s.store hv with ⟨hw, err, hdk, hp⟩ | ⟨store', hp⟩
    · exact .inl ⟨hw, err, hdk, by rw [hp]; rfl⟩
    · refine .inr ⟨store', hp, ?_⟩
      rw [hp, Prog.andThen_ok, Prog.run_bind, hins]
      rcases hi : s.graph.insert e with ⟨err | u, g'⟩
      · obtain ⟨rfl, -⟩ := EventGraph.insert_refused hi
        exact .inl ⟨err, rfl, rfl⟩
      · exact .inr ⟨g', rfl, rfl⟩

/-- The graph after `apply_remote_object`. -/
theorem applyRemoteObject_graph (env : Env) (disk : Disk) (obj : SignedObject) (s : TicketEngine) :
    (perform env disk (.applyRemoteObject obj) s).2.graph = s.graph.insertAll (written env disk s.store [obj]) := by
  rcases applyRemoteObject_cases env disk obj s with
    ⟨hd, err, -, hp⟩ | ⟨e, hd, ⟨hw, err, -, hp⟩ | ⟨store', hput, ⟨err, hi, hp⟩ | ⟨g', hi, hp⟩⟩⟩
  · rw [hp]; simp [written, hd]
  · rw [hp, written_of_writeFails hw]; rfl
  · rw [hp]; simp [written, hd, hput, EventGraph.insertAll_cons, hi]
  · rw [hp]; simp [written, hd, hput, EventGraph.insertAll_cons, hi]

/-- What the batch does after its last object: the state is replaced if an object was counted. -/
def settle (env : Env) (acc : Nat × TicketEngine) : Nat × TicketEngine :=
  if acc.1 > 0 then (acc.1, { acc.2 with state := TicketReducer.reduce env acc.2.graph }) else acc

@[simp] theorem settle_fst (acc : Nat × TicketEngine) : (settle env acc).1 = acc.1 := by
  unfold settle; split <;> rfl

@[simp] theorem settle_store (acc : Nat × TicketEngine) : (settle env acc).2.store = acc.2.store := by
  unfold settle; split <;> rfl

@[simp] theorem settle_graph (acc : Nat × TicketEngine) : (settle env acc).2.graph = acc.2.graph := by
  unfold settle; split <;> rfl

/-- Everything `apply_remote_objects` does: its objects one after the other, and the state where one was counted. -/
theorem perform_applyRemoteObjects (env : Env) (disk : Disk) (objects : List SignedObject) (s : TicketEngine) :
    perform env disk (.applyRemoteObjects objects) s =
      (.ok (.count (settle env (objects.foldl (ingestObject env disk) (0, s))).1),
        (settle env (objects.foldl (ingestObject env disk) (0, s))).2) := by
  have hrun : perform env disk (.applyRemoteObjects objects) s = Prog.andThen (exec env) (fun n => .ret (.count n))
      ((Call.applyRemoteObjects disk objects).run (exec env) s) := Prog.run_bind ..
  rw [hrun]
  change Prog.andThen _ _ ((if (objects.foldl (ingestObject env disk) (0, s)).1 > 0 then _ else _ : Call Nat).run _
    (objects.foldl (ingestObject env disk) (0, s)).2) = _
  unfold settle
  split <;> rfl

/-- The graph after `apply_remote_objects`. -/
theorem applyRemoteObjects_graph (env : Env) (disk : Disk) (objects : List SignedObject) (s : TicketEngine) :
    (perform env disk (.applyRemoteObjects objects) s).2.graph = s.graph.insertAll (written env disk s.store objects) := by
  obtain ⟨⟨store', hr⟩, -, -⟩ := ingest_spec env disk objects 0 s
  rw [perform_applyRemoteObjects, settle_graph, hr]

/-! ## Any section -/

/-- The events a section works on. -/
def events (env : Env) (s : TicketEngine) : Action → List Event
  | .append te ts _ => (draft env te ts s).toOption.toList.map Prod.fst
  | .put obj _ => (decoded env obj).toList
  | .insertGraph e => [e]
  | .ingest objects _ => objects.filterMap (decoded env)
  | _ => []

/-- A section leaves the signer and the policy alone, and inserts some of its own events. -/
theorem exec_graph (env : Env) (a : Action) (s : TicketEngine) :
    (exec env a s).2.signer = s.signer ∧ (exec env a s).2.policy = s.policy ∧
      ∃ l, (∀ e ∈ l, e ∈ events env s a) ∧ (exec env a s).2.graph = s.graph.insertAll l := by
  cases a with
  | readState => exact ⟨rfl, rfl, [], by simp, rfl⟩
  | readGraph => exact ⟨rfl, rfl, [], by simp, rfl⟩
  | getObject id read => exact ⟨rfl, rfl, [], by simp, rfl⟩
  | replaceState => exact ⟨rfl, rfl, [], by simp, rfl⟩
  | put obj disk => exact ⟨rfl, rfl, [], by simp, rfl⟩
  | insertGraph e => exact ⟨rfl, rfl, [e], by simp [events], rfl⟩
  | ingest objects disk =>
    obtain ⟨⟨store', h⟩, -⟩ := ingest_spec env disk objects 0 s
    have h : (exec env (.ingest objects disk) s).2 = _ := h
    rw [h]
    refine ⟨rfl, rfl, written env disk s.store objects, ?_, rfl⟩
    intro e he
    obtain ⟨obj, ho, hd⟩ := mem_written he
    exact List.mem_filterMap.2 ⟨obj, ho, hd⟩
  | append te ts disk =>
    simp only [exec]
    rcases append_cases env te ts disk s with ⟨err, -, h⟩ | ⟨e, obj, hd, ⟨err, -, h⟩ | ⟨store', -, ⟨err, -, h⟩ | ⟨g', hi, h⟩⟩⟩
    · rw [h]; exact ⟨rfl, rfl, [], by simp, rfl⟩
    · rw [h]; exact ⟨rfl, rfl, [], by simp, rfl⟩
    · rw [h]; exact ⟨rfl, rfl, [], by simp, rfl⟩
    · rw [h]
      refine ⟨rfl, rfl, [e], ?_, ?_⟩
      · simp [events, hd, Except.toOption]
      · rw [EventGraph.insertAll_cons, hi]; rfl

end TicketEngine

/-! ## Local and remote calls -/

/-- The objects a mutation takes from outside. -/
def Mutation.remoteObjects : Mutation → List SignedObject
  | applyRemoteObject obj => [obj]
  | applyRemoteObjects objects => objects
  | _ => []

/-- The sections of local calls: reading, and appending. -/
def Action.IsLocal : Action → Prop
  | readState => True
  | readGraph => True
  | getObject _ _ => True
  | append _ _ _ => True
  | _ => False

/-- The ticket a local mutation is about. -/
def Mutation.ticketId : Mutation → Option String
  | createTicket uuid _ _ _ _ _ => some ("T-" ++ String.ofList (uuid.toList.take 8))
  | updateTicketState _ ticketId _ _ => some ticketId
  | addChatMessage _ msg => some msg.ticketId
  | addAttachment _ att => some att.ticketId
  | recordEvent _ _ ticketId _ _ _ => some ticketId
  | startShellSession _ ticketId _ _ _ => some ticketId
  | endShellSession _ ticketId _ _ => some ticketId
  | importCanonicalTicket ticket => some ticket.id
  | applyRemoteObject _ => none
  | applyRemoteObjects _ => none

/-- The events a local mutation may append, with their timestamps. -/
def Mutation.appends : Mutation → List (TicketEvent × UInt64)
  | createTicket uuid now title description priority client =>
    [(.created ("T-" ++ String.ofList (uuid.toList.take 8)) title description priority client, now)]
  | updateTicketState now ticketId newState actor => [(.statusChanged ticketId newState actor none, now)]
  | addChatMessage now msg =>
    let now := Call.timestampOr msg.createdAt now
    [(.chatMessageAdded msg.ticketId msg.id msg.senderPeerId msg.body now, now)]
  | addAttachment now att =>
    let now := Call.timestampOr att.createdAt now
    [(.attachmentAdded att.ticketId att.id att.senderPeerId att.filename att.sizeBytes att.sha256 att.localPath now, now)]
  | recordEvent uuid now ticketId kind actor metadata => [(.customAudit ticketId uuid kind actor metadata now, now)]
  | startShellSession now ticketId sessionId operator transport =>
    [(.shellSessionStarted ticketId sessionId operator transport now, now)]
  | endShellSession now ticketId sessionId result => [(.shellSessionEnded ticketId sessionId now result, now)]
  | importCanonicalTicket ticket =>
    [(.created ticket.id ticket.title ticket.description ticket.priority ticket.clientPeerId, ticket.createdAt),
     (Call.importedStatus ticket, ticket.updatedAt)]
  | applyRemoteObject _ => []
  | applyRemoteObjects _ => []

theorem Mutation.ticketId_of_mem_appends {m : Mutation} {te : TicketEvent} {ts : UInt64} (h : (te, ts) ∈ m.appends) :
    m.ticketId = some te.ticketId := by
  cases m with
  | importCanonicalTicket ticket =>
    simp only [appends, List.mem_cons, Prod.mk.injEq, List.not_mem_nil, or_false] at h
    obtain ⟨rfl, -⟩ | ⟨rfl, -⟩ := h <;> rfl
  | applyRemoteObject | applyRemoteObjects => cases h
  | _ =>
    simp only [appends, List.mem_singleton, Prod.mk.injEq] at h
    obtain ⟨rfl, -⟩ := h
    rfl

/-- A local mutation reads the state, and appends some of its events. -/
theorem Mutation.every_local (env : Env) (policy : AuthorityPolicy) (disk : Disk) {m : Mutation} (h : m.isLocal = true)
    {P : Action → Prop} (hread : P .readState) (happend : ∀ te ts, (te, ts) ∈ m.appends → P (.append te ts disk)) :
    Prog.Every P (m.call env policy disk) := by
  have happ : ∀ {α : Type} (te : TicketEvent) (ts : UInt64) (f : Event × SignedObject → Call α),
      (te, ts) ∈ m.appends → (∀ x, (f x).Every P) → (Call.appendTicketEvent te ts disk >>= f).Every P :=
    fun te ts f ht hf => Prog.Every.bind hf ⟨happend te ts ht, Prog.every_ofExcept⟩
  have hget : ∀ {α : Type} (t : String) (f : Option TicketRecord → Call α), (∀ x, (f x).Every P) →
      (Call.getTicket t >>= f).Every P :=
    fun t f hf => Prog.Every.bind hf ⟨hread, fun _ => trivial⟩
  have hdone : ∀ {α : Type} {p : Call α} {f : α → Reply}, p.Every P → (p >>= fun x => .ret (f x)).Every P :=
    fun {_ _ f} hp => Prog.Every.bind (f := fun x => .ret (f x)) (fun _ => trivial) hp
  cases m with
  | createTicket uuid now title description priority client =>
    exact hdone (happ _ _ _ (.head _) fun _ => hget _ _ fun _ => Prog.every_ofOption _ _)
  | updateTicketState now ticketId newState actor =>
    refine hdone (hget _ _ fun _ => Prog.Every.bind (fun current => ?_) (Prog.every_ofOption _ _))
    split
    · trivial
    · exact happ _ _ _ (.head _) fun _ => hget _ _ fun _ => Prog.every_ofOption _ _
  | importCanonicalTicket ticket =>
    refine hdone (hget _ _ fun existing => ?_)
    cases existing with
    | none =>
      refine happ _ _ _ (.head _) fun _ => ?_
      split
      · exact happ _ _ _ (.tail _ (.head _)) fun _ => trivial
      · trivial
    | some curr =>
      simp only
      split
      · exact happ _ _ _ (.tail _ (.head _)) fun _ => trivial
      · trivial
  | applyRemoteObject obj => cases h
  | applyRemoteObjects objects => cases h
  | _ => exact hdone (happ _ _ _ (.head _) fun _ => trivial)

theorem Mutation.every_isLocal (env : Env) (policy : AuthorityPolicy) (disk : Disk) {m : Mutation} (h : m.isLocal = true) :
    Prog.Every Action.IsLocal (m.call env policy disk) :=
  Mutation.every_local env policy disk h trivial fun _ _ _ => trivial

/-! ## Frames -/

namespace TicketEngine

variable {env : Env} {s : TicketEngine}

/-- What an append does to the state: nothing, or the step of an event with the payload and the timestamp. -/
theorem append_state (te : TicketEvent) (ts : UInt64) (disk : Disk) (s : TicketEngine) :
    (appendTicketEvent env te ts disk s).2.state = s.state ∨
    ∃ e, e.payload = .ticket te ∧ e.timestamp = ts ∧
      (appendTicketEvent env te ts disk s).2.state = TicketReducer.step env s.state e := by
  rcases append_cases env te ts disk s with ⟨err, -, he⟩ | ⟨e, obj, hd, ⟨err, -, he⟩ | ⟨store', -, ⟨err, -, he⟩ | ⟨g', -, he⟩⟩⟩
  · exact .inl (by rw [he])
  · exact .inl (by rw [he])
  · exact .inl (by rw [he])
  · exact .inr ⟨e, (Event.new_ok hd).2.2.2.1, (Event.new_ok hd).2.1, by rw [he]⟩

/-- A failed append leaves the tickets as they were. -/
theorem append_error_state {te : TicketEvent} {ts : UInt64} {disk : Disk} {s : TicketEngine} {err : Error}
    (h : (appendTicketEvent env te ts disk s).1 = .error err) : (appendTicketEvent env te ts disk s).2.state = s.state := by
  rcases append_cases env te ts disk s with ⟨err, -, he⟩ | ⟨e, obj, -, ⟨err, -, he⟩ | ⟨store', -, ⟨err, -, he⟩ | ⟨g', -, he⟩⟩⟩
  · rw [he]
  · rw [he]
  · rw [he]
  · rw [he] at h ⊢
    -- the reducer has refused the event
    cases ha : (TicketReducer.applyEvent env s.state e).1 with
    | ok u => rw [ha] at h; cases h
    | error err => exact TicketReducer.applyEvent_error ha

/-- A successful append: the event is inserted, and the state takes it. -/
theorem append_ok {te : TicketEvent} {ts : UInt64} {disk : Disk} {x : Event × SignedObject} {s' : TicketEngine}
    (h : appendTicketEvent env te ts disk s = (.ok x, s')) :
    x.1.payload = .ticket te ∧ s.graph.insert x.1 = (.ok (), s'.graph) ∧ TicketReducer.Applicable s.state te ∧
      s'.state = TicketReducer.step env s.state x.1 := by
  rcases append_cases env te ts disk s with ⟨err, -, he⟩ | ⟨e, obj, hd, ⟨err, -, he⟩ | ⟨store', -, ⟨err, -, he⟩ | ⟨g', hi, he⟩⟩⟩
  · rw [he] at h; cases h
  · rw [he] at h; cases h
  · rw [he] at h; cases h
  · have hpay := (Event.new_ok hd).2.2.2.1
    rw [he] at h
    rcases @TicketReducer.applyEvent_cases env s.state _ _ hpay with ⟨happ, hap⟩ | ⟨-, err, -, hap⟩
    · rw [hap] at h
      cases h
      exact ⟨hpay, hi, happ, rfl⟩
    · rw [hap] at h; cases h

/-- A change of status that is appended moves its ticket and counts one revision. -/
theorem append_status_ok {t actor : String} {newState : TicketState} {reason : Option String} {ts : UInt64} {disk : Disk}
    {x : Event × SignedObject} {s' : TicketEngine} {a : TicketAggregate} (hg : s.state.get t = some a)
    (h : appendTicketEvent env (.statusChanged t newState actor reason) ts disk s = (.ok x, s')) :
    ∃ a', s'.state.get t = some a' ∧ a'.record.state = newState ∧ a'.record.revision = a.record.revision + 1 ∧
      a'.record.identity = a.record.identity := by
  obtain ⟨hpay, -, happ, hst⟩ := append_ok h
  rw [hst]
  rcases @TicketReducer.get_step_applied env _ _ _ hpay happ with ⟨_, _, _, _, _, hte, -⟩ | ⟨a₀, a', hg₀, hget, heff⟩
  · cases hte
  · cases hg.symm.trans hg₀
    cases heff with
    | idle hidle => exact hidle.elim
    | status => exact ⟨_, hget, rfl, rfl, rfl⟩

/-- An append changes no other ticket. -/
theorem append_get_of_ne {te : TicketEvent} {t : String} (hne : te.ticketId ≠ t) (ts : UInt64) (disk : Disk)
    (s : TicketEngine) : (appendTicketEvent env te ts disk s).2.state.get t = s.state.get t := by
  rcases append_state te ts disk s with h | ⟨e, hp, -, h⟩
  · rw [h]
  · rw [h]
    exact TicketReducer.get_step_of_not_about (by simp [Event.about, Event.ticketId, hp, hne])

/-- An append of what the state cannot take leaves it alone. -/
theorem append_refused {te : TicketEvent} (h : ¬ TicketReducer.Applicable s.state te) (ts : UInt64) (disk : Disk) :
    (appendTicketEvent env te ts disk s).2.state = s.state := by
  rcases append_state te ts disk s with hs | ⟨e, hp, -, hs⟩
  · exact hs
  · rw [hs]
    rcases TicketReducer.applyEvent_cases s.state hp with ⟨ha, -⟩ | ⟨-, err, -, he⟩
    · exact absurd ha h
    · exact TicketReducer.applyEvent_error he

/-- A local mutation changes no ticket but its own. -/
theorem perform_get_of_ne {disk : Disk} {m : Mutation} {t : String} (hm : m.isLocal = true) (hne : m.ticketId ≠ some t) :
    (perform env disk m s).2.state.get t = s.state.get t := by
  let off : Action → Prop := fun a => ∀ s, (exec env a s).2.state.get t = s.state.get t
  have hevery : (m.call env s.policy disk).Every off :=
    Mutation.every_local env s.policy disk hm (fun _ => rfl)
      fun te ts ht => append_get_of_ne (fun heq => hne (by rw [Mutation.ticketId_of_mem_appends ht, heq])) ts disk
  exact Prog.run_invariant (fun a _ => off a) (I := fun s' => s'.state.get t = s.state.get t)
    (fun a s' ha hs => (ha s').trans hs) _ s (fun x hx => hevery.trace x hx) rfl

end TicketEngine

end Fortiq
