/-
The state of an engine is the reduction of its graph. An append names all heads and is accepted only
with a clock above theirs, so its event is the last in the order of the graph it joins, and applying it
incrementally is the same as folding everything anew. The remote calls insert first and replace the
state afterwards; a call between the two is pending, and in every interleaving the state is the
reduction whenever no call is pending.
-/
import Fortiq.Engine.Reach
import Fortiq.Event.Table

namespace Fortiq

namespace TicketEngine

variable {env : Env} {U : Set Event} {s s' : TicketEngine}

/-- The state is the reduction of the graph. -/
def Synced (env : Env) (s : TicketEngine) : Prop := s.state = TicketReducer.reduce env s.graph

theorem Sound.reduce_eq (h : Sound U s) : TicketReducer.reduce env s.graph = TicketReducer.replay env s.graph.events :=
  TicketReducer.reduce_eq_replay h.inv

/-! ## The appended event is the last one -/

theorem draft_ok {te : TicketEvent} {ts : UInt64} {e : Event} {obj : SignedObject}
    (h : draft env te ts s = .ok (e, obj)) :
    e.parents = s.graph.heads.toVec ∧ e.timestamp = ts ∧
      e.lamport = s.graph.nextLamport s.graph.heads.toVec ∧ e.payload = .ticket te ∧ e.id = obj.id ∧
      e.author = s.signer.publicKey env.crypto :=
  Event.new_ok h

/-- An event over all heads is not in the graph: it would be a child of the heads. -/
theorem Sound.fresh (hU : IdealIds U) (h : Sound U s) {e : Event} (he : e ∈ U) (hp : e.parents = s.graph.heads.toVec) :
    s.graph.contains e.id = false := by
  rw [EventGraph.contains_eq_false]
  intro a ha hid
  obtain rfl : a = e := hU.inj a (h.mem a ha) e he hid
  obtain ⟨m, -, hmh, -⟩ := h.inv.exists_max_head (List.ne_nil_of_mem ha)
  exact ((h.inv.heads m.id).1 hmh).2 a ha (hp ▸ hmh)

/-- An accepted event over all heads has the greatest clock. -/
theorem Sound.lt_of_accepted (h : Sound U s) {e : Event} (hp : e.parents = s.graph.heads.toVec)
    (hc : ¬ s.graph.Conflict e) {a : Event} (ha : a ∈ s.graph.events) : a.lamport < e.lamport := by
  obtain ⟨m, hm, hmh, hmax⟩ := h.inv.exists_max_head (List.ne_nil_of_mem ha)
  have hlt : m.lamport < e.lamport := by
    by_contra hle
    exact hc (.inl ⟨m, hm, hp ▸ hmh, UInt64.not_lt.1 hle⟩)
  exact UInt64.lt_of_le_of_lt (hmax a ha) hlt

/-- What an accepted append does to the graph: its event is new and the last in the order. -/
theorem Sound.append_last (hU : IdealIds U) (h : Sound U s) {e : Event} (he : e ∈ U)
    (hp : e.parents = s.graph.heads.toVec) {g' : EventGraph} (hi : s.graph.insert e = (.ok (), g')) :
    g'.events = s.graph.events ++ [e] ∧ ∀ a ∈ s.graph.events, a.sortKey < e.sortKey := by
  have hf := h.fresh hU he hp
  rcases EventGraph.insert_cases s.graph e with ⟨hc, -⟩ | ⟨-, -, err, -, hx⟩ | ⟨-, hc, g'', hx, hpush⟩
  · rw [hf] at hc; cases hc
  · rw [hi] at hx; cases hx
  · rw [hi] at hx; cases hx
    exact ⟨hpush.events, fun a ha => EventGraph.sortKey_lt (h.lt_of_accepted hp hc ha)⟩

/-- An append leaves the graph and the state alone, or its event joins the graph as the last and the state takes it. -/
theorem Sound.append_effect (hU : IdealIds U) (h : Sound U s) {te : TicketEvent} {ts : UInt64} {disk : Disk}
    (ha : Admits env U (.append te ts disk) s) :
    ((appendTicketEvent env te ts disk s).2.graph = s.graph ∧ (appendTicketEvent env te ts disk s).2.state = s.state) ∨
    ∃ e, e.payload = .ticket te ∧ (appendTicketEvent env te ts disk s).2.graph.events = s.graph.events ++ [e] ∧
      (∀ a ∈ s.graph.events, a.sortKey < e.sortKey) ∧
      (appendTicketEvent env te ts disk s).2.state = TicketReducer.step env s.state e := by
  rcases append_cases env te ts disk s with ⟨err, -, he⟩ | ⟨e, obj, hd, ⟨err, -, he⟩ | ⟨store', -, ⟨err, -, he⟩ | ⟨g', hi, he⟩⟩⟩
  · rw [he]; exact .inl ⟨rfl, rfl⟩
  · rw [he]; exact .inl ⟨rfl, rfl⟩
  · rw [he]; exact .inl ⟨rfl, rfl⟩
  · rw [he]
    have heU : e ∈ U := ha e (by simp [events, hd, Except.toOption])
    obtain ⟨hev, hlast⟩ := h.append_last hU heU (draft_ok hd).1 hi
    exact .inr ⟨e, (draft_ok hd).2.2.2.1, hev, hlast, rfl⟩

/-- Incremental application agrees with the full reduction. -/
theorem append_synced (hU : IdealIds U) {te : TicketEvent} {ts : UInt64} {disk : Disk}
    (ha : Admits env U (.append te ts disk) s) (h : Sound U s) (hs : Synced env s) :
    Synced env (appendTicketEvent env te ts disk s).2 := by
  have hsound : Sound U (appendTicketEvent env te ts disk s).2 := (exec_sound hU (.append te ts disk) s ha h).1
  rcases h.append_effect hU ha with ⟨hg, hst⟩ | ⟨e, -, hev, hlast, hst⟩
  · rw [Synced, hg, hst]; exact hs
  · calc (appendTicketEvent env te ts disk s).2.state
        = TicketReducer.step env (TicketReducer.replay env s.graph.events) e := by rw [hst, hs, h.reduce_eq]
      _ = TicketReducer.replay env (s.graph.events ++ [e]) :=
          (Replay.replay_append_last s.graph.nodup_sortKey hlast).symm
      _ = TicketReducer.reduce env (appendTicketEvent env te ts disk s).2.graph := by rw [← hev]; exact hsound.reduce_eq.symm

/-- The graph gains events that sort after all it has. -/
def GrowsLast (s s' : TicketEngine) : Prop :=
  Grows s s' ∧ ∀ e ∈ s'.graph.events, e ∉ s.graph.events → ∀ f ∈ s.graph.events, f.sortKey < e.sortKey

theorem GrowsLast.refl (s : TicketEngine) : GrowsLast s s := ⟨fun _ he => he, fun _ he hn => absurd he hn⟩

theorem GrowsLast.trans {s t u : TicketEngine} (h : GrowsLast s t) (h' : GrowsLast t u) : GrowsLast s u := by
  refine ⟨fun e he => h'.1 e (h.1 e he), fun e he hn f hf => ?_⟩
  by_cases het : e ∈ t.graph.events
  · exact h.2 e het hn f hf
  · exact h'.2 e he het f (h.1 f hf)

/-- A local section adds nothing, or an event that sorts last. -/
theorem exec_growsLast (hU : IdealIds U) (a : Action) (s : TicketEngine) (hl : a.IsLocal) (ha : Admits env U a s)
    (h : Sound U s) : GrowsLast s (exec env a s).2 := by
  cases a with
  | readState => exact .refl s
  | readGraph => exact .refl s
  | getObject id read => exact .refl s
  | append te ts disk =>
    simp only [exec]
    rcases h.append_effect hU ha with ⟨hg, -⟩ | ⟨e, -, hev, hlast, -⟩
    · exact ⟨fun f hf => by rwa [hg], fun f hf hn => absurd (hg ▸ hf) hn⟩
    · refine ⟨fun f hf => ?_, fun f hf hn => ?_⟩
      · rw [hev]; exact List.mem_append_left _ hf
      · rw [hev] at hf
        rcases List.mem_append.1 hf with hf | hf
        · exact absurd hf hn
        · rw [List.mem_singleton.1 hf]; exact hlast
  | _ => exact hl.elim

/-- A local mutation only adds events that sort last. -/
theorem local_growsLast (hU : IdealIds U) {disk : Disk} {m : Mutation} (hm : m.isLocal = true)
    (ha : Admitted env U disk m s) (h : Sound U s) : GrowsLast s (perform env disk m s).2 :=
  (Prog.run_preserves (fun a s => a.IsLocal ∧ Admits env U a s) (I := Sound U) (R := GrowsLast) GrowsLast.refl
    (fun _ _ _ => GrowsLast.trans)
    (fun a s ha h => ⟨(exec_sound hU a s ha.2 h).1, exec_growsLast hU a s ha.1 ha.2 h⟩) _ s
    (fun x hx => ⟨(Mutation.every_isLocal env s.policy disk hm).trace x hx, ha x hx⟩) h).2

/-! ## Pending calls -/

/-- The next section of the call replaces the state. -/
def Pending {α : Type} (p : Call α) : Prop := ∃ k, p = .act .replaceState k

/-- What has to follow a section: after an insertion that went through, the replacement of the state. -/
def Follows {α : Type} : (a : Action) → (a.Ret → Call α) → Prop
  | .insertGraph _, k => Pending (k (.ok ()))
  | .ingest _ _, k => ∀ n : Nat, 0 < n → Pending (k n)
  | _, _ => True

/-- Every insertion of the call is followed by the replacement of the state. -/
def Guarded {α : Type} : Call α → Prop
  | .ret _ => True
  | .fail _ => True
  | .act a k => Follows a k ∧ ∀ r, Guarded (k r)

theorem guarded_ofExcept {α : Type} (r : Result α) : Guarded (.ofExcept r : Call α) := by cases r <;> trivial

/-- A call that has returned is not pending. -/
theorem not_pending_ofExcept {α : Type} (r : Result α) : ¬ Pending (.ofExcept r : Call α) := by
  rintro ⟨k, hk⟩
  cases r <;> cases hk

theorem Pending.bind {α β : Type} {p : Call α} (h : Pending p) (f : α → Call β) : Pending (p >>= f) := by
  obtain ⟨k, rfl⟩ := h
  exact ⟨fun r => k r >>= f, rfl⟩

theorem Guarded.bind {α β : Type} {f : α → Call β} (hf : ∀ a, Guarded (f a)) :
    ∀ {p : Call α}, Guarded p → Guarded (p >>= f)
  | .ret a, _ => hf a
  | .fail _, _ => trivial
  | .act a k, h => by
    refine ⟨?_, fun r => Guarded.bind hf (h.2 r)⟩
    cases a with
    | insertGraph e => exact Pending.bind h.1 f
    | ingest objects disk => exact fun n hn => Pending.bind (h.1 n hn) f
    | _ => trivial

/-- Local sections have nothing to be followed by. -/
theorem guarded_of_isLocal {α : Type} : ∀ {p : Call α}, p.Every Action.IsLocal → Guarded p
  | .ret _, _ => trivial
  | .fail _, _ => trivial
  | .act a k, h => by
    refine ⟨?_, fun r => guarded_of_isLocal (h.2 r)⟩
    cases a with
    | readState | readGraph | getObject | append => trivial
    | _ => exact h.1.elim

/-- The remote calls replace the state after they have inserted. -/
theorem guarded_call (env : Env) (policy : AuthorityPolicy) (disk : Disk) (m : Mutation) :
    Guarded (m.call env policy disk) := by
  cases m with
  | applyRemoteObject obj =>
    refine Guarded.bind (f := fun _ => .ret Reply.done) (fun _ => trivial)
      (Guarded.bind (fun _ => Guarded.bind (fun event => ?_) (guarded_ofExcept _)) (guarded_ofExcept _))
    refine Guarded.bind (p := .act (.put obj disk) fun r => .ofExcept r) (fun _ => ?_)
      ⟨trivial, fun r => guarded_ofExcept r⟩
    refine ⟨⟨_, rfl⟩, fun r => ?_⟩
    exact Guarded.bind (f := fun _ => .act .replaceState .ret) (fun _ => ⟨trivial, fun _ => trivial⟩) (guarded_ofExcept r)
  | applyRemoteObjects objects =>
    refine Guarded.bind (f := fun n => .ret (Reply.count n)) (p := Call.applyRemoteObjects disk objects) (fun _ => trivial)
      ⟨fun n hn => ?_, fun (n : Nat) => ?_⟩
    · simp only [gt_iff_lt, hn, if_true]; exact ⟨_, rfl⟩
    · simp only
      split
      · exact ⟨trivial, fun _ => trivial⟩
      · trivial
  | _ => exact guarded_of_isLocal (Mutation.every_isLocal env policy disk rfl)

/-- A section of a guarded call that starts synchronised, or is itself the replacement, leaves the state
synchronised or the rest of the call pending. -/
theorem exec_synced {α : Type} (hU : IdealIds U) (a : Action) (k : a.Ret → Call α) (s : TicketEngine)
    (hf : Follows a k) (ha : Admits env U a s) (h : Sound U s)
    (hs : Synced env s ∨ Pending (.act a k : Call α)) :
    Synced env (exec env a s).2 ∨ Pending (k (exec env a s).1) := by
  have hpend : a ≠ .replaceState → Synced env s := fun hne => hs.resolve_right fun ⟨k', hk⟩ => by
    cases hk; exact hne rfl
  cases a with
  | readState => exact .inl (hpend (by simp))
  | readGraph => exact .inl (hpend (by simp))
  | getObject id read => exact .inl (hpend (by simp))
  | put obj disk => exact .inl (hpend (by simp))
  | replaceState => exact .inl rfl
  | append te ts disk => exact .inl (append_synced hU ha h (hpend (by simp)))
  | insertGraph e =>
    have hsync := hpend (by simp)
    simp only [exec]
    cases hr : (s.graph.insert e).1 with
    | ok u => exact .inr hf
    | error err =>
      left
      simp only [Synced, EventGraph.insert_error hr]
      exact hsync
  | ingest objects disk =>
    have hsync := hpend (by simp)
    obtain ⟨⟨store', hr⟩, -, hzero⟩ := ingest_spec env disk objects 0 s
    have hr : (exec env (.ingest objects disk) s).2 = _ := hr
    rcases Nat.eq_zero_or_pos (objects.foldl (ingestObject env disk) ((0 : Nat), s)).1 with hn | hn
    · left
      have hg : (exec env (.ingest objects disk) s).2.graph = s.graph := hzero hn
      unfold Synced
      rw [hg, hr]
      exact hsync
    · exact .inr (hf _ hn)

/-! ## Every interleaving -/

/-- The mutations of an engine with this policy, as the calls of a pool. -/
def calls (env : Env) (policy : AuthorityPolicy) : Set (Call Reply) := {p | ∃ disk m, p = Mutation.call env policy disk m}

/-- In every interleaving the engine is sound, and synchronised or some call is pending. -/
theorem pool_synced (hU : IdealIds U) {policy : AuthorityPolicy} {c c' : Prog.Pool TicketEngine Action Action.Ret Error Reply}
    (hsteps : Prog.Pool.Steps (exec env) (Admits env U) (calls env policy) c c') (h : Sound U c.state)
    (hw : ∀ t ∈ c.threads, Guarded t) (hs : Synced env c.state ∨ ∃ t ∈ c.threads, Pending t) :
    Synced env c'.state ∨ ∃ t ∈ c'.threads, Pending t := by
  refine (Prog.Pool.sync_of_not_pending (Sound U) (Synced env) Guarded Pending ?_ ?_ hsteps h hw hs).2.2
  · rintro p ⟨disk, m, rfl⟩
    exact guarded_call env policy disk m
  · intro a k s hw ha hi
    exact ⟨(exec_sound hU a s ha hi).1, hw.2 _, exec_synced hU a k s hw.1 ha hi⟩

theorem Opened.synced (h : Opened env U s) : Synced env s := by
  obtain ⟨store, files, signer, policy, -, -, ho⟩ := h
  obtain ⟨-, rfl⟩ := open_ok.1 ho
  rfl

/-- A call run alone is an interleaving. -/
theorem pool_perform {disk : Disk} {m : Mutation} (h : Admitted env U disk m s) :
    Prog.Pool.Steps (exec env) (Admits env U) (calls env s.policy) ⟨s, []⟩
      ⟨(perform env disk m s).2, [.ofExcept (perform env disk m s).1]⟩ :=
  .head (.spawn (m.call env s.policy disk) ⟨disk, m, rfl⟩) (Prog.Pool.steps_run (m.call env s.policy disk) s [] [] h)

/-- A call run alone leaves nothing pending. -/
theorem Step.synced (hU : IdealIds U) (hs : Step env U s s') (h : Sound U s) (hsync : Synced env s) : Synced env s' := by
  obtain ⟨disk, m, ha, rfl⟩ := hs
  have hrun : Prog.Pool.Steps (exec env) (Admits env U) (calls env s.policy) _ _ :=
    Prog.Pool.steps_run (m.call env s.policy disk) s [] [] ha
  rcases pool_synced hU hrun h (by simpa using guarded_call env s.policy disk m) (.inl hsync) with hdone | ⟨t, ht, k, hk⟩
  · exact hdone
  · simp only [List.nil_append, List.mem_singleton] at ht
    subst ht
    cases hr : ((m.call env s.policy disk).run (exec env) s).1 <;> rw [hr] at hk <;> cases hk

theorem Run.synced (hU : IdealIds U) (hr : Run env U s s') (h : Sound U s) (hsync : Synced env s) : Synced env s' := by
  induction hr with
  | refl => exact hsync
  | tail hr hs ih => exact Step.synced hU hs (Run.sound hU hr h).1 ih

theorem Reach.synced (hU : IdealIds U) (h : Reach env U s) : Synced env s := by
  obtain ⟨s₀, ho, hr⟩ := h
  exact Run.synced hU hr (ho.sound hU) ho.synced

/-- The state is the reduction of the graph: after any run, and at every moment of any interleaving at
which no remote call stands between its insertion and the replacement of the state. -/
theorem state_eq_reduce (hU : IdealIds U) :
    (∀ s, Reach env U s → s.state = TicketReducer.reduce env s.graph) ∧
    ∀ s c, Opened env U s → Prog.Pool.Steps (exec env) (Admits env U) (calls env s.policy) ⟨s, []⟩ c →
      (∀ t ∈ c.threads, ¬ Pending t) → c.state.state = TicketReducer.reduce env c.state.graph := by
  refine ⟨fun s h => h.synced hU, fun s c ho hsteps hnone => ?_⟩
  rcases pool_synced hU hsteps (ho.sound hU) (by simp) (.inl ho.synced) with hs | ⟨t, ht, hp⟩
  · exact hs
  · exact absurd hp (hnone t ht)

/-! ## The engine as a replicated log -/

/-- The events of the graph, as a set. -/
def log (s : TicketEngine) : Finset Event := s.graph.events.toFinset

@[simp] theorem mem_log {e : Event} : e ∈ s.log ↔ e ∈ s.graph.events := List.mem_toFinset

/-- A replica of the event log, as the abstract model has it. -/
abbrev Replica (env : Env) := Replay.Replica Event.sortKey (TicketReducer.step env) TicketStateStore.new

/-- A synchronised engine is a replica that shows its state. -/
def Sound.replica (h : Sound U s) (hs : Synced env s) : Replica env where
  log := s.log
  keyed := fun _ ha _ hb hab => EventGraph.id_inj (mem_log.1 ha) (mem_log.1 hb) (EventGraph.sortKey_id hab)
  view := s.state
  shows := by rw [hs, h.reduce_eq]; exact Replay.replay_eq_stateOf s.graph.nodup_sortKey

/-- A reachable engine refines the abstract replica. -/
def Reach.replica (hU : IdealIds U) (h : Reach env U s) : Replica env := (h.sound hU).replica (h.synced hU)

/-- Every run of the engine is a growth of its replica. -/
theorem Run.replica_grows (hU : IdealIds U) (h : Reach env U s) (hr : Run env U s s') :
    (h.replica hU).Grows ((h.run hr).replica hU) :=
  fun e he => mem_log.2 ((Run.sound hU hr (h.sound hU)).2 e (mem_log.1 he))

section Sample

/-- A creation, a concurrent message that sorts before it, and a status change over both. -/
def branchTable : EventTable where
  bodies :=
    [⟨[], 10, 1, .ticket (.created "T-aaaaaaaa" "printer" "on fire" .high "alice")⟩,
     ⟨[], 5, 1, .ticket (.chatMessageAdded "T-aaaaaaaa" "m1" "bob" "hello" 5)⟩,
     ⟨[idAt 0, idAt 1], 20, 2, .ticket (.statusChanged "T-aaaaaaaa" .inProgress "alice" none)⟩]

/-- The engine that creates the ticket, takes the message and changes the status. -/
def branchMerged : Reached branchTable :=
  (((Reached.start branchTable).after (.createTicket "aaaaaaaa" 10 "printer" "on fire" .high "alice")).after
    (.applyRemoteObject (objectAt alice 1 5))).after (.updateTicketState 20 "T-aaaaaaaa" .inProgress "alice")

/-- The engine of the sample has three events, and its state is their reduction; and so is the state
after one call of a pool. -/
theorem state_eq_reduce_branchMerged :
    let s := branchMerged.engine
    let s₁ := (perform branchTable.env diskOk (.createTicket "aaaaaaaa" 10 "printer" "on fire" .high "alice")
      (fresh alice ⟨none⟩)).2
    s.graph.events.length = 3 ∧ s.state = TicketReducer.reduce branchTable.env s.graph ∧
      s₁.state = TicketReducer.reduce branchTable.env s₁.graph := by
  refine ⟨by decide +kernel, (state_eq_reduce branchTable.idealIds).1 _ branchMerged.reach, ?_⟩
  exact (state_eq_reduce branchTable.idealIds).2 (fresh alice ⟨none⟩) _ (opened_fresh _ _)
    (@pool_perform branchTable.env _ _ diskOk (.createTicket "aaaaaaaa" 10 "printer" "on fire" .high "alice")
      (by decide +kernel)) (by simpa using not_pending_ofExcept _)

end Sample

end TicketEngine

end Fortiq
