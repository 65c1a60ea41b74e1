/-
Failed calls. A call that fails before it writes leaves nothing behind. An append writes its object, then
inserts its event, then applies it, and the graph and the reducer can still refuse; what was done before
stays. For each call the states are characterised in which every failure other than one of the disk is
without effect. The libraries are taken to encode every body and to verify what they sign.
-/
import Fortiq.Engine.Clock

namespace Fortiq

namespace TicketEngine

open TicketReducer

variable {env : Env} {U : Set Event} {s : TicketEngine}

/-- The stored objects, the events and heads of the graph, and the state are the same. -/
structure Unchanged (s s' : TicketEngine) : Prop where
  store : ∀ o, o ∈ s'.store.objects ↔ o ∈ s.store.objects
  events : ∀ e, e ∈ s'.graph.events ↔ e ∈ s.graph.events
  heads : s'.graph.heads = s.graph.heads
  state : s'.state = s.state

theorem Unchanged.refl (s : TicketEngine) : Unchanged s s := ⟨fun _ => .rfl, fun _ => .rfl, rfl, rfl⟩

/-- Unless it fails for the disk, a failure leaves the engine unchanged. -/
def NoEffect {α : Type} (s : TicketEngine) (r : Result α × TicketEngine) : Prop :=
  ∀ err, r.1 = .error err → err.isDisk = false → Unchanged s r.2

theorem noEffect_ok {α : Type} {s' : TicketEngine} (a : α) : NoEffect s ((.ok a : Result α), s') := by
  intro err h; cases h

theorem noEffect_disk {α : Type} {err : Error} {s' : TicketEngine} (h : err.isDisk = true) :
    NoEffect s ((.error err : Result α), s') := by
  intro err' he hd; cases he; rw [h] at hd; cases hd

theorem noEffect_error {α : Type} {err : Error} {s' : TicketEngine} (h : err.isDisk = false) :
    NoEffect s ((.error err : Result α), s') ↔ Unchanged s s' :=
  ⟨fun hn => hn err rfl h, fun hu _ he _ => by cases he; exact hu⟩

/-- A follow-up that does not fail changes nothing about failures. -/
theorem noEffect_andThen {α β : Type} {r : Result α × TicketEngine} {k : α → Call β}
    (hk : ∀ x s', r = (.ok x, s') → ∃ y s'', (k x).run (exec env) s' = (.ok y, s'')) :
    NoEffect s (Prog.andThen (exec env) k r) ↔ NoEffect s r := by
  obtain ⟨err | x, s'⟩ := r
  · exact ⟨fun h e he hd => by cases he; exact h err rfl hd, fun h e he hd => by cases he; exact h err rfl hd⟩
  · obtain ⟨y, s'', hr⟩ := hk x s' rfl
    rw [Prog.andThen_ok, hr]
    exact iff_of_true (noEffect_ok y) (noEffect_ok x)

/-- Storing an object changes nothing exactly if it was stored already. -/
theorem unchanged_put_iff {disk : Disk} {obj : SignedObject} {i : ObjectId} {store' : FsObjectStore}
    (hp : s.store.put env.crypto disk obj = (.ok i, store')) :
    Unchanged s { s with store := store' } ↔ s.store.has obj.id = true := by
  rcases (FsObjectStore.put_ok hp).2.2 with ⟨hh, rfl⟩ | ⟨hf, ho⟩
  · exact iff_of_true (.refl s) hh
  · refine ⟨fun hu => FsObjectStore.has_iff.2 ⟨obj, (hu.store obj).1 (by simp [ho]), rfl⟩, fun hh => ?_⟩
    rw [hh] at hf; cases hf

/-! ## An append -/

theorem run_appendTicketEvent (te : TicketEvent) (ts : UInt64) (disk : Disk) (s : TicketEngine) :
    (Call.appendTicketEvent te ts disk).run (exec env) s = appendTicketEvent env te ts disk s :=
  Prog.run_ofExcept (exec env) (appendTicketEvent env te ts disk s).1 (appendTicketEvent env te ts disk s).2

theorem run_getTicket (t : String) (s : TicketEngine) :
    (Call.getTicket t).run (exec env) s = (.ok (s.state.getTicket t), s) := rfl

/-- The object of the append is on disk already. -/
def AlreadyStored (env : Env) (te : TicketEvent) (ts : UInt64) (s : TicketEngine) : Prop :=
  ∃ e obj, draft env te ts s = .ok (e, obj) ∧ s.store.has obj.id = true

/-- The append cannot fail after it has had an effect: with the clock spent its object is on disk already,
and otherwise the reducer takes its event. -/
def AppendClean (env : Env) (te : TicketEvent) (ts : UInt64) (s : TicketEngine) : Prop :=
  (ClockSpent s → AlreadyStored env te ts s) ∧ (¬ ClockSpent s → Applicable s.state te)

section Appends

variable (henc : env.Encodes) (hsig : env.crypto.Signs) (hU : IdealIds U) (hac : Acyclic U)
include henc hsig hU hac

/-- With libraries that do not fail, an append fails for the disk, or at a spent clock, or in the reducer. -/
theorem append_outcome (h : Sound U s) {te : TicketEvent} {ts : UInt64} {disk : Disk}
    (ha : Admits env U (.append te ts disk) s) : ∃ e obj, draft env te ts s = .ok (e, obj) ∧ e ∈ U ∧
      ((FsObjectStore.WriteFails env.crypto disk s.store obj ∧
          ∃ err, err.isDisk = true ∧ appendTicketEvent env te ts disk s = (.error err, s)) ∨
        ∃ store', s.store.put env.crypto disk obj = (.ok obj.id, store') ∧
          ((ClockSpent s ∧ ∃ err, err.isDisk = false ∧
              appendTicketEvent env te ts disk s = (.error err, { s with store := store' })) ∨
            (¬ ClockSpent s ∧ ∃ g', s.graph.insert e = (.ok (), g') ∧ g'.events = s.graph.events ++ [e] ∧
              appendTicketEvent env te ts disk s =
                ((applyEvent env s.state e).1.map fun _ => (e, obj),
                  { s with store := store', graph := g', state := step env s.state e })))) := by
  obtain ⟨e, obj, hd, hv⟩ : ∃ e obj, draft env te ts s = .ok (e, obj) ∧ obj.verify env.crypto = .ok () :=
    Event.new_total henc hsig _ _ _ _ _
  have heU : e ∈ U := ha e (by simp [events, hd, Except.toOption])
  have hconf := h.conflict_iff hac hd heU
  refine ⟨e, obj, hd, heU, ?_⟩
  rcases append_cases env te ts disk s with ⟨err, hd', -⟩ | ⟨e', obj', hd', hrest⟩
  · rw [hd] at hd'; cases hd'
  rw [hd] at hd'; cases hd'
  rcases hrest with ⟨err, hp, he⟩ | ⟨store', hp, ⟨err, hi, he⟩ | ⟨g', hi, he⟩⟩
  · left
    rcases FsObjectStore.put_of_verify disk s.store hv with ⟨hw, err', hdk, hp'⟩ | ⟨store', hp'⟩
    · rw [hp] at hp'; cases hp'; exact ⟨hw, err, hdk, he⟩
    · rw [hp] at hp'; cases hp'
  · obtain ⟨-, -, hc, hdk⟩ := EventGraph.insert_refused hi
    exact .inr ⟨store', hp, .inl ⟨hconf.1 hc, err, hdk, he⟩⟩
  · refine .inr ⟨store', hp, .inr ⟨fun hsp => ?_, g', hi, (h.append_last hU heU (draft_ok hd).1 hi).1, he⟩⟩
    have hok := EventGraph.insert_isOk_iff.1 (show (s.graph.insert e).1 = .ok () by rw [hi])
    rw [h.fresh hU heU (draft_ok hd).1] at hok
    exact (hok.resolve_left (by simp)) (hconf.2 hsp)

/-- The failures of an append are without effect exactly if it is clean. -/
theorem append_noEffect_iff (h : Sound U s) {te : TicketEvent} {ts : UInt64}
    (ha : ∀ disk, Admits env U (.append te ts disk) s) :
    (∀ disk, NoEffect s (appendTicketEvent env te ts disk s)) ↔ AppendClean env te ts s := by
  constructor
  · intro hno
    -- a disk without failures is the worst case
    have hno := hno fun _ => none
    obtain ⟨e, obj, hd, -, ⟨hw, -⟩ | ⟨store', hp, hrest⟩⟩ := append_outcome henc hsig hU hac h (ha fun _ => none)
    · exact absurd hw.2.2 (by simp)
    rcases hrest with ⟨hsp, err, hdk, he⟩ | ⟨hsp, g', -, hg, he⟩
    · refine ⟨fun _ => ⟨e, obj, hd, ?_⟩, fun hn => absurd hsp hn⟩
      rw [he, noEffect_error hdk] at hno
      exact (unchanged_put_iff hp).1 hno
    · refine ⟨fun hsp' => absurd hsp' hsp, fun _ => ?_⟩
      rcases @applyEvent_cases env s.state _ _ (draft_ok hd).2.2.2.1 with ⟨happ, -⟩ | ⟨-, err, hdk, hap⟩
      · exact happ
      · rw [he, hap] at hno
        have hmem : e ∈ s.graph.events := (((noEffect_error hdk).1 hno).events e).1 (by simp [hg])
        have hnd' := g'.nodup
        rw [hg, List.map_append, List.nodup_append] at hnd'
        exact absurd rfl (hnd'.2.2 e.id (List.mem_map_of_mem hmem) e.id (by simp))
  · rintro ⟨hspent, happ⟩ disk
    obtain ⟨e, obj, hd, -, ⟨-, err, hdk, he⟩ | ⟨store', hp, hrest⟩⟩ := append_outcome henc hsig hU hac h (ha disk)
    · rw [he]; exact noEffect_disk hdk
    rcases hrest with ⟨hsp, err, hdk, he⟩ | ⟨hsp, g', -, hg, he⟩
    · rw [he, noEffect_error hdk]
      obtain ⟨e', obj', hd', hh⟩ := hspent hsp
      rw [hd] at hd'; cases hd'
      exact (unchanged_put_iff hp).2 hh
    · rcases @applyEvent_cases env s.state _ _ (draft_ok hd).2.2.2.1 with ⟨-, hok⟩ | ⟨hno, -⟩
      · rw [he, hok]; exact noEffect_ok _
      · exact absurd (happ hsp) hno

/-- The same for a call that is one append and a follow-up that does not fail. -/
theorem single_noEffect_iff (h : Sound U s) {m : Mutation} (te : TicketEvent) (ts : UInt64) {β : Type}
    {k : Event × SignedObject → Call β} {j : β → Call Reply}
    (hrun : ∀ disk, perform env disk m s =
      Prog.andThen (exec env) j (Prog.andThen (exec env) k (appendTicketEvent env te ts disk s)))
    (hk : ∀ disk x s', appendTicketEvent env te ts disk s = (.ok x, s') → ∃ y s'', (k x).run (exec env) s' = (.ok y, s''))
    (hj : ∀ y s', ∃ z s'', (j y).run (exec env) s' = (.ok z, s''))
    (ha : ∀ disk, Admits env U (.append te ts disk) s) :
    (∀ disk, NoEffect s (perform env disk m s)) ↔ AppendClean env te ts s := by
  rw [← append_noEffect_iff henc hsig hU hac h ha]
  refine forall_congr' fun disk => ?_
  rw [hrun, noEffect_andThen fun y s' _ => hj y s', noEffect_andThen (hk disk)]

end Appends

/-- After a successful append the ticket of the event is there. -/
theorem append_ok_isSome {te : TicketEvent} {ts : UInt64} {disk : Disk} {x : Event × SignedObject} {s' : TicketEngine}
    (h : appendTicketEvent env te ts disk s = (.ok x, s')) : (s'.state.get te.ticketId).isSome := by
  obtain ⟨hpay, -, happ, hst⟩ := append_ok h
  rw [hst]
  rcases @get_step_applied env _ _ _ hpay happ with ⟨t, _, _, _, _, rfl, hmade⟩ | ⟨a, a', -, hget, -⟩
  · exact Option.isSome_of_eq_some hmade
  · exact Option.isSome_of_eq_some hget

/-- A state change that succeeds: the ticket was there, keeps its identity, and is in the new state. -/
theorem updateTicketState_ok {policy : AuthorityPolicy} {disk : Disk} {now : UInt64} {t : String} {newState : TicketState}
    {actor : String} {r : TicketRecord} {s' : TicketEngine}
    (h : (Call.updateTicketState policy disk now t newState actor).run (exec env) s = (.ok r, s')) :
    s'.state.getTicket t = some r ∧ r.state = newState ∧
      ∃ current, s.state.getTicket t = some current ∧ r.identity = current.identity := by
  unfold Call.updateTicketState at h
  rw [Prog.run_bind, run_getTicket, Prog.andThen_ok, Prog.run_bind] at h
  cases hg : s.state.get t with
  | none =>
    rw [TicketStateStore.getTicket, hg] at h
    cases h
  | some a =>
    have hcurrent : s.state.getTicket t = some a.record := by rw [TicketStateStore.getTicket, hg]; rfl
    rw [hcurrent] at h
    simp only [Prog.ofOption, Prog.run_ret, Prog.andThen_ok] at h
    split at h
    · cases h
    · rw [Prog.run_bind, run_appendTicketEvent] at h
      rcases happ : appendTicketEvent env (.statusChanged t newState actor none) now disk s with ⟨err | x, s₁⟩
      · rw [happ] at h; cases h
      · obtain ⟨a', hg', hstate, -, hident⟩ := append_status_ok hg happ
        rw [happ, Prog.andThen_ok, Prog.run_bind, run_getTicket, Prog.andThen_ok, TicketStateStore.getTicket, hg'] at h
        cases h
        exact ⟨by rw [TicketStateStore.getTicket, hg']; rfl, hstate, a.record, hcurrent, hident⟩

/-! ## Every call -/

/-- The states in which every failure of the call is without effect. -/
def Clean (env : Env) (s : TicketEngine) : Mutation → Prop
  | .createTicket uuid now title description priority client =>
    AppendClean env (.created ("T-" ++ String.ofList (uuid.toList.take 8)) title description priority client) now s
  | .updateTicketState now t newState actor =>
    -- a missing ticket or a transition that is not allowed is refused before anything is written
    ∀ a, s.state.get t = some a → a.record.state.canTransitionTo newState = true →
      ClockSpent s → AlreadyStored env (.statusChanged t newState actor none) now s
  | .addChatMessage now msg =>
    let now := Call.timestampOr msg.createdAt now
    AppendClean env (.chatMessageAdded msg.ticketId msg.id msg.senderPeerId msg.body now) now s
  | .addAttachment now att =>
    let now := Call.timestampOr att.createdAt now
    AppendClean env (.attachmentAdded att.ticketId att.id att.senderPeerId att.filename att.sizeBytes att.sha256
      att.localPath now) now s
  | .recordEvent uuid now t kind actor metadata => AppendClean env (.customAudit t uuid kind actor metadata now) now s
  | .startShellSession now t sessionId operator transport =>
    AppendClean env (.shellSessionStarted t sessionId operator transport now) now s
  | .endShellSession now t sessionId result => AppendClean env (.shellSessionEnded t sessionId now result) now s
  | .importCanonicalTicket ticket =>
    match s.state.get ticket.id with
    | none =>
      -- two events unless the ticket is open, so two clocks are needed
      (ClockSpent s → AlreadyStored env
        (.created ticket.id ticket.title ticket.description ticket.priority ticket.clientPeerId) ticket.createdAt s) ∧
      (¬ ClockSpent s → ticket.state ≠ .«open» → ¬ HasClock s (clockMax - 1))
    | some curr =>
      ticket.revision > curr.record.revision → ticket.state ≠ curr.record.state →
        AppendClean env (Call.importedStatus ticket) ticket.updatedAt s
  | .applyRemoteObject obj =>
    ∀ e, decoded env obj = some e → s.graph.contains e.id = true ∨ ¬ s.graph.Conflict e ∨ s.store.has obj.id = true
  | .applyRemoteObjects _ => True

/-- A remote object fails without effect if it is invalid; refused by the graph it is on disk all the same. -/
theorem remote_noEffect_iff (obj : SignedObject) :
    (∀ disk, NoEffect s (perform env disk (.applyRemoteObject obj) s)) ↔ Clean env s (.applyRemoteObject obj) := by
  constructor
  · intro hno e hd
    have hno := hno fun _ => none
    rcases applyRemoteObject_cases env (fun _ => none) obj s with
      ⟨hd', -⟩ | ⟨e', hd', ⟨hw, -⟩ | ⟨store', hp, ⟨err, hi, he⟩ | ⟨g', hi, -⟩⟩⟩
    · rw [hd] at hd'; cases hd'
    · exact absurd hw.2.2 (by simp)
    · rw [hd] at hd'; cases hd'
      obtain ⟨-, -, -, hdk⟩ := EventGraph.insert_refused hi
      rw [he, noEffect_error hdk] at hno
      exact .inr (.inr ((unchanged_put_iff hp).1 hno))
    · rw [hd] at hd'; cases hd'
      rcases EventGraph.insert_isOk_iff.1 (show (s.graph.insert e).1 = .ok () by rw [hi]) with hc | hc
      · exact .inl hc
      · exact .inr (.inl hc)
  · intro hclean disk
    rcases applyRemoteObject_cases env disk obj s with
      ⟨-, err, hdk, he⟩ | ⟨e, hd, ⟨-, err, hdk, he⟩ | ⟨store', hp, ⟨err, hi, he⟩ | ⟨g', -, he⟩⟩⟩
    · rw [he, noEffect_error hdk]; exact .refl s
    · rw [he]; exact noEffect_disk hdk
    · obtain ⟨-, hf, hc, hdk⟩ := EventGraph.insert_refused hi
      rw [he, noEffect_error hdk]
      exact (unchanged_put_iff hp).2 (((hclean e hd).resolve_left (by simp [hf])).resolve_left (not_not.2 hc))
    · rw [he]; exact noEffect_ok _

/-- After it has read the state, `update_ticket_state` is one append if the transition is allowed. -/
theorem update_call (disk : Disk) {now : UInt64} {t : String} {newState : TicketState} {actor : String}
    {a : TicketAggregate} (hg : s.state.get t = some a) (hc : a.record.state.canTransitionTo newState = true) :
    ∃ P, (Mutation.updateTicketState now t newState actor).call env s.policy disk = .act .readState P ∧
      P s.state = (Call.appendTicketEvent (.statusChanged t newState actor none) now disk >>= fun _ =>
        Call.getTicket t >>= fun ticket => .ofOption (.msg "failed to retrieve updated ticket") ticket) >>=
        fun r => .ret (.ticket r) := by
  refine ⟨_, rfl, ?_⟩
  show Prog.bind (Prog.bind (Prog.ofOption _ (s.state.getTicket t)) _) _ = _
  rw [TicketStateStore.getTicket, hg]
  show Prog.bind (if (!a.record.state.canTransitionTo newState) = true then _ else _) _ = _
  rw [hc]; rfl

/-- A call that reads the state first goes on as its continuation at the state. -/
theorem perform_read {disk : Disk} {m : Mutation} {P : TicketStateStore → Call Reply} {Q : Call Reply}
    (hcall : m.call env s.policy disk = .act .readState P) (hQ : P s.state = Q) :
    perform env disk m s = Q.run (exec env) s ∧
      (Admitted env U disk m s → ∀ x ∈ Q.trace (exec env) s, Admits env U x.1 x.2) := by
  subst hQ
  constructor
  · rw [perform, hcall]; rfl
  · intro ha x hx
    rw [Admitted, hcall] at ha
    exact ha x (List.mem_cons_of_mem _ hx)

/-- The creation of an imported ticket. -/
def importedCreation (ticket : TicketRecord) : TicketEvent :=
  .created ticket.id ticket.title ticket.description ticket.priority ticket.clientPeerId

/-- The status of an imported ticket, appended. -/
def importStatus (ticket : TicketRecord) (disk : Disk) : Call Unit :=
  Call.appendTicketEvent (Call.importedStatus ticket) ticket.updatedAt disk >>= fun _ => .ret ()

/-- After it has read the state, `import_canonical_ticket` appends a creation and the status where the ticket is
absent, and the status alone where it is present, behind and in another state. -/
theorem import_call (env : Env) (policy : AuthorityPolicy) (disk : Disk) (ticket : TicketRecord) :
    ∃ P, (Mutation.importCanonicalTicket ticket).call env policy disk = .act .readState P ∧ ∀ st : TicketStateStore,
      P st = (match st.getTicket ticket.id with
        | none => Call.appendTicketEvent (importedCreation ticket) ticket.createdAt disk >>= fun _ =>
            if ticket.state ≠ .«open» then importStatus ticket disk else .ret ()
        | some curr =>
          if ticket.revision > curr.revision ∧ ticket.state ≠ curr.state then importStatus ticket disk
          else .ret ()) >>= fun _ => .ret .done :=
  ⟨_, rfl, fun _ => rfl⟩

/-- The ticket of a successful append can be retrieved. -/
theorem run_retrieve {te : TicketEvent} {ts : UInt64} {disk : Disk} {x : Event × SignedObject} {s' : TicketEngine}
    {t : String} (err : Error) (ht : te.ticketId = t) (h : appendTicketEvent env te ts disk s = (.ok x, s')) :
    ∃ y s'', (Call.getTicket t >>= fun ticket => Prog.ofOption err ticket).run (exec env) s' = (.ok y, s'') := by
  obtain ⟨a, ha⟩ := Option.isSome_iff_exists.1 (append_ok_isSome h)
  refine ⟨a.record, s', ?_⟩
  rw [Prog.run_bind, run_getTicket, Prog.andThen_ok, TicketStateStore.getTicket, ← ht, ha]
  rfl

/-- After the creation of an imported ticket: its status, unless it is open. -/
def importRest (ticket : TicketRecord) (disk : Disk) (_ : Event × SignedObject) : Call Unit :=
  if ticket.state ≠ .«open» then importStatus ticket disk else .ret ()

section Absent

variable {ticket : TicketRecord} (hg : s.state.get ticket.id = none) (disk : Disk)
include hg

/-- The import of an absent ticket is the creation and then the rest, in what it does and in what it adds. -/
theorem import_absent :
    perform env disk (.importCanonicalTicket ticket) s =
        ((Call.appendTicketEvent (importedCreation ticket) ticket.createdAt disk >>= importRest ticket disk) >>=
          fun _ => .ret .done).run (exec env) s ∧
      (Admitted env U disk (.importCanonicalTicket ticket) s →
        ∀ x ∈ ((Call.appendTicketEvent (importedCreation ticket) ticket.createdAt disk >>= importRest ticket disk) >>=
          fun _ => (.ret .done : Call Reply)).trace (exec env) s, Admits env U x.1 x.2) := by
  obtain ⟨P, hcall, hP⟩ := import_call env s.policy disk ticket
  have hPs := hP s.state
  rw [TicketStateStore.getTicket, hg] at hPs
  exact perform_read hcall hPs

theorem import_absent_noEffect : NoEffect s (perform env disk (.importCanonicalTicket ticket) s) ↔
    NoEffect s (Prog.andThen (exec env) (importRest ticket disk)
      (appendTicketEvent env (importedCreation ticket) ticket.createdAt disk s)) := by
  rw [(@import_absent env ∅ s ticket hg disk).1, Prog.run_bind, Prog.run_bind, run_appendTicketEvent]
  exact noEffect_andThen fun _ _ _ => ⟨_, _, rfl⟩

/-- An open ticket is imported by its creation alone. -/
theorem import_absent_open (hopen : ticket.state = .«open») :
    NoEffect s (perform env disk (.importCanonicalTicket ticket) s) ↔
      NoEffect s (appendTicketEvent env (importedCreation ticket) ticket.createdAt disk s) := by
  rw [import_absent_noEffect hg disk]
  exact noEffect_andThen fun x s' _ => ⟨(), s', by simp [importRest, hopen]⟩

/-- Any other ticket: once the creation has gone through, the call is the append of the status. -/
theorem import_absent_second (hopen : ticket.state ≠ .«open») {e : Event} {obj : SignedObject} {s₁ : TicketEngine}
    (he : appendTicketEvent env (importedCreation ticket) ticket.createdAt disk s = (.ok (e, obj), s₁)) :
    (NoEffect s (perform env disk (.importCanonicalTicket ticket) s) ↔
      NoEffect s (appendTicketEvent env (Call.importedStatus ticket) ticket.updatedAt disk s₁)) ∧
    (Admitted env U disk (.importCanonicalTicket ticket) s →
      Admits env U (.append (Call.importedStatus ticket) ticket.updatedAt disk) s₁) := by
  have hrest : importRest ticket disk (e, obj) = importStatus ticket disk := if_pos hopen
  constructor
  · rw [import_absent_noEffect hg disk, he, Prog.andThen_ok, hrest, importStatus, Prog.run_bind, run_appendTicketEvent]
    exact noEffect_andThen fun _ _ _ => ⟨_, _, rfl⟩
  · intro ha
    refine (import_absent hg disk).2 ha (.append (Call.importedStatus ticket) ticket.updatedAt disk, s₁)
      (Prog.mem_trace_bind_left (Prog.mem_trace_bind ((run_appendTicketEvent ..).trans he) ?_))
    rw [hrest]; exact List.mem_cons_self ..

end Absent

section Calls

variable (henc : env.Encodes) (hsig : env.crypto.Signs) (hU : IdealIds U) (hac : Acyclic U)
include henc hsig hU hac

/-- `update_ticket_state` checks the ticket and the transition first. -/
theorem update_noEffect_iff (h : Sound U s) {now : UInt64} {t : String} {newState : TicketState} {actor : String}
    (ha : ∀ disk, Admitted env U disk (.updateTicketState now t newState actor) s) :
    (∀ disk, NoEffect s (perform env disk (.updateTicketState now t newState actor) s)) ↔
      Clean env s (.updateTicketState now t newState actor) := by
  simp only [Clean]
  cases hg : s.state.get t with
  | none =>
    refine iff_of_true (fun disk => ?_) (fun a ha => by cases ha)
    have hrun : perform env disk (.updateTicketState now t newState actor) s = (.error (.msg "ticket not found"), s) := by
      show Prog.run (exec env) (Prog.bind (Prog.bind (Prog.ofOption _ (s.state.getTicket t)) _) _) s = _
      rw [TicketStateStore.getTicket, hg]; rfl
    rw [hrun, noEffect_error rfl]; exact .refl s
  | some a =>
    cases hc : a.record.state.canTransitionTo newState with
    | false =>
      refine iff_of_true (fun disk => ?_) (fun a' ha' hc' => by cases ha'; rw [hc] at hc'; cases hc')
      have hrun : perform env disk (.updateTicketState now t newState actor) s =
          (.error (.msg ("unauthorized or invalid transition from " ++ a.record.state.debug ++ " to " ++
            newState.debug)), s) := by
        show Prog.run (exec env) (Prog.bind (Prog.bind (Prog.ofOption _ (s.state.getTicket t)) _) _) s = _
        rw [TicketStateStore.getTicket, hg]
        show Prog.run (exec env) (Prog.bind (if (!a.record.state.canTransitionTo newState) = true then _ else _) _) s = _
        rw [hc]; rfl
      rw [hrun, noEffect_error rfl]; exact .refl s
    | true =>
      rw [single_noEffect_iff henc hsig hU hac h (.statusChanged t newState actor none) now
        (k := fun _ => Call.getTicket t >>= fun ticket => .ofOption (.msg "failed to retrieve updated ticket") ticket)
        (j := fun r => .ret (.ticket r)) ?_ (fun disk x s' hx => run_retrieve _ rfl hx) (fun y s' => ⟨_, _, rfl⟩) ?_]
      · -- the transition is allowed, so only the clock is left
        refine ⟨fun hcl a' _ _ hsp => hcl.1 hsp, fun hcl => ⟨fun hsp => hcl a rfl hc hsp, fun _ => ⟨a, hg, hc⟩⟩⟩
      · intro disk
        obtain ⟨P, hP, hPs⟩ := @update_call env s disk now t newState actor a hg hc
        rw [(perform_read (U := U) hP hPs).1, Prog.run_bind, Prog.run_bind, run_appendTicketEvent]
      · intro disk
        obtain ⟨P, hP, hPs⟩ := @update_call env s disk now t newState actor a hg hc
        exact (perform_read hP hPs).2 (ha disk) (.append _ now disk, s) (List.mem_cons_self ..)

/-- While the clock is not spent, the creation of an absent ticket goes through unless the disk fails. -/
theorem append_creation (h : Sound U s) (hn : ¬ ClockSpent s) {ticket : TicketRecord}
    (hg : s.state.get ticket.id = none) {disk : Disk}
    (ha : Admits env U (.append (importedCreation ticket) ticket.createdAt disk) s) :
    ((∃ o, (disk o).isSome) ∧ ∃ err, err.isDisk = true ∧
      appendTicketEvent env (importedCreation ticket) ticket.createdAt disk s = (.error err, s)) ∨
    ∃ e obj s₁, draft env (importedCreation ticket) ticket.createdAt s = .ok (e, obj) ∧ e ∉ s.graph.events ∧
      appendTicketEvent env (importedCreation ticket) ticket.createdAt disk s = (.ok (e, obj), s₁) ∧
      s₁.graph.events = s.graph.events ++ [e] ∧ Sound U s₁ ∧ Applicable s₁.state (Call.importedStatus ticket) := by
  have hsound := (exec_sound hU _ s ha h).1
  obtain ⟨e, obj, hd, heU, ⟨hw, err, hdk, he⟩ | ⟨store', -, ⟨hsp, -⟩ | ⟨-, g', -, hge, he⟩⟩⟩ :=
    append_outcome henc hsig hU hac h ha
  · exact .inl ⟨⟨obj, hw.2.2⟩, err, hdk, he⟩
  · exact absurd hsp hn
  · have hpay := (draft_ok hd).2.2.2.1
    have hfresh := EventGraph.contains_eq_false.1 (h.fresh hU heU (draft_ok hd).1)
    rcases @applyEvent_cases env s.state _ _ hpay with ⟨-, hok⟩ | ⟨hno, -⟩
    · rw [hok] at he
      simp only [exec, he] at hsound
      refine .inr ⟨e, obj, _, hd, fun hm => hfresh e hm rfl, he, hge, hsound, ?_⟩
      -- the new ticket is open, and an open ticket can move to every state
      refine ⟨create e (e.author.deriveId env.crypto).toHex ticket.id ticket.title ticket.description ticket.priority
        ticket.clientPeerId, ?_, TicketState.open_canTransitionTo _⟩
      rw [get_step, hpay]
      simp [importedCreation, TicketEvent.ticketId, hg, next, initial]
    · exact absurd hg hno

/-- The second append of an import fails without effect on the state before the import only if it does not
fail: the creation is in the graph by then. -/
theorem import_second_iff (h : Sound U s) (hn : ¬ ClockSpent s) {ticket : TicketRecord} {te : TicketEvent} {ts : UInt64}
    {disk : Disk} {e : Event} {obj : SignedObject} {s₁ : TicketEngine} (hd : draft env te ts s = .ok (e, obj))
    (hfresh : e ∉ s.graph.events) (hg : s₁.graph.events = s.graph.events ++ [e]) (hs₁ : Sound U s₁)
    (happ : Applicable s₁.state (Call.importedStatus ticket))
    (ha : Admits env U (.append (Call.importedStatus ticket) ticket.updatedAt disk) s₁) :
    (¬ HasClock s (clockMax - 1) → NoEffect s (appendTicketEvent env (Call.importedStatus ticket) ticket.updatedAt disk s₁)) ∧
    ((∀ o, disk o = none) →
      NoEffect s (appendTicketEvent env (Call.importedStatus ticket) ticket.updatedAt disk s₁) →
      ¬ HasClock s (clockMax - 1)) := by
  rw [← h.spent_after hn hd hg]
  obtain ⟨e₂, obj₂, hd₂, -, ⟨hw, err, hdk, he⟩ | ⟨store', -, ⟨hsp, err, hdk, he⟩ | ⟨hsp, g', -, -, he⟩⟩⟩ :=
    append_outcome henc hsig hU hac hs₁ ha
  · rw [he]
    exact ⟨fun _ => noEffect_disk hdk, fun hnone => absurd hw.2.2 (by simp [hnone])⟩
  · refine ⟨fun hno => absurd hsp hno, fun _ hno _ => ?_⟩
    rw [he, noEffect_error hdk] at hno
    exact hfresh ((hno.events e).1 (by simp [hg]))
  · refine ⟨fun _ => ?_, fun _ _ => hsp⟩
    rcases @applyEvent_cases env s₁.state _ _ (draft_ok hd₂).2.2.2.1 with ⟨-, hok⟩ | ⟨hno, -⟩
    · rw [he, hok]; exact noEffect_ok _
    · exact absurd happ hno

/-- With the clock spent the creation is refused and nothing follows. -/
theorem import_absent_spent (h : Sound U s) (hsp : ClockSpent s) {ticket : TicketRecord}
    (hg : s.state.get ticket.id = none) {disk : Disk}
    (ha : Admits env U (.append (importedCreation ticket) ticket.createdAt disk) s) :
    NoEffect s (perform env disk (.importCanonicalTicket ticket) s) ↔
      NoEffect s (appendTicketEvent env (importedCreation ticket) ticket.createdAt disk s) := by
  rw [import_absent_noEffect hg disk]
  refine noEffect_andThen fun x s' hx => ?_
  obtain ⟨e, obj, -, -, ⟨-, err, -, he⟩ | ⟨store', -, ⟨-, err, -, he⟩ | ⟨hn, -⟩⟩⟩ := append_outcome henc hsig hU hac h ha
  · rw [he] at hx; cases hx
  · rw [he] at hx; cases hx
  · exact absurd hsp hn

/-- An imported ticket that is absent is appended in one or two events. -/
theorem import_absent_noEffect_iff (h : Sound U s) {ticket : TicketRecord} (hg : s.state.get ticket.id = none)
    (ha : ∀ disk, Admitted env U disk (.importCanonicalTicket ticket) s) :
    (∀ disk, NoEffect s (perform env disk (.importCanonicalTicket ticket) s)) ↔
      Clean env s (.importCanonicalTicket ticket) := by
  have ha₁ : ∀ disk, Admits env U (.append (importedCreation ticket) ticket.createdAt disk) s :=
    fun disk => (import_absent hg disk).2 (ha disk) _ (List.mem_cons_self ..)
  have hclean := append_noEffect_iff henc hsig hU hac h ha₁
  simp only [Clean, hg]
  by_cases hsp : ClockSpent s
  · rw [forall_congr' fun disk => import_absent_spent henc hsig hU hac h hsp hg (ha₁ disk), hclean]
    exact ⟨fun hc => ⟨hc.1, fun hn => absurd hsp hn⟩, fun hc => ⟨hc.1, fun hn => absurd hsp hn⟩⟩
  by_cases hopen : ticket.state = .«open»
  · rw [forall_congr' fun disk => import_absent_open hg disk hopen, hclean]
    exact iff_of_true ⟨fun h => absurd h hsp, fun _ => hg⟩ ⟨fun h => absurd h hsp, fun _ hn => absurd hopen hn⟩
  constructor
  · intro hno
    refine ⟨fun h => absurd h hsp, fun _ _ => ?_⟩
    -- a disk without failures is the worst case
    rcases append_creation henc hsig hU hac h hsp hg (ha₁ fun _ => none) with ⟨⟨o, ho⟩, -⟩ |
      ⟨e, obj, s₁, hd, hf, he, hge, hs₁, happ⟩
    · cases ho
    · obtain ⟨hiff, hadm⟩ := import_absent_second hg _ hopen he
      exact (import_second_iff henc hsig hU hac h hsp hd hf hge hs₁ happ (hadm (ha _))).2 (fun _ => rfl) (hiff.1 (hno _))
  · rintro ⟨-, hclk⟩ disk
    rcases append_creation henc hsig hU hac h hsp hg (ha₁ disk) with ⟨-, err, hdk, he⟩ |
      ⟨e, obj, s₁, hd, hf, he, hge, hs₁, happ⟩
    · rw [import_absent_noEffect hg disk, he]; exact noEffect_disk hdk
    · obtain ⟨hiff, hadm⟩ := import_absent_second hg disk hopen he
      exact hiff.2 ((import_second_iff henc hsig hU hac h hsp hd hf hge hs₁ happ (hadm (ha disk))).1 (hclk hsp hopen))

/-- An imported ticket that is present is one append, or none. -/
theorem import_present_noEffect_iff (h : Sound U s) {ticket : TicketRecord} {curr : TicketAggregate}
    (hg : s.state.get ticket.id = some curr) (ha : ∀ disk, Admitted env U disk (.importCanonicalTicket ticket) s) :
    (∀ disk, NoEffect s (perform env disk (.importCanonicalTicket ticket) s)) ↔
      Clean env s (.importCanonicalTicket ticket) := by
  simp only [Clean, hg]
  have hread : ∀ disk, ∃ P, (Mutation.importCanonicalTicket ticket).call env s.policy disk = .act .readState P ∧
      P s.state = (if ticket.revision > curr.record.revision ∧ ticket.state ≠ curr.record.state then
        importStatus ticket disk else .ret ()) >>= fun _ => .ret .done := by
    intro disk
    obtain ⟨P, hcall, hP⟩ := import_call env s.policy disk ticket
    refine ⟨P, hcall, ?_⟩
    rw [hP, TicketStateStore.getTicket, hg]; rfl
  by_cases hc : ticket.revision > curr.record.revision ∧ ticket.state ≠ curr.record.state
  · simp only [hc, ne_eq, not_false_eq_true, forall_true_left]
    simp only [if_pos hc] at hread
    refine single_noEffect_iff henc hsig hU hac h _ _ (k := fun _ => .ret ()) (j := fun _ => .ret .done) (fun disk => ?_)
      (fun _ _ _ _ => ⟨_, _, rfl⟩) (fun _ _ => ⟨_, _, rfl⟩) fun disk => ?_
    · obtain ⟨P, hcall, hP⟩ := hread disk
      rw [(perform_read (U := U) hcall hP).1, Prog.run_bind, importStatus, Prog.run_bind, run_appendTicketEvent]
    · obtain ⟨P, hcall, hP⟩ := hread disk
      exact (perform_read hcall hP).2 (ha disk) (.append _ _ disk, s) (List.mem_cons_self ..)
  · simp only [if_neg hc] at hread
    refine iff_of_true (fun disk => ?_) fun h1 h2 => absurd ⟨h1, h2⟩ hc
    obtain ⟨P, hcall, hP⟩ := hread disk
    rw [(perform_read (U := U) hcall hP).1]
    exact noEffect_ok _

/-- A failed call has no effect exactly in the clean states of the call: whatever the disk does, a failure for
another reason leaves the stored objects, the events, the heads and the state as they were. -/
theorem failed_call_no_effect_iff (h : Reach env U s) (m : Mutation) (ha : ∀ disk, Admitted env U disk m s) :
    (∀ disk err, (perform env disk m s).1 = .error err → err.isDisk = false → Unchanged s (perform env disk m s).2) ↔
      Clean env s m := by
  have hs := h.sound hU
  show (∀ disk, NoEffect s (perform env disk m s)) ↔ _
  -- most calls are one append and a follow-up that returns
  have hsingle : ∀ {β : Type} {te : TicketEvent} {ts : UInt64} {f : Event × SignedObject → β} {j : β → Call Reply},
      (∀ disk, perform env disk m s = Prog.andThen (exec env) j
        (Prog.andThen (exec env) (fun x => .ret (f x)) (appendTicketEvent env te ts disk s))) →
      (∀ y s', ∃ z s'', (j y).run (exec env) s' = (.ok z, s'')) →
      (∀ disk, Admits env U (.append te ts disk) s) →
      ((∀ disk, NoEffect s (perform env disk m s)) ↔ AppendClean env te ts s) :=
    fun hrun hj ha => single_noEffect_iff henc hsig hU hac hs _ _ hrun (fun _ _ _ _ => ⟨_, _, rfl⟩) hj ha
  have hrun : ∀ {β : Type} {te : TicketEvent} {ts : UInt64} {disk : Disk} {k : Event × SignedObject → Call β}
      {k' : β → Call Reply},
      ((Call.appendTicketEvent te ts disk >>= k) >>= k').run (exec env) s =
        Prog.andThen (exec env) k' (Prog.andThen (exec env) k (appendTicketEvent env te ts disk s)) := by
    intro β te ts disk k k'
    rw [Prog.run_bind, Prog.run_bind, run_appendTicketEvent]
  cases m with
  | createTicket uuid now title description priority client =>
    exact single_noEffect_iff henc hsig hU hac hs _ _ (j := fun r => .ret (.ticket r)) (fun _ => hrun)
      (fun _ _ _ hx => run_retrieve _ rfl hx) (fun _ _ => ⟨_, _, rfl⟩) fun disk => ha disk _ (List.mem_cons_self ..)
  | updateTicketState now t newState actor => exact update_noEffect_iff henc hsig hU hac hs ha
  | startShellSession now t sessionId operator transport =>
    exact hsingle (f := fun _ => _) (j := fun r => .ret (.session r)) (fun _ => hrun) (fun _ _ => ⟨_, _, rfl⟩)
      fun disk => ha disk _ (List.mem_cons_self ..)
  | importCanonicalTicket ticket =>
    cases hg : s.state.get ticket.id with
    | none => exact import_absent_noEffect_iff henc hsig hU hac hs hg ha
    | some curr => exact import_present_noEffect_iff henc hsig hU hac hs hg ha
  | applyRemoteObject obj => exact remote_noEffect_iff obj
  | applyRemoteObjects objects =>
    refine iff_of_true (fun disk => ?_) trivial
    rw [perform_applyRemoteObjects]
    exact noEffect_ok _
  | _ =>
    exact hsingle (f := fun _ => ()) (j := fun _ => .ret .done) (fun _ => hrun) (fun _ _ => ⟨_, _, rfl⟩)
      fun disk => ha disk _ (List.mem_cons_self ..)

end Calls

section Sample

/-- A message to a ticket nobody has created. -/
def orphanMessage : ChatMessage :=
  { id := "m1", ticketId := "T-none", senderPeerId := "bob", body := "hello", createdAt := 5, deliveryState := "" }

def orphanTable : EventTable where
  bodies := [⟨[], 5, 1, .ticket (.chatMessageAdded "T-none" "m1" "bob" "hello" 5)⟩]

/-- The message is refused, and stays on disk and in the graph. -/
theorem failed_message_stays :
    let r := perform orphanTable.env diskOk (.addChatMessage 9 orphanMessage) (fresh alice ⟨none⟩)
    IdealIds orphanTable.inPlay ∧ Reach orphanTable.env orphanTable.inPlay (fresh alice ⟨none⟩) ∧
    Admitted orphanTable.env orphanTable.inPlay diskOk (.addChatMessage 9 orphanMessage) (fresh alice ⟨none⟩) ∧
    r.1 = .error (.msg "ticket not found: T-none") ∧ r.2.store.objects.length = 1 ∧ r.2.graph.events.length = 1 ∧
    (fresh alice ⟨none⟩).store.objects = [] ∧ (fresh alice ⟨none⟩).graph.events = [] :=
  ⟨orphanTable.idealIds, reach_fresh _ _, by decide +kernel, by decide +kernel, by decide +kernel, by decide +kernel,
    rfl, rfl⟩

/-- The theorem at a fresh engine and the message. -/
theorem failed_call_no_effect_iff_orphan :
    (∀ disk err,
      (perform (Env.ofTableTotal orphanTable.bodies) disk (.addChatMessage 9 orphanMessage) (fresh alice ⟨none⟩)).1 = .error err →
      err.isDisk = false → Unchanged (fresh alice ⟨none⟩)
        (perform (Env.ofTableTotal orphanTable.bodies) disk (.addChatMessage 9 orphanMessage) (fresh alice ⟨none⟩)).2) ↔
    Clean (Env.ofTableTotal orphanTable.bodies) (fresh alice ⟨none⟩) (.addChatMessage 9 orphanMessage) := by
  refine failed_call_no_effect_iff (Env.ofTableTotal_encodes _) tagCrypto_signs orphanTable.idealIds
    orphanTable.acyclic (reach_fresh _ _) _ ?_
  -- the call is one append, whose event does not depend on the disk
  have hev : ∀ e ∈ events (Env.ofTableTotal orphanTable.bodies) (fresh alice ⟨none⟩)
      (.append (.chatMessageAdded "T-none" "m1" "bob" "hello" 5) 5 diskOk), e ∈ orphanTable.events := by decide +kernel
  have hnil : ∀ (r : Result (Event × SignedObject)) (s : TicketEngine),
      ((Prog.ofExcept r >>= fun _ => Prog.ret ()) >>= fun _ => Prog.ret Reply.done : Call Reply).trace
        (exec (Env.ofTableTotal orphanTable.bodies)) s = [] := by
    intro r s; cases r <;> rfl
  intro disk x hx
  rcases List.mem_cons.1 hx with rfl | hx
  · exact hev
  · exact absurd ((hnil _ _).subst (motive := fun l => x ∈ l) hx) List.not_mem_nil

end Sample

end TicketEngine

end Fortiq
