/-
When a ticket was last active (`list_tickets` and `get_active_ticket` of
`fortiq-core/src/reducer/ticket.rs`, and the calls of `fortiq-core/src/engine.rs` that stamp events).
`updated_at` is the timestamp of one of the events of the ticket. An event is stamped by the clock, by its caller, by a
peer or by an imported record, and no branch of the reducer compares the stamp with the one it replaces: a call moves
`updated_at` back exactly if its event is new to the ticket, is kept, and has an earlier stamp.
-/
import Fortiq.Engine.Failure
import Fortiq.Reducer.Effect

namespace Fortiq

open KeyOrder

/-! ## Records in the order of their updates -/

namespace TicketStateStore

variable {s : TicketStateStore}

theorem mem_values {a : TicketAggregate} : a ∈ s.tickets.values ↔ ∃ k, s.get k = some a := by
  have hvalues : s.tickets.values = s.tickets.toList.map Prod.snd := by
    obtain ⟨⟨⟨t⟩⟩⟩ := s
    induction t using Quot.ind with
    | mk t =>
      change t.inner.values = (Std.DTreeMap.Internal.Impl.Const.toList t.inner).map Prod.snd
      rw [Std.DTreeMap.Internal.Impl.values_eq_map_snd, Std.DTreeMap.Internal.Impl.Const.toList_eq_toListModel_map,
        List.map_map]
      rfl
  rw [hvalues, List.mem_map]
  constructor
  · rintro ⟨⟨k, b⟩, hmem, rfl⟩
    exact ⟨k, Std.ExtTreeMap.mem_toList_iff_getElem?_eq_some.1 hmem⟩
  · rintro ⟨k, hk⟩
    exact ⟨(k, a), Std.ExtTreeMap.mem_toList_iff_getElem?_eq_some.2 hk, rfl⟩

theorem mem_listTickets {f : Option TicketState} {r : TicketRecord} :
    r ∈ s.listTickets f ↔ (∃ k a, s.get k = some a ∧ a.record = r) ∧ ∀ st, f = some st → r.state = st := by
  simp only [listTickets, mem_keySort, List.mem_filter, List.mem_map, mem_values]
  refine and_congr ?_ ?_
  · constructor
    · rintro ⟨a, ⟨k, hk⟩, rfl⟩
      exact ⟨k, a, hk, rfl⟩
    · rintro ⟨k, a, hk, rfl⟩
      exact ⟨a, ⟨k, hk⟩, rfl⟩
  · cases f <;> simp

theorem listTickets_pairwise (s : TicketStateStore) (f : Option TicketState) :
    (s.listTickets f).Pairwise fun x y => y.updatedAt ≤ x.updatedAt := by
  refine (keySort_pairwise _ _).imp fun {x y} hxy => ?_
  obtain hlt | ⟨heq, -⟩ := Prod.Lex.toLex_le_toLex.1 hxy
  · exact UInt64.le_iff_toNat_le.2 (OrderDual.toDual_lt_toDual.1 hlt).le
  · exact UInt64.le_iff_toNat_le.2 (OrderDual.toDual_inj.1 heq).ge

/-- No ticket that permits work has been updated after the active one. -/
theorem getActiveTicket_latest {r : TicketRecord} (h : s.getActiveTicket = some r) :
    (∃ k a, s.get k = some a ∧ a.record = r) ∧ r.state.permitsWork = true ∧
      ∀ k a, s.get k = some a → a.record.state.permitsWork = true → a.record.updatedAt ≤ r.updatedAt := by
  obtain ⟨hr, as, bs, hl, has⟩ := List.find?_eq_some_iff_append.1 h
  have hmem : r ∈ s.listTickets none := by rw [hl]; simp
  refine ⟨(mem_listTickets.1 hmem).1, by simpa using hr, fun k a hk hwork => ?_⟩
  have ha : a.record ∈ s.listTickets none := mem_listTickets.2 ⟨⟨k, a, hk, rfl⟩, by simp⟩
  have hsorted := s.listTickets_pairwise none
  rw [hl] at ha hsorted
  rcases List.mem_append.1 ha with ha | ha
  · exact absurd hwork (by simpa using has _ ha)
  · rcases List.mem_cons.1 ha with heq | ha
    · rw [heq]; exact UInt64.le_refl _
    · exact (List.pairwise_cons.1 (List.pairwise_append.1 hsorted).2.1).1 _ ha

end TicketStateStore

/-! ## Where the time comes from -/

namespace TicketReducer

variable {env : Env} {s : TicketStateStore} {T : String}

/-- An event leaves the time of a ticket as it is, or is about the ticket and stamps it. -/
theorem get_step_updatedAt {e : Event} {a' : TicketAggregate} (h : (step env s e).get T = some a') :
    (∃ a, s.get T = some a ∧ a'.record.updatedAt = a.record.updatedAt) ∨
      e.about T = true ∧ a'.record.updatedAt = e.timestamp := by
  cases hg : s.get T with
  | none =>
    obtain ⟨-, hnone⟩ | ⟨_, _, _, _, hp, hnew⟩ := @get_step_absent env _ _ hg e
    · rw [hnone] at h; cases h
    · rw [hnew] at h
      cases h
      exact .inr ⟨Event.about_of_creates (by simp [Event.creates, Event.creation, hp]), rfl⟩
  | some a =>
    obtain ⟨a'', hget, ⟨-, rfl⟩ | ⟨te, hp, hT, ⟨-, rfl⟩ | heff⟩⟩ := @get_step_present env _ _ _ hg e
    · rw [hget] at h; cases h; exact .inl ⟨_, rfl, rfl⟩
    · rw [hget] at h; cases h; exact .inl ⟨_, rfl, rfl⟩
    · rw [hget] at h
      cases h
      obtain ⟨-, rfl | ⟨-, hts⟩⟩ := heff.touched
      · exact .inl ⟨_, rfl, rfl⟩
      · exact .inr ⟨by simp [Event.about, Event.ticketId, hp, hT], hts⟩

/-- The time of a ticket is that of one of its events. -/
theorem fold_updatedAt : ∀ (l : List Event) (s : TicketStateStore) {a : TicketAggregate},
    (fold env s l).get T = some a →
    (∃ a₀, s.get T = some a₀ ∧ a.record.updatedAt = a₀.record.updatedAt) ∨
      ∃ e ∈ l, e.about T = true ∧ a.record.updatedAt = e.timestamp
  | [], s, a, h => .inl ⟨a, h, rfl⟩
  | e :: l, s, a, h => by
    obtain ⟨a₁, ha₁, heq⟩ | ⟨e', he', habout, hts⟩ := fold_updatedAt l (step env s e) h
    · obtain ⟨a₀, ha₀, heq₀⟩ | ⟨habout, hts⟩ := get_step_updatedAt ha₁
      · exact .inl ⟨a₀, ha₀, heq.trans heq₀⟩
      · exact .inr ⟨e, List.mem_cons_self, habout, heq.trans hts⟩
    · exact .inr ⟨e', List.mem_cons_of_mem _ he', habout, hts⟩

/-- An event that is about something new stamps the ticket. -/
theorem Effect.stamped {e : Event} {a a' : TicketAggregate} {te : TicketEvent} (h : Effect env e a te a')
    (hnew : ¬ Idle a te) : a'.record.updatedAt = e.timestamp := by
  cases h with
  | idle hidle => exact absurd hidle hnew
  | _ => rfl

theorem Effect.idle_eq {e : Event} {a a' : TicketAggregate} {te : TicketEvent} (h : Effect env e a te a')
    (hidle : Idle a te) : a' = a := by
  cases h with
  | idle => rfl
  | status => exact hidle.elim
  | ended hmem => exact absurd hmem hidle
  | _ => exact absurd hidle ‹_›

end TicketReducer

/-! ## What a call makes of it -/

/-- The event that a local mutation appends to a ticket that is there, and its timestamp. -/
def Mutation.entry (a : TicketAggregate) : Mutation → Option (TicketEvent × UInt64)
  | importCanonicalTicket ticket =>
    if ticket.revision > a.record.revision ∧ ticket.state ≠ a.record.state then
      some (Call.importedStatus ticket, ticket.updatedAt)
    else none
  | m => m.appends.head?

theorem Mutation.ticketId_of_entry {m : Mutation} {a : TicketAggregate} {te : TicketEvent} {ts : UInt64} {T : String}
    (h : m.entry a = some (te, ts)) (hT : m.ticketId = some T) : te.ticketId = T := by
  have hmem : (te, ts) ∈ m.appends := by
    cases m with
    | importCanonicalTicket ticket =>
      simp only [entry] at h
      split_ifs at h
      cases h
      simp [appends]
    | _ => exact List.mem_of_mem_head? h
  rw [Mutation.ticketId_of_mem_appends hmem] at hT
  exact Option.some.inj hT

namespace TicketEngine

variable {env : Env} {U : Set Event} {s : TicketEngine} {T : String} {a : TicketAggregate}

/-- An event can be made and stored, and the graph takes it. -/
def Persists (env : Env) (disk : Disk) (te : TicketEvent) (ts : UInt64) (s : TicketEngine) : Prop :=
  ∃ e obj, draft env te ts s = .ok (e, obj) ∧ (s.store.put env.crypto disk obj).1.isOk = true ∧
    (s.graph.insert e).1 = .ok ()

/-- An event changes a ticket: it is not refused, it is about something the ticket does not have yet, and it is kept. -/
def Changes (env : Env) (disk : Disk) (te : TicketEvent) (ts : UInt64) (s : TicketEngine) (a : TicketAggregate) : Prop :=
  ¬ TicketReducer.Refused a te ∧ ¬ TicketReducer.Idle a te ∧ Persists env disk te ts s

/-- A local mutation has something to say of a ticket, under a timestamp. -/
def Stamps (env : Env) (disk : Disk) (m : Mutation) (s : TicketEngine) (T : String) (a : TicketAggregate)
    (ts : UInt64) : Prop :=
  m.ticketId = some T ∧ ∃ te, m.entry a = some (te, ts) ∧ Changes env disk te ts s a

/-- An append stamps its ticket if it changes it, and leaves it otherwise. -/
theorem append_updatedAt {te : TicketEvent} (hg : s.state.get te.ticketId = some a) (ts : UInt64) (disk : Disk) :
    ∃ a', (appendTicketEvent env te ts disk s).2.state.get te.ticketId = some a' ∧
      (Changes env disk te ts s a ∧ a'.record.updatedAt = ts ∨ ¬ Changes env disk te ts s a ∧ a' = a) := by
  rcases append_cases env te ts disk s with
    ⟨err, hd, he⟩ | ⟨e, obj, hd, ⟨err, hput, he⟩ | ⟨store', hput, ⟨err, hins, he⟩ | ⟨g', hins, he⟩⟩⟩
  · refine ⟨a, by rw [he, hg], .inr ⟨?_, rfl⟩⟩
    rintro ⟨-, -, e, obj, hd', -⟩
    rw [hd] at hd'; cases hd'
  · refine ⟨a, by rw [he, hg], .inr ⟨?_, rfl⟩⟩
    rintro ⟨-, -, e, obj, hd', hput', -⟩
    rw [hd] at hd'; cases hd'
    rw [hput] at hput'; cases hput'
  · refine ⟨a, by rw [he, hg], .inr ⟨?_, rfl⟩⟩
    rintro ⟨-, -, e, obj, hd', -, hins'⟩
    rw [hd] at hd'; cases hd'
    rw [hins] at hins'; cases hins'
  · have hpayload : e.payload = .ticket te := (Event.new_ok hd).2.2.2.1
    rw [he]
    obtain ⟨a', hget, ⟨habout, -⟩ | ⟨te', hp', -, hcase⟩⟩ := @TicketReducer.get_step_present env _ _ _ hg e
    · simp [Event.about, Event.ticketId, hpayload] at habout
    · rw [hpayload] at hp'
      cases hp'
      refine ⟨a', hget, ?_⟩
      rcases hcase with ⟨href, rfl⟩ | heff
      · exact .inr ⟨fun h => h.1 href, rfl⟩
      · by_cases hidle : TicketReducer.Idle a te
        · exact .inr ⟨fun h => h.2.1 hidle, heff.idle_eq hidle⟩
        · refine .inl ⟨⟨heff.not_refused, hidle, e, obj, hd, by rw [hput]; rfl, by rw [hins]⟩, ?_⟩
          rw [heff.stamped hidle]
          exact (Event.new_ok hd).2.1

/-- What follows an append, and only reads, leaves the tickets to it. -/
theorem run_append_state {te : TicketEvent} {ts : UInt64} {disk : Disk} {β : Type}
    {k : Result (Event × SignedObject) → Call β} (hk : ∀ r s', ((k r).run (exec env) s').2.state = s'.state) :
    ((Prog.act (.append te ts disk) k).run (exec env) s).2.state = (appendTicketEvent env te ts disk s).2.state :=
  hk _ _

theorem retrieve_state {β : Type} (t : String) (err : Error) (f : TicketRecord → β)
    (s : TicketEngine) : (((Call.getTicket t >>= fun ticket => .ofOption err ticket) >>= fun r => pure (f r)).run
      (exec env) s).2.state = s.state := by
  show ((Prog.ofOption err (s.state.getTicket t) >>= fun r => (pure (f r) : Call β)).run (exec env) s).2.state = s.state
  cases s.state.getTicket t <;> rfl

/-- On a ticket that is there, a local mutation comes to its one event. -/
theorem perform_entry (hg : s.state.get T = some a) (disk : Disk) {m : Mutation} (hm : m.isLocal = true)
    (hT : m.ticketId = some T) :
    (perform env disk m s).2.state =
      (m.entry a).elim s.state fun x => (appendTicketEvent env x.1 x.2 disk s).2.state := by
  cases m with
  | createTicket uuid now title description priority client =>
    refine run_append_state fun r s' => ?_
    cases r with
    | error err => rfl
    | ok x => exact retrieve_state _ _ _ s'
  | updateTicketState now t newState actor =>
    cases hT
    cases hc : a.record.state.canTransitionTo newState with
    | true =>
      obtain ⟨P, hcall, hP⟩ := @update_call env s disk now T newState actor a hg hc
      rw [(@perform_read env ∅ s disk _ P _ hcall hP).1]
      refine run_append_state fun r s' => ?_
      cases r with
      | error err => rfl
      | ok x => exact retrieve_state _ _ _ s'
    | false =>
      -- the policy refuses what the reducer would refuse
      have happ : ¬ TicketReducer.Applicable s.state (.statusChanged T newState actor none) := by
        rw [@TicketReducer.applicable_of_some s.state (.statusChanged T newState actor none) a hg]
        exact fun h => h hc
      refine Eq.trans ?_ (append_refused happ now disk).symm
      show ((Prog.bind (Prog.bind (Prog.ofOption _ (s.state.getTicket T)) _) _).run (exec env) s).2.state = _
      rw [TicketStateStore.getTicket, hg]
      show ((Prog.bind (if (!a.record.state.canTransitionTo newState) = true then _ else _) _).run (exec env) s).2.state = _
      rw [hc]
      rfl
  | addChatMessage now msg => exact run_append_state fun r _ => by cases r <;> rfl
  | addAttachment now att => exact run_append_state fun r _ => by cases r <;> rfl
  | recordEvent uuid now t kind actor metadata => exact run_append_state fun r _ => by cases r <;> rfl
  | startShellSession => exact run_append_state fun r _ => by cases r <;> rfl
  | endShellSession => exact run_append_state fun r _ => by cases r <;> rfl
  | importCanonicalTicket ticket =>
    cases hT
    obtain ⟨P, hcall, hP⟩ := import_call env s.policy disk ticket
    rw [(@perform_read env ∅ s disk _ P _ hcall (hP s.state)).1]
    simp only [TicketStateStore.getTicket, hg, Option.map_some, Mutation.entry]
    split_ifs with hnewer
    · exact run_append_state fun r _ => by cases r <;> rfl
    · rfl
  | applyRemoteObject | applyRemoteObjects => cases hm

/-- A local mutation leaves a ticket as it is, or stamps it. -/
theorem perform_updatedAt (hg : s.state.get T = some a) (disk : Disk) {m : Mutation} (hm : m.isLocal = true) :
    ∃ a', (perform env disk m s).2.state.get T = some a' ∧
      ((∃ ts, Stamps env disk m s T a ts ∧ a'.record.updatedAt = ts) ∨ (∀ ts, ¬ Stamps env disk m s T a ts) ∧ a' = a) := by
  by_cases hT : m.ticketId = some T
  · rw [perform_entry hg disk hm hT]
    cases hentry : m.entry a with
    | none =>
      refine ⟨a, hg, .inr ⟨?_, rfl⟩⟩
      rintro ts ⟨-, te, he, -⟩
      rw [hentry] at he; cases he
    | some x =>
      obtain ⟨te, ts⟩ := x
      obtain rfl : te.ticketId = T := m.ticketId_of_entry hentry hT
      obtain ⟨a', hget, ⟨hch, hts⟩ | ⟨hno, rfl⟩⟩ := @append_updatedAt env s a te hg ts disk
      · exact ⟨a', hget, .inl ⟨ts, ⟨hT, te, hentry, hch⟩, hts⟩⟩
      · refine ⟨_, hget, .inr ⟨?_, rfl⟩⟩
        rintro ts' ⟨-, te', he, hch⟩
        rw [hentry] at he; cases he
        exact hno hch
  · refine ⟨a, (perform_get_of_ne hm hT).trans hg, .inr ⟨fun ts h => hT h.1, rfl⟩⟩

/-- What `updated_at` says in a reachable engine. It is at least `created_at` where no event of the ticket is stamped
before it, and a local mutation keeps it from going back exactly if what it has to say of the ticket is stamped no
earlier; tickets are listed, and the active one is chosen, by it. -/
theorem updatedAt_monotone_iff (hU : IdealIds U) (h : Reach env U s) :
    (∀ T a, s.state.get T = some a →
      (∀ e ∈ s.graph.events, e.about T = true → a.record.createdAt ≤ e.timestamp) →
      a.record.createdAt ≤ a.record.updatedAt) ∧
    (∀ disk m, m.isLocal = true → ∀ T a, s.state.get T = some a →
      ∃ a', (perform env disk m s).2.state.get T = some a' ∧
        (a.record.updatedAt ≤ a'.record.updatedAt ↔ ∀ ts, Stamps env disk m s T a ts → a.record.updatedAt ≤ ts)) ∧
    (∀ f, (s.state.listTickets f).Pairwise fun x y => y.updatedAt ≤ x.updatedAt) ∧
    ∀ r, s.state.getActiveTicket = some r → r.state.permitsWork = true ∧
      ∀ T a, s.state.get T = some a → a.record.state.permitsWork = true → a.record.updatedAt ≤ r.updatedAt := by
  refine ⟨fun T a hg hstamps => ?_, fun disk m hm T a hg => ?_, s.state.listTickets_pairwise, fun r hr => ?_⟩
  · have hstate : s.state = TicketReducer.replay env s.graph.events := (h.synced hU).trans (h.sound hU).reduce_eq
    rw [hstate] at hg
    obtain ⟨a₀, ha₀, -⟩ | ⟨e, he, habout, hts⟩ := TicketReducer.fold_updatedAt _ _ hg
    · simp at ha₀
    · rw [hts]
      exact hstamps e ((mem_keySort _).1 he) habout
  · obtain ⟨a', hg', ⟨ts, hts, rfl⟩ | ⟨hno, rfl⟩⟩ := @perform_updatedAt env s T a hg disk m hm
    · refine ⟨a', hg', fun hle ts' hts' => ?_, fun hle => hle _ hts⟩
      obtain ⟨-, te, he, -⟩ := hts
      obtain ⟨-, te', he', -⟩ := hts'
      rw [he] at he'
      cases he'
      exact hle
    · exact ⟨_, hg', fun _ ts hts => absurd hts (hno ts), fun _ => UInt64.le_refl _⟩
  · exact (TicketStateStore.getActiveTicket_latest hr).2

section Sample

/-- Two tickets, and a message for the second that a peer stamps before both. -/
def backTable : EventTable where
  bodies :=
    [⟨[], 90, 1, .ticket (.created "T-bbbbbbbb" "screen" "dark" .high "alice")⟩,
     ⟨[idAt 0], 100, 2, .ticket (.created "T-aaaaaaaa" "printer" "on fire" .high "alice")⟩,
     ⟨[idAt 1], 50, 3, .ticket (.chatMessageAdded "T-aaaaaaaa" "m1" "bob" "hello" 50)⟩]

def backMessage : ChatMessage :=
  { id := "m1", ticketId := "T-aaaaaaaa", senderPeerId := "bob", body := "hello", createdAt := 50,
    deliveryState := "DELIVERED" }

def backCreated : Reached backTable :=
  ((Reached.start backTable).after (.createTicket "bbbbbbbb" 90 "screen" "dark" .high "alice")).after
    (.createTicket "aaaaaaaa" 100 "printer" "on fire" .high "alice")

/-- The message is handled at 200. -/
def backTaken : Reached backTable := backCreated.after (.addChatMessage 200 backMessage)

def times (s : TicketEngine) (T : String) : Option (UInt64 × UInt64) :=
  (s.state.get T).map fun a => (a.record.createdAt, a.record.updatedAt)

/-- In the sample the theorem says why the time goes back: the message has something to say of the ticket, under an
earlier stamp. -/
theorem updatedAt_monotone_iff_back :
    ∃ a a', backCreated.engine.state.get "T-aaaaaaaa" = some a ∧ backTaken.engine.state.get "T-aaaaaaaa" = some a' ∧
      a.record.updatedAt = 100 ∧ a'.record.updatedAt = 50 ∧
      ∃ ts, Stamps backTable.env diskOk (.addChatMessage 200 backMessage) backCreated.engine "T-aaaaaaaa" a ts ∧ ts < 100 := by
  have hbefore : times backCreated.engine "T-aaaaaaaa" = some (100, 100) := by decide +kernel
  have hafter : times backTaken.engine "T-aaaaaaaa" = some (100, 50) := by decide +kernel
  obtain ⟨a, ha, hta⟩ := Option.map_eq_some_iff.1 hbefore
  obtain ⟨-, hcall, -⟩ := updatedAt_monotone_iff backTable.idealIds backCreated.reach
  obtain ⟨a', ha', hiff⟩ := hcall diskOk (.addChatMessage 200 backMessage) rfl _ _ ha
  obtain ⟨a'', ha'', hta'⟩ := Option.map_eq_some_iff.1 hafter
  obtain rfl : a' = a'' := Option.some.inj (ha'.symm.trans ha'')
  have h100 : a.record.updatedAt = 100 := congrArg Prod.snd hta
  have h50 : a'.record.updatedAt = 50 := congrArg Prod.snd hta'
  refine ⟨a, a', ha, ha'', h100, h50, ?_⟩
  rw [h100, h50] at hiff
  have hearlier : ¬ ∀ ts, Stamps backTable.env diskOk (.addChatMessage 200 backMessage) backCreated.engine "T-aaaaaaaa" a ts →
      100 ≤ ts := fun hall => absurd (hiff.2 hall) (by decide)
  simp only [not_forall, exists_prop, UInt64.not_le] at hearlier
  exact hearlier

/-- The message moves the time of the last update back, behind the creation, and the other ticket becomes the active
one although it has not been touched since. -/
theorem updatedAt_goes_back :
    times backCreated.engine "T-aaaaaaaa" = some (100, 100) ∧ times backTaken.engine "T-aaaaaaaa" = some (100, 50) ∧
      (perform backTable.env diskOk (.addChatMessage 200 backMessage) backCreated.engine).1.isOk = true ∧
      (backCreated.engine.state.getActiveTicket).map TicketRecord.id = some "T-aaaaaaaa" ∧
      (backTaken.engine.state.getActiveTicket).map TicketRecord.id = some "T-bbbbbbbb" := by decide +kernel

end Sample

end TicketEngine

end Fortiq
