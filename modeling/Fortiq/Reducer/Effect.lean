/-
Everything one event can do to a store. An event names one ticket: it makes it, changes its aggregate in one of six
ways, or leaves it, and the revision counts the changes. From what `Effect` says of one event follow the frame of the
reducer, the shape of every aggregate it makes, and what a later event can still do to a closed ticket or an ended
session.
-/
import Fortiq.Event.Table
import Fortiq.Reducer.Spec

namespace Fortiq

/-! ## Stores by their tickets -/

theorem TicketStateStore.ext_get {s t : TicketStateStore} (h : ∀ k, s.get k = t.get k) : s = t := by
  cases s; cases t
  exact congrArg TicketStateStore.mk (Std.ExtTreeMap.ext_getElem? h)

namespace TicketReducer

variable {env : Env}

/-! ## The frame of an event -/

/-- An event that leaves the ticket it names leaves the store. -/
theorem step_eq_self {s : TicketStateStore} {e : Event} {T : String} (hT : e.ticketId = some T)
    (h : (step env s e).get T = s.get T) : step env s e = s := by
  refine TicketStateStore.ext_get fun k => ?_
  by_cases hk : k = T
  · rw [hk, h]
  · exact get_step_of_not_about (by simpa [Event.about, hT] using Ne.symm hk)

/-- Events of different tickets commute. -/
theorem step_comm (s : TicketStateStore) {e e' : Event} (h : ∀ T, e.about T = true → e'.about T = false) :
    step env (step env s e) e' = step env (step env s e') e := by
  refine TicketStateStore.ext_get fun k => ?_
  cases hk : e.about k with
  | true =>
    rw [get_step_of_not_about (h k hk)]
    exact get_step_congr (get_step_of_not_about (h k hk)).symm
  | false =>
    rw [get_step_of_not_about hk]
    exact get_step_congr (get_step_of_not_about hk)

/-- An event touches one ticket, all or nothing: it fails and the store is as it was, or nothing changes, or it makes
the ticket it names, or it changes that one and the revision counts it. Events of different tickets commute. -/
theorem apply_event_frame (s : TicketStateStore) (e : Event) :
    (∀ err, (applyEvent env s e).1 = .error err → (applyEvent env s e).2 = s) ∧
    ((applyEvent env s e).1 = .ok () →
      (applyEvent env s e).2 = s ∨
      (∃ T a', e.ticketId = some T ∧ s.get T = none ∧ (applyEvent env s e).2.get T = some a' ∧
        e.creation = some a'.record.identity ∧ a'.record.revision = 1 ∧ a'.record.state = .«open» ∧
        ∀ k, k ≠ T → (applyEvent env s e).2.get k = s.get k) ∨
      (∃ T a a', e.ticketId = some T ∧ s.get T = some a ∧ (applyEvent env s e).2.get T = some a' ∧ a' ≠ a ∧
        (a.record.revision.toNat < 2 ^ 64 - 1 → a'.record.revision.toNat = a.record.revision.toNat + 1) ∧
        a'.record.identity = a.record.identity ∧ ∀ k, k ≠ T → (applyEvent env s e).2.get k = s.get k)) ∧
    ∀ e', (∀ T, e.ticketId = some T → e'.ticketId ≠ some T) →
      (applyEvent env (applyEvent env s e).2 e').2 = (applyEvent env (applyEvent env s e').2 e).2 := by
  refine ⟨fun err h => applyEvent_error h, fun _ => ?_, fun e' hne => ?_⟩
  · cases hT : e.ticketId with
    | none =>
      left
      exact TicketStateStore.ext_get fun k => get_step_of_not_about (by simp [Event.about, hT])
    | some T =>
      have hframe : ∀ k, k ≠ T → (step env s e).get k = s.get k := fun k hk =>
        get_step_of_not_about (by simpa [Event.about, hT] using Ne.symm hk)
      cases hg : s.get T with
      | none =>
        rcases @get_step_absent env _ _ hg e with ⟨-, h⟩ | ⟨title, description, priority, client, hp, h⟩
        · exact .inl (step_eq_self hT (h.trans hg.symm))
        · refine .inr (.inl ⟨T, _, rfl, hg, h, ?_, rfl, rfl, hframe⟩)
          simp [Event.creation, hp, create, TicketRecord.identity]
      | some a =>
        obtain ⟨a', h, ⟨-, rfl⟩ | ⟨te, -, -, ⟨-, rfl⟩ | heff⟩⟩ := @get_step_present env _ _ _ hg e
        · exact .inl (step_eq_self hT (h.trans hg.symm))
        · exact .inl (step_eq_self hT (h.trans hg.symm))
        obtain ⟨hid, rfl | ⟨hrev, -⟩⟩ := heff.touched
        · exact .inl (step_eq_self hT (h.trans hg.symm))
        refine .inr (.inr ⟨T, a, a', rfl, hg, h, ?_, fun hb => ?_, hid, hframe⟩)
        · rintro rfl
          exact absurd hrev (by simp)
        · rw [hrev, UInt64.toNat_add, UInt64.toNat_one, Nat.mod_eq_of_lt (by omega)]
  · refine step_comm s fun T hT => ?_
    have := hne T (by simpa [Event.about] using hT)
    simpa [Event.about] using this

end TicketReducer

/-! ## Well-formed aggregates -/

/-- The number of entries of a ticket. -/
def TicketAggregate.entries (a : TicketAggregate) : Nat :=
  a.messages.length + a.attachments.length + a.shellSessions.length + a.events.length

/-- The event ends a session that the ticket has. -/
def Event.endsSession (k : String) (s : TicketStateStore) (e : Event) : Bool :=
  match e.payload with
  | .ticket (.shellSessionEnded t id _ _) => t = k && (s.listShellSessions k).any fun y => y.id = id
  | _ => false

/-- The first entry of the audit list of a ticket that the event creates. -/
def Event.creationRecord (env : Env) (e : Event) (k : String) : TicketEventRecord where
  id := e.id.toHex
  ticketId := k
  kind := "CREATED"
  actorPeerId := (e.author.deriveId env.crypto).toHex
  timestamp := e.timestamp
  metadata := none

namespace TicketReducer

/-- The events of the list that end a session of the ticket when their turn comes. -/
def endsApplied (env : Env) (k : String) : TicketStateStore → List Event → Nat
  | _, [] => 0
  | s, e :: l => (e.endsSession k s).toNat + endsApplied env k (step env s e) l

theorem endsApplied_append (k : String) (e : Event) : ∀ (l : List Event) (s : TicketStateStore),
    endsApplied env k s (l ++ [e]) = endsApplied env k s l + (e.endsSession k (fold env s l)).toNat
  | [], s => by simp [endsApplied, fold]
  | x :: l, s => by
    rw [List.cons_append, endsApplied, endsApplied, endsApplied_append k e l, Nat.add_assoc]
    rfl

/-- The shape of the aggregate of ticket `k` after the events `seen`, of which `ended` have ended a session of it. -/
structure WellFormed (env : Env) (seen : List Event) (k : String) (ended : Nat) (a : TicketAggregate) : Prop where
  id : a.record.id = k
  messages : ∀ m ∈ a.messages, m.ticketId = k
  attachments : ∀ x ∈ a.attachments, x.ticketId = k
  sessions : ∀ y ∈ a.shellSessions, y.ticketId = k
  audits : ∀ r ∈ a.events, r.ticketId = k
  messageIds : (a.messages.map ChatMessage.id).Nodup
  attachmentIds : (a.attachments.map AttachmentRecord.id).Nodup
  sessionIds : (a.shellSessions.map ShellSessionRecord.id).Nodup
  closed : a.record.closedAt.isSome = true ↔ a.record.state = .closed
  created : ∃ e ∈ seen, e.creates k = true ∧ a.events.head? = some (e.creationRecord env k)
  revision : a.record.revision = .ofNat (a.entries + ended)
  bounded : a.entries + ended ≤ seen.length

/-! ### Lists with ids -/

section Lists

variable {α β : Type} {l : List α} {f : α → β} {x : α}

theorem nodup_map_append_singleton (h : (l.map f).Nodup) (hx : f x ∉ l.map f) : ((l ++ [x]).map f).Nodup := by
  rw [List.map_append]
  exact h.append (List.nodup_singleton _) (by simpa using hx)

theorem forall_mem_append_singleton {P : α → Prop} (h : ∀ y ∈ l, P y) (hx : P x) : ∀ y ∈ l ++ [x], P y := by
  intro y hy
  rcases List.mem_append.1 hy with hy | hy
  · exact h y hy
  · exact List.mem_singleton.1 hy ▸ hx

/-- Where keys are distinct, an element is told by its key. -/
theorem mem_and_key_iff (hn : (l.map f).Nodup) (hx : x ∈ l) {y : α} : (y ∈ l ∧ f y = f x) ↔ y = x := by
  constructor
  · rintro ⟨hy, hkey⟩
    exact List.inj_on_of_nodup_map hn hy hx hkey
  · rintro rfl
    exact ⟨hx, rfl⟩

/-- What an update of one element leaves as it is, it leaves in the whole list. -/
theorem map_updateFirst (p : α → Bool) {g : α → α} (hg : ∀ y, f (g y) = f y) :
    ∀ l : List α, (updateFirst p g l).map f = l.map f
  | [] => rfl
  | y :: l => by
    unfold updateFirst
    split
    · rw [List.map_cons, List.map_cons, hg]
    · rw [List.map_cons, List.map_cons, map_updateFirst p hg l]

end Lists

/-! ### Steps and folds -/

variable {seen : List Event} {k : String} {n : Nat} {a a' : TicketAggregate} {e : Event} {te : TicketEvent}

/-- The event ends a session of the aggregate. -/
def endsIn (a : TicketAggregate) : TicketEvent → Bool
  | .shellSessionEnded _ id _ _ => a.shellSessions.any fun y => y.id = id
  | _ => false

/-- Every change adds an entry or ends a session, and the revision counts it. -/
theorem Effect.counted (h : Effect env e a te a') :
    (a' = a ∧ endsIn a te = false) ∨
    (a'.record.revision = a.record.revision + 1 ∧ a'.entries + (endsIn a te).toNat = a.entries + 1) := by
  cases h with
  | idle h =>
    refine .inl ⟨rfl, ?_⟩
    cases te with
    | shellSessionEnded t id ts result => simpa [endsIn, Idle] using h
    | _ => rfl
  | @ended t id ts result h =>
    have hends : endsIn a (.shellSessionEnded t id ts result) = true := by simpa [endsIn] using h
    have hlen := congrArg List.length (map_updateFirst (f := ShellSessionRecord.id) (fun y => y.id = id)
      (g := fun y => { y with endedAt := some ts, result := result }) (fun _ => rfl) a.shellSessions)
    rw [List.length_map, List.length_map] at hlen
    refine .inr ⟨rfl, ?_⟩
    simp only [hends, TicketAggregate.entries, TicketAggregate.touch, hlen, Bool.toNat_true]
  | _ => exact .inr ⟨rfl, by simp [TicketAggregate.entries, TicketAggregate.touch, endsIn]; omega⟩

/-- The audit list is only appended to. -/
theorem Effect.head (h : Effect env e a te a') {r : TicketEventRecord} (hr : a.events.head? = some r) :
    a'.events.head? = some r := by
  cases h with
  | status | audit => simp [TicketAggregate.touch, List.head?_append, hr]
  | _ => exact hr

theorem WellFormed.effect (h : WellFormed env seen k n a) (heff : Effect env e a te a') (hk : te.ticketId = k) :
    WellFormed env (seen ++ [e]) k (n + (endsIn a te).toNat) a' := by
  have hcreated : ∃ e' ∈ seen ++ [e], e'.creates k = true ∧ a'.events.head? = some (e'.creationRecord env k) := by
    obtain ⟨e', he', hc, hr⟩ := h.created
    exact ⟨e', List.mem_append_left _ he', hc, heff.head hr⟩
  obtain ⟨hrev, hbound⟩ : a'.record.revision = .ofNat (a'.entries + (n + (endsIn a te).toNat)) ∧
      a'.entries + (n + (endsIn a te).toNat) ≤ (seen ++ [e]).length := by
    have hb := h.bounded
    rw [List.length_append, List.length_singleton]
    rcases heff.counted with ⟨rfl, hends⟩ | ⟨hrev, hcount⟩
    · rw [hends]
      exact ⟨h.revision, by simpa using hb.trans (Nat.le_succ _)⟩
    · rw [show a'.entries + (n + (endsIn a te).toNat) = a.entries + n + 1 by omega]
      exact ⟨by rw [hrev, h.revision]; exact (UInt64.ofNat_add _ 1).symm, by omega⟩
  cases heff with
  | idle => exact { h with created := hcreated, revision := hrev, bounded := hbound }
  | @status t actor newState reason hc =>
    refine { h with
      created := hcreated, revision := hrev, bounded := hbound
      audits := forall_mem_append_singleton h.audits hk
      closed := ?_ }
    show (if newState = .closed then some e.timestamp else a.record.closedAt).isSome = true ↔ newState = .closed
    by_cases hns : newState = .closed
    · simp [hns]
    · -- a closed ticket would have stayed closed
      rw [if_neg hns, h.closed]
      refine iff_of_false (fun hst => hns ?_) hns
      rw [hst] at hc
      exact TicketState.eq_closed_of_canTransitionTo hc
  | message hnew =>
    exact { h with
      created := hcreated, revision := hrev, bounded := hbound
      messages := forall_mem_append_singleton h.messages hk
      messageIds := nodup_map_append_singleton h.messageIds hnew }
  | attachment hnew =>
    exact { h with
      created := hcreated, revision := hrev, bounded := hbound
      attachments := forall_mem_append_singleton h.attachments hk
      attachmentIds := nodup_map_append_singleton h.attachmentIds hnew }
  | started hnew =>
    exact { h with
      created := hcreated, revision := hrev, bounded := hbound
      sessions := forall_mem_append_singleton h.sessions hk
      sessionIds := nodup_map_append_singleton h.sessionIds hnew }
  | ended hold =>
    refine { h with created := hcreated, revision := hrev, bounded := hbound, sessions := ?_, sessionIds := ?_ }
    · refine fun y hy => ?_
      have hmem := List.mem_map_of_mem (f := ShellSessionRecord.ticketId) hy
      rw [TicketAggregate.touch, map_updateFirst _ (by exact fun _ => rfl)] at hmem
      obtain ⟨y', hy', heq⟩ := List.mem_map.1 hmem
      exact heq ▸ h.sessions y' hy'
    · rw [TicketAggregate.touch, map_updateFirst _ (by exact fun _ => rfl)]
      exact h.sessionIds
  | audit hnew =>
    exact { h with
      created := hcreated, revision := hrev, bounded := hbound
      audits := forall_mem_append_singleton h.audits hk }

/-- What there is to a ticket that has just been made. -/
theorem wellFormed_create (seen : List Event) {title description client : String} {priority : TicketPriority}
    (hp : e.payload = .ticket (.created k title description priority client)) :
    WellFormed env (seen ++ [e]) k 0
      (create e (e.author.deriveId env.crypto).toHex k title description priority client) where
  id := rfl
  messages := by simp [create]
  attachments := by simp [create]
  sessions := by simp [create]
  audits := by simp [create]
  messageIds := List.nodup_nil
  attachmentIds := List.nodup_nil
  sessionIds := List.nodup_nil
  closed := by simp [create]
  created := ⟨e, by simp, by simp [Event.creates, Event.creation, hp], rfl⟩
  revision := rfl
  bounded := by simp [create, TicketAggregate.entries]

theorem WellFormed.mono (h : WellFormed env seen k n a) (e : Event) : WellFormed env (seen ++ [e]) k n a := by
  obtain ⟨e', he', hc⟩ := h.created
  refine { h with created := ⟨e', List.mem_append_left _ he', hc⟩, bounded := h.bounded.trans ?_ }
  simp

/-- Whether an event ends a session of a ticket is seen from the aggregate. -/
theorem endsSession_eq {s : TicketStateStore} (hp : e.payload = .ticket te) :
    e.endsSession te.ticketId s = (s.get te.ticketId).any fun a => endsIn a te := by
  cases te with
  | shellSessionEnded t id ts result =>
    simp only [Event.endsSession, hp, TicketEvent.ticketId, TicketStateStore.listShellSessions, endsIn]
    cases s.get t <;> simp
  | _ => simp [Event.endsSession, hp, endsIn]

theorem endsSession_of_not_about {s : TicketStateStore} (h : e.about k = false) : e.endsSession k s = false := by
  cases hp : e.payload with
  | custom => simp [Event.endsSession, hp]
  | ticket te =>
    cases te with
    | shellSessionEnded t id ts result =>
      have hne : t ≠ k := by simpa [Event.about, Event.ticketId, hp, TicketEvent.ticketId] using h
      simp [Event.endsSession, hp, hne]
    | _ => simp [Event.endsSession, hp]

theorem endsSession_absent {s : TicketStateStore} (h : s.get k = none) : e.endsSession k s = false := by
  cases hk : e.about k with
  | false => exact endsSession_of_not_about hk
  | true =>
    obtain ⟨te, hp, rfl⟩ := Event.payload_of_about hk
    rw [endsSession_eq hp, h, Option.any_none]

/-- A store of well-formed aggregates; a ticket that is not there has had no session ended. -/
def StoreWellFormed (env : Env) (seen : List Event) (ended : String → Nat) (s : TicketStateStore) : Prop :=
  ∀ k, (s.get k = none → ended k = 0) ∧ ∀ a, s.get k = some a → WellFormed env seen k (ended k) a

theorem StoreWellFormed.step {ended : String → Nat} {s : TicketStateStore} (h : StoreWellFormed env seen ended s)
    (e : Event) :
    StoreWellFormed env (seen ++ [e]) (fun k => ended k + (e.endsSession k s).toNat) (step env s e) := by
  intro k
  beta_reduce
  obtain ⟨hnone, hsome⟩ := h k
  cases hg : s.get k with
  | none =>
    rw [endsSession_absent hg, Bool.toNat_false, Nat.add_zero]
    refine ⟨fun _ => hnone hg, fun a ha => ?_⟩
    rw [hnone hg]
    rcases @get_step_absent env _ _ hg e with ⟨-, habs⟩ | ⟨title, description, priority, client, hp, hmade⟩
    · cases habs.symm.trans ha
    · cases hmade.symm.trans ha
      exact wellFormed_create seen hp
  | some a =>
    obtain ⟨a', hget, hcase⟩ := @get_step_present env _ _ _ hg e
    rw [hget]
    refine ⟨nofun, fun a'' ha => ?_⟩
    cases ha
    rcases hcase with ⟨hk, rfl⟩ | ⟨te, hp, rfl, ⟨href, rfl⟩ | heff⟩
    · rw [endsSession_of_not_about hk]
      exact (hsome _ hg).mono e
    · -- what is refused ends no session
      have hends : endsIn a' te = false := by
        cases te <;> first | rfl | exact href.elim
      rw [endsSession_eq hp, hg, Option.any_some, hends]
      exact (hsome _ hg).mono e
    · rw [endsSession_eq hp, hg, Option.any_some]
      exact (hsome _ hg).effect heff rfl

theorem fold_wellFormed (l : List Event) :
    StoreWellFormed env l (fun k => endsApplied env k TicketStateStore.new l) (fold env TicketStateStore.new l) := by
  induction l using List.reverseRecOn with
  | nil =>
    intro k
    simp [fold, endsApplied]
  | append_singleton l e ih =>
    have hstep := ih.step e
    simp only [endsApplied_append, fold_append]
    exact hstep

/-- Reduced aggregates are well formed: after every sequence of events, in every ticket. The revision counts the
entries and the ended sessions modulo 2^64, and exactly as long as there are fewer events. -/
theorem reduced_well_formed (l : List Event) (k : String) (a : TicketAggregate)
    (h : (fold env TicketStateStore.new l).get k = some a) :
    WellFormed env l k (endsApplied env k TicketStateStore.new l) a ∧
      (l.length < 2 ^ 64 → a.record.revision.toNat = a.messages.length + a.attachments.length + a.shellSessions.length +
        a.events.length + endsApplied env k TicketStateStore.new l) := by
  have hwf := (fold_wellFormed l k).2 a h
  refine ⟨hwf, fun hlen => ?_⟩
  rw [hwf.revision, UInt64.toNat_ofNat', Nat.mod_eq_of_lt (lt_of_le_of_lt hwf.bounded hlen)]
  rfl

namespace EffectSample

/-- A ticket with a message and a session, which is ended twice; then it is closed twice. -/
def table : EventTable where
  bodies :=
    [⟨[], 10, 1, .ticket (.created "T-aaaaaaaa" "printer" "on fire" .high "alice")⟩,
     ⟨[idAt 0], 20, 2, .ticket (.chatMessageAdded "T-aaaaaaaa" "m1" "alice" "still burning" 20)⟩,
     ⟨[idAt 1], 30, 3, .ticket (.shellSessionStarted "T-aaaaaaaa" "s1" "bob" "quic" 30)⟩,
     ⟨[idAt 2], 40, 4, .ticket (.shellSessionEnded "T-aaaaaaaa" "s1" 40 (some "exit 0"))⟩,
     ⟨[idAt 3], 50, 5, .ticket (.shellSessionEnded "T-aaaaaaaa" "s1" 50 none)⟩,
     ⟨[idAt 4], 60, 6, .ticket (.statusChanged "T-aaaaaaaa" .closed "alice" none)⟩,
     ⟨[idAt 5], 70, 7, .ticket (.statusChanged "T-aaaaaaaa" .closed "alice" none)⟩]

/-- The store after the first events of the table. -/
def storeAt (i : Nat) : TicketStateStore := fold table.env TicketStateStore.new (table.events.take i)

/-- The theorem after all of them: seven changes, two of them ends of the session. -/
theorem reduced_well_formed_ended :
    ∃ a, (storeAt 7).get "T-aaaaaaaa" = some a ∧ a.record.revision = 7 ∧
      WellFormed table.env (table.events.take 7) "T-aaaaaaaa" 2 a := by
  obtain ⟨hsome, hrev, hends⟩ : ((storeAt 7).get "T-aaaaaaaa").isSome = true ∧
      ((storeAt 7).get "T-aaaaaaaa").map (fun a => a.record.revision) = some 7 ∧
      endsApplied table.env "T-aaaaaaaa" TicketStateStore.new (table.events.take 7) = 2 := by decide +kernel
  obtain ⟨a, ha⟩ := Option.isSome_iff_exists.1 hsome
  rw [ha] at hrev
  have hwf := (reduced_well_formed (table.events.take 7) "T-aaaaaaaa" a ha).1
  rw [hends] at hwf
  exact ⟨a, ha, Option.some.inj hrev, hwf⟩

end EffectSample

/-! ## Facts that should be final -/

section UpdateFirst

variable {α β : Type} [DecidableEq β] {f : α → β} {g : α → α} {b : β}

/-- Where keys are distinct, the first element with a key is the only one. -/
theorem updateFirst_eq_map : ∀ {l : List α}, (l.map f).Nodup →
    updateFirst (fun z => f z = b) g l = l.map fun z => if f z = b then g z else z
  | [], _ => rfl
  | z :: l, hn => by
    rw [List.map_cons, List.nodup_cons] at hn
    obtain ⟨hz, hn⟩ := hn
    by_cases hb : f z = b
    · have hrest : l.map (fun z => if f z = b then g z else z) = l :=
        (List.map_congr_left fun y hy => if_neg fun h => hz (List.mem_map.2 ⟨y, hy, h.trans hb.symm⟩)).trans (List.map_id' l)
      simp [updateFirst, hb, hrest]
    · simp [updateFirst, hb, updateFirst_eq_map hn]

/-- The element an element of the list has become. -/
theorem mem_updateFirst_iff (hg : ∀ y, f (g y) = f y) {l : List α} (hn : (l.map f).Nodup) {y y' : α} (hy : y ∈ l) :
    (y' ∈ updateFirst (fun z => f z = b) g l ∧ f y' = f y) ↔ y' = if f y = b then g y else y := by
  have hkey : ∀ z, f (if f z = b then g z else z) = f z := fun z => by
    split
    · exact hg z
    · rfl
  rw [updateFirst_eq_map hn, List.mem_map]
  constructor
  · rintro ⟨⟨z, hz, rfl⟩, hzy⟩
    rw [hkey] at hzy
    rw [List.inj_on_of_nodup_map hn hz hy hzy]
  · rintro rfl
    exact ⟨⟨y, hy, rfl⟩, hkey y⟩

end UpdateFirst

/-- What an event makes of a session of the ticket. -/
def sessionAfter (T : String) (e : Event) (y : ShellSessionRecord) : ShellSessionRecord :=
  match e.payload with
  | .ticket (.shellSessionEnded t id ts result) =>
    if t = T ∧ y.id = id then { y with endedAt := some ts, result := result } else y
  | _ => y

theorem Effect.session (h : Effect env e a te a') (hp : e.payload = .ticket te)
    (hn : (a.shellSessions.map ShellSessionRecord.id).Nodup) {y : ShellSessionRecord} (hy : y ∈ a.shellSessions)
    (y' : ShellSessionRecord) : (y' ∈ a'.shellSessions ∧ y'.id = y.id) ↔ y' = sessionAfter te.ticketId e y := by
  have hsame : (y' ∈ a.shellSessions ∧ y'.id = y.id) ↔ y' = y := mem_and_key_iff hn hy
  unfold sessionAfter
  rw [hp]
  cases h with
  | idle hidle =>
    rw [hsame]
    cases te with
    | shellSessionEnded t id ts result =>
      have hne : y.id ≠ id := by
        rintro rfl
        exact hidle (List.mem_map_of_mem hy)
      simp [hne]
    | _ => rfl
  | started hnew =>
    simp only [TicketAggregate.touch, List.mem_append, List.mem_singleton, or_and_right, hsame]
    refine or_iff_left ?_
    rintro ⟨rfl, hid⟩
    have hmem := List.mem_map_of_mem (f := ShellSessionRecord.id) hy
    rw [← hid] at hmem
    exact hnew hmem
  | @ended t id ts result hold =>
    simp only [TicketEvent.ticketId, true_and]
    exact mem_updateFirst_iff (g := fun y => { y with endedAt := some ts, result := result }) (fun _ => rfl) hn hy
  | _ => exact hsame

theorem Effect.closedAt (h : Effect env e a te a') (hp : e.payload = .ticket te) (hc : a.record.state = .closed) :
    a'.record.closedAt = if e.closes te.ticketId then some e.timestamp else a.record.closedAt := by
  cases h with
  | @status t actor newState reason htr =>
    rw [hc] at htr
    obtain rfl := TicketState.eq_closed_of_canTransitionTo htr
    simp [TicketAggregate.touch, Event.closes, hp, TicketEvent.ticketId]
  | idle hidle =>
    cases te with
    | statusChanged => exact hidle.elim
    | _ => simp [Event.closes, hp]
  | _ => simp [Event.closes, hp, TicketAggregate.touch]

theorem sessionAfter_of_not_about (h : e.about k = false) (y : ShellSessionRecord) : sessionAfter k e y = y := by
  unfold sessionAfter
  split
  · rename_i t id _ _ hp
    have hne : t ≠ k := by simpa [Event.about, Event.ticketId, hp, TicketEvent.ticketId] using h
    simp [hne]
  · rfl

variable (env) in
/-- The time of closing and the sessions of a ticket after an event, whatever the event is. -/
theorem step_terminal {s : TicketStateStore} (hg : s.get k = some a)
    (hn : (a.shellSessions.map ShellSessionRecord.id).Nodup) (e : Event) :
    ∃ a', (step env s e).get k = some a' ∧
      (a.record.state = .closed →
        a'.record.closedAt = if e.closes k then some e.timestamp else a.record.closedAt) ∧
      ∀ y ∈ a.shellSessions, ∀ y', (y' ∈ a'.shellSessions ∧ y'.id = y.id) ↔ y' = sessionAfter k e y := by
  obtain ⟨a', hget, ⟨hk, rfl⟩ | ⟨te, hp, rfl, ⟨href, rfl⟩ | heff⟩⟩ := @get_step_present env _ _ _ hg e
  · have hcloses : e.closes k = false := by
      cases hcl : e.closes k with
      | false => rfl
      | true => rw [Event.about_of_closes hcl] at hk; cases hk
    refine ⟨_, hget, fun _ => by simp [hcloses], fun y hy y' => ?_⟩
    rw [sessionAfter_of_not_about hk]
    exact mem_and_key_iff hn hy
  · refine ⟨_, hget, fun hc => ?_, fun y hy y' => ?_⟩
    · cases te with
      | statusChanged t newState actor reason =>
        rw [Refused, hc] at href
        cases newState <;> simp_all [Event.closes]
      | _ => simp [Event.closes, hp]
    · refine (mem_and_key_iff hn hy).trans ?_
      rw [sessionAfter, hp]
      cases te <;> first | rfl | exact href.elim
  · exact ⟨_, hget, heff.closedAt hp, fun y hy y' => heff.session hp hn hy y'⟩

/-- What an event can still change in a ticket of a fold. A time of closing is replaced exactly by a further closing
with another timestamp, and the end of a session exactly by a further end that says something else. -/
theorem terminal_facts_iff (l : List Event) (e : Event) (T : String) (a : TicketAggregate)
    (hg : (fold env TicketStateStore.new l).get T = some a) :
    ∃ a', (step env (fold env TicketStateStore.new l) e).get T = some a' ∧
      (∀ c, a.record.closedAt = some c →
        (a'.record.closedAt = some c ↔ ¬ (e.closes T = true ∧ e.timestamp ≠ c))) ∧
      ∀ y ∈ a.shellSessions, ∀ x, y.endedAt = some x →
        ((∃ y' ∈ a'.shellSessions, y'.id = y.id ∧ y'.endedAt = some x ∧ y'.result = y.result) ↔
          ¬ ∃ ended result, e.payload = .ticket (.shellSessionEnded T y.id ended result) ∧
            ¬ (ended = x ∧ result = y.result)) := by
  have hwf := (fold_wellFormed l T).2 a hg
  obtain ⟨a', hget, hclosed, hsession⟩ := step_terminal env hg hwf.sessionIds e
  refine ⟨a', hget, fun c hc => ?_, fun y hy x hx => ?_⟩
  · have hst : a.record.state = .closed := hwf.closed.1 (by rw [hc]; rfl)
    rw [hclosed hst, hc]
    cases e.closes T <;> simp
  · have hexists : (∃ y' ∈ a'.shellSessions, y'.id = y.id ∧ y'.endedAt = some x ∧ y'.result = y.result) ↔
        (sessionAfter T e y).endedAt = some x ∧ (sessionAfter T e y).result = y.result := by
      constructor
      · rintro ⟨y', hy', hid, hend, hres⟩
        obtain rfl := (hsession y hy y').1 ⟨hy', hid⟩
        exact ⟨hend, hres⟩
      · rintro ⟨hend, hres⟩
        obtain ⟨hmem, hid⟩ := (hsession y hy _).2 rfl
        exact ⟨_, hmem, hid, hend, hres⟩
    rw [hexists, sessionAfter]
    cases hp : e.payload with
    | custom => simp [hx]
    | ticket te =>
      cases te with
      | shellSessionEnded t id ts result =>
        by_cases heq : t = T ∧ y.id = id
        · obtain ⟨rfl, rfl⟩ := heq
          simp
        · refine iff_of_true (by simp [heq, hx]) ?_
          rintro ⟨_, _, hte, _⟩
          injection hte with hte
          injection hte with hT hid
          exact heq ⟨hT, hid.symm⟩
      | _ => simp [hx]

namespace EffectSample

def eventAt (i : Nat) (h : i < table.events.length := by decide +kernel) : Event := table.events[i]

def closedAt (s : TicketStateStore) : Option (Option UInt64) := (s.get "T-aaaaaaaa").map fun a => a.record.closedAt

def ends (s : TicketStateStore) : Option (List (String × Option UInt64 × Option String)) :=
  (s.get "T-aaaaaaaa").map fun a => a.shellSessions.map fun y => (y.id, y.endedAt, y.result)

/-- The theorem for a message that comes again after the ticket is closed. -/
theorem terminal_facts_iff_message :
    closedAt (storeAt 6) = some (some 60) ∧
      ∃ a', (step table.env (storeAt 6) (eventAt 1)).get "T-aaaaaaaa" = some a' ∧ a'.record.closedAt = some 60 := by
  obtain ⟨hsome, hclosed, hother⟩ : ((storeAt 6).get "T-aaaaaaaa").isSome = true ∧ closedAt (storeAt 6) = some (some 60) ∧
      (eventAt 1).closes "T-aaaaaaaa" = false := by decide +kernel
  obtain ⟨a, ha⟩ := Option.isSome_iff_exists.1 hsome
  obtain ⟨a', hget, hc, -⟩ := terminal_facts_iff (table.events.take 6) (eventAt 1) "T-aaaaaaaa" a ha
  have h60 : a.record.closedAt = some 60 := by
    rw [closedAt, ha] at hclosed
    exact Option.some.inj hclosed
  exact ⟨hclosed, a', hget, (hc 60 h60).2 (by simp [hother])⟩

/-- A second closing moves the time of closing, and a second end of the session replaces its end and its result. -/
theorem terminal_facts_rewritten :
    (closedAt (storeAt 6) = some (some 60) ∧ closedAt (step table.env (storeAt 6) (eventAt 6)) = some (some 70)) ∧
      ends (storeAt 4) = some [("s1", some 40, some "exit 0")] ∧
      ends (step table.env (storeAt 4) (eventAt 4)) = some [("s1", some 50, none)] := by decide +kernel

end EffectSample

end TicketReducer

end Fortiq
