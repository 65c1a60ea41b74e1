/-
What one event does to one ticket, and what a fold of events does. An event touches only the ticket
it names: `get_step` says what, by the transition `next` of one aggregate, and `Effect` says once all
that an applied event can do to an aggregate; everything else about the reducer follows from the two.
Over a fold, a ticket exists when some event creates it, carries the identity of the first event that
does, and is closed when some event closes it after its creation; so on the key order existence,
identity and closure are facts about the set of events.
-/
import Fortiq.Event.Invariant
import Fortiq.Reducer.Basic
import Fortiq.Lib.Replay

namespace Fortiq

open KeyOrder

/-! ## The store as a map -/

namespace TicketStateStore

variable {s t : TicketStateStore}

@[simp] theorem get_new (k : String) : new.get k = none := by simp [get, new]

@[simp] theorem get_set_self (s : TicketStateStore) (k : String) (a : TicketAggregate) : (s.set k a).get k = some a := by
  simp [get, set]

theorem get_set_of_ne (s : TicketStateStore) {k l : String} (a : TicketAggregate) (h : l ≠ k) :
    (s.set k a).get l = s.get l := by
  simp [get, set, Std.ExtTreeMap.getElem?_insert, h.symm]

theorem updateTicket_none {t : String} (hg : s.get t = none) (f : TicketAggregate → Result TicketAggregate) :
    s.updateTicket t f = (.error (.msg ("ticket not found: " ++ t)), s) := by
  unfold updateTicket
  rw [hg]

theorem updateTicket_some {t : String} {agg : TicketAggregate} (hg : s.get t = some agg)
    (f : TicketAggregate → Result TicketAggregate) :
    s.updateTicket t f = match f agg with
      | .ok agg' => (.ok (), s.set t agg')
      | .error err => (.error err, s) := by
  simp only [updateTicket, hg]
  cases f agg <;> rfl

end TicketStateStore

/-! ## The transition of one aggregate -/

/-- What a ticket is created with and keeps. -/
structure TicketIdentity where
  id : String
  title : String
  description : String
  priority : TicketPriority
  clientPeerId : String
  createdAt : UInt64
deriving DecidableEq

def TicketRecord.identity (r : TicketRecord) : TicketIdentity :=
  ⟨r.id, r.title, r.description, r.priority, r.clientPeerId, r.createdAt⟩

namespace Event

/-- The identity a creation event gives its ticket. -/
def creation (e : Event) : Option TicketIdentity :=
  match e.payload with
  | .ticket (.created t title description priority client) => some ⟨t, title, description, priority, client, e.timestamp⟩
  | _ => none

/-- The event creates the ticket. -/
def creates (T : String) (e : Event) : Bool := e.creation.any fun i => i.id = T

/-- The event moves the ticket to `closed`. -/
def closes (T : String) (e : Event) : Bool :=
  match e.payload with
  | .ticket (.statusChanged t .closed _ _) => t = T
  | _ => false

/-- The event is about the ticket. -/
def about (T : String) (e : Event) : Bool := e.ticketId = some T

variable {e : Event} {T : String}

theorem payload_of_about (h : e.about T = true) : ∃ te, e.payload = .ticket te ∧ te.ticketId = T := by
  cases hp : e.payload with
  | custom => simp [about, ticketId, hp] at h
  | ticket te => exact ⟨te, rfl, by simpa [about, ticketId, hp] using h⟩

theorem about_of_creates (h : e.creates T = true) : e.about T = true := by
  unfold creates creation at h
  split at h
  · rename_i hp
    simpa [about, ticketId, hp, TicketEvent.ticketId] using h
  · cases h

theorem about_of_closes (h : e.closes T = true) : e.about T = true := by
  unfold closes at h
  split at h
  · rename_i t _ _ hp
    simpa [about, ticketId, hp, TicketEvent.ticketId] using h
  · cases h

end Event

namespace TicketReducer

variable (env : Env)

/-- The change of an existing aggregate; a second creation is refused. -/
def update (event : Event) : TicketEvent → TicketAggregate → Result TicketAggregate
  | .created t _ _ _ _, _ => .error (.msg ("ticket already exists: " ++ t))
  | .statusChanged t newState _ reason, agg =>
    changeStatus event (event.author.deriveId env.crypto).toHex t newState reason agg
  | .chatMessageAdded t m sender body ts, agg => addMessage event t m sender body ts agg
  | .attachmentAdded t a sender file size sha path ts, agg => addAttachment event t a sender file size sha path ts agg
  | .shellSessionStarted t s op tr ts, agg => startSession event t s op tr ts agg
  | .shellSessionEnded _ s ts r, agg => endSession event s ts r agg
  | .customAudit t i kind actor data ts, agg => addAudit event t i kind actor data ts agg

/-- The aggregate of a ticket that does not exist: only a creation makes one. -/
def initial (event : Event) : TicketEvent → Option TicketAggregate
  | .created t title description priority client =>
    some (create event (event.author.deriveId env.crypto).toHex t title description priority client)
  | _ => none

/-- The transition of one aggregate. -/
def next (event : Event) (te : TicketEvent) : Option TicketAggregate → Option TicketAggregate
  | none => initial env event te
  | some agg => match update env event te agg with
    | .ok agg' => some agg'
    | .error _ => some agg

variable {env}

/-- `applyEvent` by whether the ticket exists. -/
theorem applyEvent_ticket {s : TicketStateStore} {e : Event} {te : TicketEvent} (h : e.payload = .ticket te) :
    applyEvent env s e =
      match s.get te.ticketId with
      | none => match initial env e te with
        | some agg => (.ok (), s.set te.ticketId agg)
        | none => (.error (.msg ("ticket not found: " ++ te.ticketId)), s)
      | some agg => match update env e te agg with
        | .ok agg' => (.ok (), s.set te.ticketId agg')
        | .error err => (.error err, s) := by
  unfold applyEvent
  rw [h]
  cases hg : s.get te.ticketId with
  | none =>
    cases te with
    | created t _ _ _ _ => exact if_neg (by simpa [TicketEvent.ticketId] using hg)
    | _ => exact TicketStateStore.updateTicket_none hg _
  | some agg =>
    cases te with
    | created t _ _ _ _ => exact if_pos (Option.isSome_iff_exists.2 ⟨agg, hg⟩)
    | _ => exact TicketStateStore.updateTicket_some hg _

theorem applyEvent_custom {s : TicketStateStore} {e : Event} {n : String} {d : List UInt8}
    (h : e.payload = .custom n d) : applyEvent env s e = (.ok (), s) := by
  unfold applyEvent; rw [h]

/-- A failed application leaves the store as it was. -/
theorem applyEvent_error {s : TicketStateStore} {e : Event} {err : Error} (h : (applyEvent env s e).1 = .error err) :
    (applyEvent env s e).2 = s := by
  cases hp : e.payload with
  | custom n d => rw [applyEvent_custom hp]
  | ticket te =>
    rw [applyEvent_ticket hp] at h ⊢
    cases hg : s.get te.ticketId with
    | none =>
      simp only [hg] at h ⊢
      cases hi : initial env e te <;> simp [hi] at h ⊢
    | some agg =>
      simp only [hg] at h ⊢
      cases hu : update env e te agg <;> simp [hu] at h ⊢

/-! ## What an event does to an aggregate -/

/-- The event is about something the ticket has already, or ends a session it does not have. -/
def Idle (a : TicketAggregate) : TicketEvent → Prop
  | .chatMessageAdded _ id _ _ _ => id ∈ a.messages.map ChatMessage.id
  | .attachmentAdded _ id _ _ _ _ _ _ => id ∈ a.attachments.map AttachmentRecord.id
  | .shellSessionStarted _ id _ _ _ => id ∈ a.shellSessions.map ShellSessionRecord.id
  | .shellSessionEnded _ id _ _ => id ∉ a.shellSessions.map ShellSessionRecord.id
  | .customAudit _ id _ _ _ _ => id ∈ a.events.map TicketEventRecord.id
  | _ => False

/-- What an event that is applied does to the aggregate of its ticket. -/
inductive Effect (env : Env) (e : Event) (a : TicketAggregate) : TicketEvent → TicketAggregate → Prop
  | idle {te : TicketEvent} (h : Idle a te) : Effect env e a te a
  | status {t actor : String} {newState : TicketState} {reason : Option String}
      (h : a.record.state.canTransitionTo newState = true) :
      Effect env e a (.statusChanged t newState actor reason) (TicketAggregate.touch
        { a with
          record :=
            { a.record with
              state := newState
              closedAt := if newState = .closed then some e.timestamp else a.record.closedAt }
          events := a.events ++ [⟨e.id.toHex, t, "STATUS_CHANGED_TO_" ++ newState.asStr,
            (e.author.deriveId env.crypto).toHex, e.timestamp, reason⟩] } e.timestamp)
  | message {t id sender body : String} {ts : UInt64} (h : id ∉ a.messages.map ChatMessage.id) :
      Effect env e a (.chatMessageAdded t id sender body ts) (TicketAggregate.touch
        { a with messages := a.messages ++ [⟨id, t, sender, body, ts, "DELIVERED"⟩] } e.timestamp)
  | attachment {t id sender file sha path : String} {size ts : UInt64} (h : id ∉ a.attachments.map AttachmentRecord.id) :
      Effect env e a (.attachmentAdded t id sender file size sha path ts) (TicketAggregate.touch
        { a with attachments := a.attachments ++ [⟨id, t, sender, file, size, sha, path, ts, "AVAILABLE"⟩] } e.timestamp)
  | started {t id operator transport : String} {ts : UInt64} (h : id ∉ a.shellSessions.map ShellSessionRecord.id) :
      Effect env e a (.shellSessionStarted t id operator transport ts) (TicketAggregate.touch
        { a with shellSessions := a.shellSessions ++ [⟨id, t, operator, ts, none, transport, none⟩] } e.timestamp)
  | ended {t id : String} {ts : UInt64} {result : Option String} (h : id ∈ a.shellSessions.map ShellSessionRecord.id) :
      Effect env e a (.shellSessionEnded t id ts result) (TicketAggregate.touch
        { a with
          shellSessions := updateFirst (fun y => y.id = id) (fun y => { y with endedAt := some ts, result := result })
            a.shellSessions } e.timestamp)
  | audit {t id kind actor : String} {data : Option String} {ts : UInt64} (h : id ∉ a.events.map TicketEventRecord.id) :
      Effect env e a (.customAudit t id kind actor data ts) (TicketAggregate.touch
        { a with events := a.events ++ [⟨id, t, kind, actor, ts, data⟩] } e.timestamp)

/-- The event is refused: it makes a ticket that is there, or asks for a transition that is not allowed. -/
def Refused (a : TicketAggregate) : TicketEvent → Prop
  | .created _ _ _ _ _ => True
  | .statusChanged _ newState _ _ => a.record.state.canTransitionTo newState = false
  | _ => False

/-- A change of an existing aggregate has an effect or is refused with a message. -/
theorem update_cases (e : Event) (te : TicketEvent) (a : TicketAggregate) :
    (∃ a', update env e te a = .ok a' ∧ Effect env e a te a') ∨
    (∃ err, update env e te a = .error err ∧ err.isDisk = false ∧ Refused a te) := by
  cases te with
  | created => exact .inr ⟨_, rfl, rfl, trivial⟩
  | statusChanged t newState actor reason =>
    simp only [update, changeStatus]
    cases hc : a.record.state.canTransitionTo newState with
    | false => exact .inr ⟨_, rfl, rfl, hc⟩
    | true => exact .inl ⟨_, rfl, .status hc⟩
  | chatMessageAdded t id sender body ts =>
    simp only [update, addMessage]
    split <;> rename_i hc
    · exact .inl ⟨_, rfl, .idle (by simpa [Idle] using hc)⟩
    · exact .inl ⟨_, rfl, .message (by simpa using hc)⟩
  | attachmentAdded t id sender file size sha path ts =>
    simp only [update, addAttachment]
    split <;> rename_i hc
    · exact .inl ⟨_, rfl, .idle (by simpa [Idle] using hc)⟩
    · exact .inl ⟨_, rfl, .attachment (by simpa using hc)⟩
  | shellSessionStarted t id operator transport ts =>
    simp only [update, startSession]
    split <;> rename_i hc
    · exact .inl ⟨_, rfl, .idle (by simpa [Idle] using hc)⟩
    · exact .inl ⟨_, rfl, .started (by simpa using hc)⟩
  | shellSessionEnded t id ts result =>
    simp only [update, endSession]
    split <;> rename_i hc
    · exact .inl ⟨_, rfl, .ended (by simpa using hc)⟩
    · exact .inl ⟨_, rfl, .idle (by simpa [Idle] using hc)⟩
  | customAudit t id kind actor data ts =>
    simp only [update, addAudit]
    split <;> rename_i hc
    · exact .inl ⟨_, rfl, .idle (by simpa [Idle] using hc)⟩
    · exact .inl ⟨_, rfl, .audit (by simpa using hc)⟩

section Effect

variable {e : Event} {te : TicketEvent} {a a' : TicketAggregate}

/-- An effect that is not idle counts one revision and sets the time of the last change; none touches the identity. -/
theorem Effect.touched (h : Effect env e a te a') :
    a'.record.identity = a.record.identity ∧
      (a' = a ∨ (a'.record.revision = a.record.revision + 1 ∧ a'.record.updatedAt = e.timestamp)) := by
  cases h with
  | idle => exact ⟨rfl, .inl rfl⟩
  | _ => exact ⟨rfl, .inr ⟨rfl, rfl⟩⟩

theorem Effect.not_refused (h : Effect env e a te a') : ¬ Refused a te := by
  intro href
  cases h with
  | idle hidle => cases te <;> first | exact hidle.elim | exact href.elim
  | status htr => rw [Refused, htr] at href; cases href
  | _ => exact href.elim

/-- A change of status moves the ticket by an allowed transition; nothing else moves it. -/
theorem Effect.state (h : Effect env e a te a') :
    (∃ t newState actor reason, te = .statusChanged t newState actor reason ∧ a'.record.state = newState ∧
      a.record.state.canTransitionTo newState = true) ∨
    ((∀ t newState actor reason, te ≠ .statusChanged t newState actor reason) ∧ a'.record.state = a.record.state) := by
  cases h with
  | idle hidle =>
    refine .inr ⟨?_, rfl⟩
    rintro t newState actor reason rfl
    exact hidle
  | status htr => exact .inl ⟨_, _, _, _, rfl, rfl, htr⟩
  | _ => exact .inr ⟨nofun, rfl⟩

end Effect

/-- What the reducer asks of an event: a creation needs a free id, a status change an existing ticket and an
allowed transition, everything else an existing ticket. -/
def Applicable (s : TicketStateStore) : TicketEvent → Prop
  | .created t _ _ _ _ => s.get t = none
  | .statusChanged t newState _ _ => ∃ a, s.get t = some a ∧ a.record.state.canTransitionTo newState = true
  | te => (s.get te.ticketId).isSome

section Applicable

variable {s : TicketStateStore} {te : TicketEvent}

theorem applicable_of_some {a : TicketAggregate} (hg : s.get te.ticketId = some a) : Applicable s te ↔ ¬ Refused a te := by
  cases te <;> simp only [TicketEvent.ticketId] at hg <;> simp [Applicable, Refused, TicketEvent.ticketId, hg]

theorem applicable_of_none (hg : s.get te.ticketId = none) :
    Applicable s te ↔ ∃ t title description priority client, te = .created t title description priority client := by
  cases te <;> simp only [TicketEvent.ticketId] at hg <;> simp [Applicable, TicketEvent.ticketId, hg]

end Applicable

/-- The event is applied exactly if it is applicable, and refused with a message otherwise. -/
theorem applyEvent_cases (s : TicketStateStore) {e : Event} {te : TicketEvent} (h : e.payload = .ticket te) :
    (Applicable s te ∧ (applyEvent env s e).1 = .ok ()) ∨
    (¬ Applicable s te ∧ ∃ err, err.isDisk = false ∧ (applyEvent env s e).1 = .error err) := by
  rw [applyEvent_ticket h]
  cases hg : s.get te.ticketId with
  | none =>
    rw [applicable_of_none hg]
    cases te with
    | created => exact .inl ⟨⟨_, _, _, _, _, rfl⟩, rfl⟩
    | _ => exact .inr ⟨nofun, _, rfl, rfl⟩
  | some a =>
    rw [applicable_of_some hg]
    rcases @update_cases env e te a with ⟨a', hu, heff⟩ | ⟨err, hu, hdk, href⟩
    · exact .inl ⟨heff.not_refused, by simp only [hu]⟩
    · exact .inr ⟨fun h => h href, err, hdk, by simp only [hu]⟩

/-- The frame and the effect of one event on one ticket. -/
theorem get_step (s : TicketStateStore) (e : Event) (T : String) :
    (step env s e).get T =
      match e.payload with
      | .custom _ _ => s.get T
      | .ticket te => if te.ticketId = T then next env e te (s.get T) else s.get T := by
  cases hp : e.payload with
  | custom n d => rw [step, applyEvent_custom hp]
  | ticket te =>
    simp only [step]
    rw [applyEvent_ticket hp]
    by_cases hT : te.ticketId = T
    · subst hT
      rw [if_pos rfl]
      cases hg : s.get te.ticketId with
      | none =>
        simp only [next]
        cases initial env e te <;> simp [hg]
      | some agg =>
        simp only [next]
        cases update env e te agg <;> simp [hg]
    · rw [if_neg hT]
      cases hg : s.get te.ticketId with
      | none =>
        simp only
        cases initial env e te <;> simp [TicketStateStore.get_set_of_ne _ _ (Ne.symm hT)]
      | some agg =>
        simp only
        cases update env e te agg <;> simp [TicketStateStore.get_set_of_ne _ _ (Ne.symm hT)]

/-- An event about another ticket leaves a ticket alone. -/
theorem get_step_of_not_about {s : TicketStateStore} {e : Event} {T : String} (h : e.about T = false) :
    (step env s e).get T = s.get T := by
  rw [get_step]
  cases hp : e.payload with
  | custom n d => rfl
  | ticket te =>
    have : te.ticketId ≠ T := by simpa [Event.about, Event.ticketId, hp] using h
    simp [this]

/-- What an event does to a ticket depends on that ticket only. -/
theorem get_step_congr {s t : TicketStateStore} {e : Event} {T : String} (h : s.get T = t.get T) :
    (step env s e).get T = (step env t e).get T := by
  rw [get_step, get_step, h]

/-- What an event does to a ticket that is there: it is about another, or it is refused, or it has an effect. -/
theorem get_step_present {s : TicketStateStore} {T : String} {a : TicketAggregate} (hg : s.get T = some a) (e : Event) :
    ∃ a', (step env s e).get T = some a' ∧ ((e.about T = false ∧ a' = a) ∨
      ∃ te, e.payload = .ticket te ∧ te.ticketId = T ∧ (Refused a te ∧ a' = a ∨ Effect env e a te a')) := by
  cases hT : e.about T with
  | false => exact ⟨a, (get_step_of_not_about hT).trans hg, .inl ⟨rfl, rfl⟩⟩
  | true =>
    obtain ⟨te, hp, rfl⟩ := Event.payload_of_about hT
    have hstep := @get_step env s e te.ticketId
    simp only [hp, if_true, hg, next] at hstep
    rcases @update_cases env e te a with ⟨a', hu, heff⟩ | ⟨err, hu, -, href⟩
    · rw [hu] at hstep
      exact ⟨a', hstep, .inr ⟨te, hp, rfl, .inr heff⟩⟩
    · rw [hu] at hstep
      exact ⟨a, hstep, .inr ⟨te, hp, rfl, .inl ⟨href, rfl⟩⟩⟩

/-- What an event does to a ticket that is not there: it makes it, or nothing. -/
theorem get_step_absent {s : TicketStateStore} {T : String} (hg : s.get T = none) (e : Event) :
    (e.creates T = false ∧ (step env s e).get T = none) ∨
    ∃ title description priority client, e.payload = .ticket (.created T title description priority client) ∧
      (step env s e).get T = some (create e (e.author.deriveId env.crypto).toHex T title description priority client) := by
  cases hT : e.about T with
  | false =>
    refine .inl ⟨?_, (get_step_of_not_about hT).trans hg⟩
    cases hc : e.creates T with
    | false => rfl
    | true => rw [Event.about_of_creates hc] at hT; cases hT
  | true =>
    obtain ⟨te, hp, rfl⟩ := Event.payload_of_about hT
    have hstep := @get_step env s e te.ticketId
    simp only [hp, if_true, hg, next] at hstep
    cases te with
    | created t title description priority client => exact .inr ⟨title, description, priority, client, hp, hstep⟩
    | _ => exact .inl ⟨by simp [Event.creates, Event.creation, hp], hstep⟩

/-- What an event that is applicable does: it makes its ticket, or has an effect on it. -/
theorem get_step_applied {s : TicketStateStore} {e : Event} {te : TicketEvent} (hp : e.payload = .ticket te)
    (happ : Applicable s te) :
    (∃ t title description priority client, te = .created t title description priority client ∧
      (step env s e).get t = some (create e (e.author.deriveId env.crypto).toHex t title description priority client)) ∨
    ∃ a a', s.get te.ticketId = some a ∧ (step env s e).get te.ticketId = some a' ∧ Effect env e a te a' := by
  have hstep := @get_step env s e te.ticketId
  simp only [hp, if_true] at hstep
  cases hg : s.get te.ticketId with
  | none =>
    obtain ⟨t, title, description, priority, client, rfl⟩ := (applicable_of_none hg).1 happ
    rw [hg] at hstep
    exact .inl ⟨t, title, description, priority, client, rfl, hstep⟩
  | some a =>
    rw [hg, next] at hstep
    rcases @update_cases env e te a with ⟨a', hu, heff⟩ | ⟨err, -, -, href⟩
    · rw [hu] at hstep
      exact .inr ⟨a, a', rfl, hstep, heff⟩
    · exact absurd href ((applicable_of_some hg).1 happ)

/-! ## Folds -/

/-- Folding a list of events into a store. -/
abbrev fold (env : Env) (s : TicketStateStore) (l : List Event) : TicketStateStore := l.foldl (step env) s

theorem fold_append (s : TicketStateStore) (l m : List Event) : fold env s (l ++ m) = fold env (fold env s l) m :=
  List.foldl_append

/-- A ticket once there stays, with its identity. -/
theorem get_step_some {s : TicketStateStore} {e : Event} {T : String} {a : TicketAggregate} (h : s.get T = some a) :
    ∃ a', (step env s e).get T = some a' ∧ a'.record.identity = a.record.identity := by
  obtain ⟨a', hget, ⟨-, rfl⟩ | ⟨te, -, -, ⟨-, rfl⟩ | heff⟩⟩ := @get_step_present env _ _ _ h e
  · exact ⟨_, hget, rfl⟩
  · exact ⟨_, hget, rfl⟩
  · exact ⟨a', hget, heff.touched.1⟩

/-- An absent ticket is made by its creation event, with that event's identity, and by no other. -/
theorem get_step_none {s : TicketStateStore} {e : Event} {T : String} (h : s.get T = none) :
    if e.creates T then ∃ a, (step env s e).get T = some a ∧ some a.record.identity = e.creation
    else (step env s e).get T = none := by
  rcases @get_step_absent env _ _ h e with ⟨hc, hnone⟩ | ⟨title, description, priority, client, hp, hmade⟩
  · rw [hc]
    exact hnone
  · have hcreation : e.creation = some ⟨T, title, description, priority, client, e.timestamp⟩ := by
      simp [Event.creation, hp]
    rw [if_pos (by simp [Event.creates, hcreation])]
    exact ⟨_, hmade, hcreation.symm⟩

/-- After a fold a ticket has the identity of the first event that creates it. -/
theorem fold_identity (T : String) : ∀ (l : List Event) (s : TicketStateStore), s.get T = none →
    match l.find? (Event.creates T) with
    | some e => ∃ a, (fold env s l).get T = some a ∧ some a.record.identity = e.creation
    | none => (fold env s l).get T = none
  | [], s, h => h
  | e :: l, s, h => by
    have hstep := @get_step_none env _ e _ h
    cases hc : e.creates T with
    | false =>
      rw [hc] at hstep
      simpa [List.find?_cons, hc, fold] using fold_identity T l _ hstep
    | true =>
      rw [hc, if_pos rfl] at hstep
      obtain ⟨a, ha, hi⟩ := hstep
      simp only [List.find?_cons, hc, fold, List.foldl_cons]
      -- from here on the ticket exists and keeps its identity
      have keep : ∀ (l : List Event) (s : TicketStateStore) (a : TicketAggregate), s.get T = some a →
          ∃ a', (fold env s l).get T = some a' ∧ a'.record.identity = a.record.identity := by
        intro l
        induction l with
        | nil => intro s a h; exact ⟨a, h, rfl⟩
        | cons x l ih =>
          intro s a h
          obtain ⟨a1, h1, i1⟩ := @get_step_some env _ x _ _ h
          obtain ⟨a2, h2, i2⟩ := ih _ a1 h1
          exact ⟨a2, h2, i2.trans i1⟩
      obtain ⟨a', ha', hi'⟩ := keep l _ a ha
      exact ⟨a', ha', by rw [hi', hi]⟩

theorem fold_isSome (T : String) (l : List Event) :
    ((fold env TicketStateStore.new l).get T).isSome ↔ ∃ e ∈ l, e.creates T = true := by
  have h := @fold_identity env T l TicketStateStore.new (by simp)
  cases hf : l.find? (Event.creates T) with
  | none =>
    simp only [hf] at h
    rw [List.find?_eq_none] at hf
    simp only [h, Option.isSome_none, Bool.false_eq_true, false_iff, not_exists, not_and]
    exact hf
  | some e =>
    simp only [hf] at h
    obtain ⟨a, ha, -⟩ := h
    rw [ha]
    simp only [Option.isSome_some, true_iff]
    exact ⟨e, List.mem_of_find?_eq_some hf, List.find?_some hf⟩

/-! ## Closure -/

/-- The ticket is there and closed. -/
def Closed (s : TicketStateStore) (T : String) : Prop := ∃ a, s.get T = some a ∧ a.record.state = .closed

/-- One event closes an existing ticket or keeps it closed; no other way leads to `closed`. -/
theorem closed_step {s : TicketStateStore} {e : Event} {T : String} :
    Closed (step env s e) T ↔ Closed s T ∨ (e.closes T = true ∧ (s.get T).isSome) := by
  unfold Closed
  cases hg : s.get T with
  | none =>
    rcases @get_step_absent env _ _ hg e with ⟨-, hnone⟩ | ⟨_, _, _, _, -, hmade⟩
    · simp [hnone]
    · simp [hmade, create]
  | some a =>
    obtain ⟨a', hget, hcase⟩ := @get_step_present env _ _ _ hg e
    simp only [hget, Option.some.injEq, exists_eq_left', Option.isSome_some, and_true]
    rcases hcase with ⟨hk, rfl⟩ | ⟨te, hp, rfl, ⟨href, rfl⟩ | heff⟩
    · exact (or_iff_left fun hc => by rw [Event.about_of_closes hc] at hk; cases hk).symm
    · -- closing is never refused
      refine (or_iff_left_of_imp fun hc => ?_).symm
      cases te with
      | statusChanged t newState actor reason => cases newState <;> simp [Event.closes, hp, Refused] at hc href
      | _ => simp [Event.closes, hp] at hc
    · rcases heff.state with ⟨t, newState, actor, reason, rfl, hst, htr⟩ | ⟨hother, hst⟩
      · rw [hst]
        constructor
        · rintro rfl
          exact .inr (by simp [Event.closes, hp, TicketEvent.ticketId])
        · rintro (hc | hc)
          · rw [hc] at htr
            exact TicketState.eq_closed_of_canTransitionTo htr
          · cases newState <;> simp [Event.closes, hp] at hc ⊢
      · have hcloses : e.closes te.ticketId = false := by
          cases te with
          | statusChanged => exact (hother _ _ _ _ rfl).elim
          | _ => simp [Event.closes, hp]
        simp [hst, hcloses]

/-- After a fold a ticket is closed when an event that closes it follows one that creates it. -/
theorem fold_closed (T : String) (l : List Event) :
    Closed (fold env TicketStateStore.new l) T ↔
      ∃ pre b post, l = pre ++ b :: post ∧ b.closes T = true ∧ ∃ a ∈ pre, a.creates T = true := by
  induction l using List.reverseRecOn with
  | nil => simp [Closed, fold]
  | append_singleton l e ih =>
    rw [fold_append, fold, fold, List.foldl_cons, List.foldl_nil, closed_step, ih, fold_isSome]
    constructor
    · rintro (⟨pre, b, post, rfl, hb, ha⟩ | ⟨he, ha⟩)
      · exact ⟨pre, b, post ++ [e], by simp, hb, ha⟩
      · exact ⟨l, e, [], rfl, he, ha⟩
    · rintro ⟨pre, b, post, heq, hb, ha⟩
      rcases List.eq_nil_or_concat post with rfl | ⟨post, c, rfl⟩
      · obtain ⟨rfl, hbe⟩ := List.append_inj' heq rfl
        cases hbe; exact .inr ⟨hb, ha⟩
      · simp only [List.concat_eq_append] at heq
        rw [← List.cons_append, ← List.append_assoc] at heq
        obtain ⟨rfl, -⟩ := List.append_inj' heq rfl
        exact .inl ⟨pre, b, post, rfl, hb, ha⟩

/-! ## Revisions -/

/-- The revision of a ticket, zero where there is none. -/
def revisionOf (o : Option TicketAggregate) : Nat := o.elim 0 fun a => a.record.revision.toNat

/-- One event leaves a ticket as it is or counts one revision. -/
theorem get_step_revision {s : TicketStateStore} {T : String} (e : Event) (hb : revisionOf (s.get T) + 1 < 2 ^ 64) :
    (step env s e).get T = s.get T ∨ revisionOf ((step env s e).get T) = revisionOf (s.get T) + 1 := by
  cases hg : s.get T with
  | none =>
    rcases @get_step_absent env _ _ hg e with ⟨-, hnone⟩ | ⟨_, _, _, _, -, hmade⟩
    · exact .inl hnone
    · rw [hmade]
      exact .inr rfl
  | some a =>
    obtain ⟨a', hget, ⟨-, rfl⟩ | ⟨te, -, -, ⟨-, rfl⟩ | heff⟩⟩ := @get_step_present env _ _ _ hg e
    · exact .inl hget
    · exact .inl hget
    · rcases heff.touched.2 with rfl | ⟨hrev, -⟩
      · exact .inl hget
      · rw [hg] at hb
        simp only [revisionOf, Option.elim_some] at hb
        rw [hget]
        simp only [revisionOf, Option.elim_some, hrev, UInt64.toNat_add, UInt64.toNat_one]
        exact .inr (by omega)

/-- A status change that the ticket can take counts one revision. -/
theorem get_step_status {s : TicketStateStore} {e : Event} {t : String} {newState : TicketState} {actor : String}
    {reason : Option String} (hp : e.payload = .ticket (.statusChanged t newState actor reason))
    (happ : Applicable s (.statusChanged t newState actor reason)) (hb : revisionOf (s.get t) + 1 < 2 ^ 64) :
    revisionOf ((step env s e).get t) = revisionOf (s.get t) + 1 := by
  obtain ⟨a, hg, hc⟩ := happ
  rw [get_step, hp]
  simp only [hg, revisionOf, Option.elim_some] at hb
  simp only [TicketEvent.ticketId, if_true, hg, next, update, changeStatus, hc, Bool.not_true, Bool.false_eq_true, if_false,
    revisionOf, Option.elim_some, UInt64.toNat_add, UInt64.toNat_one]
  omega

/-- A fold counts at most one revision for each event, and leaves a ticket as it is or counts some. -/
theorem fold_revision (T : String) : ∀ (l : List Event) (s : TicketStateStore),
    revisionOf (s.get T) + l.length < 2 ^ 64 →
    revisionOf ((fold env s l).get T) ≤ revisionOf (s.get T) + l.length ∧
      ((fold env s l).get T = s.get T ∨ revisionOf (s.get T) < revisionOf ((fold env s l).get T))
  | [], s, _ => ⟨le_rfl, .inl rfl⟩
  | e :: l, s, hb => by
    rw [List.length_cons] at hb
    have hstep := @get_step_revision env s T e (by omega)
    have hle : revisionOf ((step env s e).get T) ≤ revisionOf (s.get T) + 1 := by
      rcases hstep with h | h
      · rw [h]; omega
      · omega
    obtain ⟨h1, h2⟩ := fold_revision T l (step env s e) (by omega)
    simp only [fold, List.foldl_cons, List.length_cons] at h1 h2 ⊢
    refine ⟨by omega, ?_⟩
    rcases hstep with h | h
    · rw [h] at h2; exact h2
    · refine .inr ?_
      rcases h2 with h2 | h2
      · rw [h2]; omega
      · omega

/-! ## The replay of a set of events -/

/-- The state a list of events stands for: their fold in key order. -/
abbrev replay (env : Env) (l : List Event) : TicketStateStore :=
  Replay.replay Event.sortKey (step env) TicketStateStore.new l

/-- On a graph with the invariant, reduction is the replay of its events. -/
theorem reduce_eq_replay {g : EventGraph} (h : g.Inv) : reduce env g = replay env g.events := by
  rw [reduce, h.topologicalSort_eq]; rfl

/-- A ticket's aggregate is a function of the events about it. -/
theorem replay_get_congr {l m : List Event} (hl : (l.map Event.sortKey).Nodup) (hm : (m.map Event.sortKey).Nodup)
    {T : String} (h : ∀ e, e.about T = true → (e ∈ l ↔ e ∈ m)) : (replay env l).get T = (replay env m).get T :=
  Replay.replay_view_congr (fun s : TicketStateStore => s.get T) (Event.about T)
    (fun _ _ hp => get_step_of_not_about hp) (fun _ _ _ heq => get_step_congr heq) hl hm h

theorem replay_isSome {l : List Event} {T : String} :
    ((replay env l).get T).isSome ↔ ∃ e ∈ l, e.creates T = true := by
  rw [replay, Replay.replay, fold_isSome]
  simp

theorem replay_revision_le {l : List Event} {T : String} (h : l.length < 2 ^ 64) :
    revisionOf ((replay env l).get T) ≤ l.length := by
  have hfold := (@fold_revision env T (keySort Event.sortKey l) TicketStateStore.new
    (by simpa [revisionOf] using h)).1
  rw [length_keySort, TicketStateStore.get_new] at hfold
  exact hfold.trans (by simp [revisionOf])

/-- When the events about a ticket that a log gains sort after those it has, the ticket stays as it is or its
revision grows. -/
theorem replay_revision_mono {l m : List Event} (hl : (l.map Event.sortKey).Nodup) (hm : (m.map Event.sortKey).Nodup)
    (hsub : ∀ e ∈ l, e ∈ m) {T : String}
    (hlast : ∀ b ∈ m, b ∉ l → b.about T = true → ∀ a ∈ l, a.about T = true → a.sortKey < b.sortKey)
    (hlen : m.length < 2 ^ 64) :
    (replay env m).get T = (replay env l).get T ∨
      revisionOf ((replay env l).get T) < revisionOf ((replay env m).get T) := by
  have hview : (replay env m).get T = (fold env (replay env l)
      (keySort Event.sortKey (m.filter fun b => b ∉ l ∧ b.about T = true))).get T :=
    Replay.replay_view_append (fun s : TicketStateStore => s.get T) (Event.about T)
      (fun _ _ hp => get_step_of_not_about hp) (fun _ _ _ heq => get_step_congr heq) hl hm hsub hlast
  -- the old events and the new ones together are no more than all
  have hnodup : ∀ x : List Event, (x.map Event.sortKey).Nodup → x.Nodup := fun _ h => List.Nodup.of_map _ h
  have hcount : l.length + (m.filter fun b => b ∉ l ∧ b.about T = true).length ≤ m.length := by
    rw [← List.length_append]
    refine ((List.nodup_append.2 ⟨hnodup l hl, (hnodup m hm).filter _, ?_⟩).subperm ?_).length_le
    · intro a ha b hb hab
      simp only [List.mem_filter, decide_eq_true_eq] at hb
      exact hb.2.1 (hab ▸ ha)
    · intro a ha
      rcases List.mem_append.1 ha with ha | ha
      · exact hsub a ha
      · exact (List.mem_filter.1 ha).1
  have hrev := @replay_revision_le env l T (by omega)
  have hfold := (@fold_revision env T (keySort Event.sortKey (m.filter fun b => b ∉ l ∧ b.about T = true))
    (replay env l) (by rw [length_keySort]; omega)).2
  rw [hview]
  exact hfold

/-- A ticket is closed when a closing event sorts after a creation event. -/
theorem replay_closed {l : List Event} (hl : (l.map Event.sortKey).Nodup) {T : String} :
    Closed (replay env l) T ↔
      ∃ a ∈ l, ∃ b ∈ l, a.creates T = true ∧ b.closes T = true ∧ a.sortKey < b.sortKey := by
  rw [replay, Replay.replay, fold_closed]
  have hinc := keySort_increasing hl
  constructor
  · rintro ⟨pre, b, post, heq, hb, a, ha, hc⟩
    have hmem : ∀ x ∈ pre ++ b :: post, x ∈ l := fun x hx => (mem_keySort Event.sortKey).1 (heq ▸ hx)
    rw [heq] at hinc
    exact ⟨a, hmem a (by simp [ha]), b, hmem b (by simp), hc, hb, (hinc.mem_left_iff (by simp [ha])).1 ha⟩
  · rintro ⟨a, ha, b, hb, hc, hcl, hlt⟩
    obtain ⟨pre, post, heq⟩ := List.append_of_mem ((mem_keySort Event.sortKey).2 hb)
    have ha' : a ∈ pre ++ b :: post := heq ▸ (mem_keySort Event.sortKey).2 ha
    rw [heq] at hinc
    exact ⟨pre, b, post, heq, hcl, a, (hinc.mem_left_iff ha').2 hlt, hc⟩

/-- A ticket has the identity of the creation event that sorts first. -/
theorem replay_identity {l : List Event} {T : String} {a : TicketAggregate} (h : (replay env l).get T = some a) :
    ∃ e ∈ l, e.creates T = true ∧ some a.record.identity = e.creation ∧
      ∀ e' ∈ l, e'.creates T = true → e.sortKey ≤ e'.sortKey := by
  have hid := @fold_identity env T (keySort Event.sortKey l) TicketStateStore.new (by simp)
  change (fold env TicketStateStore.new (keySort Event.sortKey l)).get T = some a at h
  cases hf : (keySort Event.sortKey l).find? (Event.creates T) with
  | none => simp only [hf] at hid; rw [hid] at h; cases h
  | some e =>
    simp only [hf] at hid
    obtain ⟨a', ha', hi⟩ := hid
    rw [h] at ha'; cases ha'
    obtain ⟨hc, pre, post, heq, hpre⟩ := List.find?_eq_some_iff_append.1 hf
    refine ⟨e, (mem_keySort Event.sortKey).1 (List.mem_of_find?_eq_some hf), hc, hi, fun e' he' hc' => ?_⟩
    have hs := keySort_pairwise Event.sortKey l
    have hm := (mem_keySort Event.sortKey).2 he'
    rw [heq] at hs hm
    rcases List.mem_append.1 hm with hp | hp
    · have := hpre e' hp; simp [hc'] at this
    · rcases List.mem_cons.1 hp with rfl | hp
      · exact le_rfl
      · exact (List.pairwise_cons.1 (List.pairwise_append.1 hs).2.1).1 e' hp

end TicketReducer

end Fortiq
