/-
What the import of a canonical ticket makes of it (`import_canonical_ticket`, `fortiq-core/src/engine.rs`). The
record is not copied: a creation and a change of status are appended, and the reducer counts them. The local copy
gets the state of the record, and its revision only where the events behind the record are as many as those that
are appended.
-/
import Fortiq.Engine.Failure
import Fortiq.Reducer.Effect

namespace Fortiq

namespace TicketEngine

variable {env : Env} {s s' : TicketEngine} {disk : Disk} {ts : UInt64} {x : Event × SignedObject}

theorem append_created_ok {t title description client : String} {priority : TicketPriority}
    (h : appendTicketEvent env (.created t title description priority client) ts disk s = (.ok x, s')) :
    ∃ a, s'.state.get t = some a ∧ a.record.state = .«open» ∧ a.record.revision = 1 := by
  obtain ⟨hp, -, happ, hs⟩ := append_ok h
  rw [hs]
  rcases @TicketReducer.get_step_applied env _ _ _ hp happ with ⟨_, _, _, _, _, hte, hmade⟩ | ⟨a, -, hg, -⟩
  · cases hte
    exact ⟨_, hmade, rfl, rfl⟩
  · cases happ.symm.trans hg

theorem import_status_ok {t : TicketRecord} {a : TicketAggregate} (hg : s.state.get t.id = some a) {u : Unit}
    (h : (importStatus t disk).run (exec env) s = (.ok u, s')) :
    ∃ a', s'.state.get t.id = some a' ∧ a'.record.state = t.state ∧ a'.record.revision = a.record.revision + 1 := by
  obtain ⟨x, s₁, happ, hret⟩ := Prog.run_bind_ok h
  cases hret
  rw [run_appendTicketEvent] at happ
  obtain ⟨a', hget, hst, hrev, -⟩ := append_status_ok hg happ
  exact ⟨a', hget, hst, hrev⟩

/-- The copy of a ticket that was not there. -/
theorem import_absent_ok {t : TicketRecord} (hg : s.state.get t.id = none) {r : Reply}
    (h : perform env disk (.importCanonicalTicket t) s = (.ok r, s')) :
    ∃ a, s'.state.get t.id = some a ∧ a.record.state = t.state ∧
      a.record.revision = if t.state = .«open» then 1 else 2 := by
  rw [(@import_absent env ∅ s t hg disk).1] at h
  obtain ⟨u, s₂, h, hret⟩ := Prog.run_bind_ok h
  cases hret
  obtain ⟨x, s₁, hcreate, hrest⟩ := Prog.run_bind_ok h
  rw [run_appendTicketEvent] at hcreate
  obtain ⟨a, hget, hst, hrev⟩ := append_created_ok hcreate
  unfold importRest at hrest
  by_cases hopen : t.state = .«open»
  · rw [if_neg (not_not.2 hopen)] at hrest
    cases hrest
    exact ⟨a, hget, hst.trans hopen.symm, by rw [if_pos hopen, hrev]⟩
  · rw [if_pos hopen] at hrest
    obtain ⟨a', hget', hst', hrev'⟩ := import_status_ok hget hrest
    refine ⟨a', hget', hst', ?_⟩
    rw [if_neg hopen, hrev', hrev]
    rfl

/-- The copy of a ticket that was there and behind. -/
theorem import_present_ok {t : TicketRecord} {a : TicketAggregate} (hg : s.state.get t.id = some a)
    (hrev : a.record.revision < t.revision) {r : Reply}
    (h : perform env disk (.importCanonicalTicket t) s = (.ok r, s')) :
    ∃ a', s'.state.get t.id = some a' ∧ a'.record.state = t.state ∧
      a'.record.revision = if a.record.state = t.state then a.record.revision else a.record.revision + 1 := by
  obtain ⟨P, hcall, hP⟩ := import_call env s.policy disk t
  have hPs := hP s.state
  rw [TicketStateStore.getTicket, hg] at hPs
  rw [(perform_read (U := ∅) hcall hPs).1] at h
  obtain ⟨u, s₁, h, hret⟩ := Prog.run_bind_ok h
  cases hret
  by_cases heq : a.record.state = t.state
  · have hstay : ¬ (t.revision > a.record.revision ∧ t.state ≠ a.record.state) := fun hc => hc.2 heq.symm
    simp only [Option.map_some, if_neg hstay] at h
    cases h
    exact ⟨a, hg, heq, by rw [if_pos heq]⟩
  · have hmove : t.revision > a.record.revision ∧ t.state ≠ a.record.state := ⟨hrev, fun hc => heq hc.symm⟩
    simp only [Option.map_some, if_pos hmove] at h
    rw [if_neg heq]
    exact import_status_ok hg h

/-- What an import that succeeds gives where the ticket is absent or behind: the state of the record; and its revision
exactly where as many changes are behind the record as the import makes. -/
theorem import_reproduces_iff (t : TicketRecord) (disk : Disk) (r : Reply)
    (hok : perform env disk (.importCanonicalTicket t) s = (.ok r, s'))
    (hpre : ∀ a, s.state.get t.id = some a → a.record.revision < t.revision) :
    ∃ copy, s'.state.getTicket t.id = some copy ∧ copy.state = t.state ∧
      (copy.revision = t.revision ↔
        (s.state.get t.id = none → t.revision = if t.state = .«open» then 1 else 2) ∧
        ∀ a, s.state.get t.id = some a → a.record.state ≠ t.state ∧ t.revision = a.record.revision + 1) := by
  cases hg : s.state.get t.id with
  | none =>
    obtain ⟨a, hget, hst, hrev⟩ := import_absent_ok hg hok
    refine ⟨a.record, by rw [TicketStateStore.getTicket, hget]; rfl, hst, ?_⟩
    rw [hrev]
    simp [eq_comm]
  | some a =>
    have hlt := hpre a hg
    obtain ⟨a', hget, hst, hrev⟩ := import_present_ok hg hlt hok
    refine ⟨a'.record, by rw [TicketStateStore.getTicket, hget]; rfl, hst, ?_⟩
    rw [hrev]
    by_cases heq : a.record.state = t.state
    · simpa [heq] using UInt64.ne_of_lt hlt
    · simpa [heq] using eq_comm

section Sample

/-- The ticket has a message where it comes from. -/
def importTable : EventTable where
  bodies :=
    [⟨[], 10, 1, .ticket (.created "T-aaaaaaaa" "printer" "on fire" .high "alice")⟩,
     ⟨[idAt 0], 20, 2, .ticket (.chatMessageAdded "T-aaaaaaaa" "m1" "alice" "still burning" 20)⟩]

def importMessage : ChatMessage :=
  { id := "m1", ticketId := "T-aaaaaaaa", senderPeerId := "alice", body := "still burning", createdAt := 20,
    deliveryState := "DELIVERED" }

def importCreated : Reached importTable :=
  (Reached.start importTable).after (.createTicket "aaaaaaaa" 10 "printer" "on fire" .high "alice")

def importOwner : Reached importTable := importCreated.after (.addChatMessage 20 importMessage)

/-- The record of the ticket, open, with a revision. -/
def importRecord (revision updatedAt : UInt64) : TicketRecord :=
  { id := "T-aaaaaaaa", title := "printer", description := "on fire", state := .«open», priority := .high,
    clientPeerId := "alice", revision := revision, createdAt := 10, updatedAt := updatedAt, closedAt := none }

/-- A ticket without further changes is reproduced. -/
theorem import_reproduces_iff_created :
    importCreated.engine.state.getTicket "T-aaaaaaaa" = some (importRecord 1 10) ∧
      ∃ copy, (perform importTable.env diskOk (.importCanonicalTicket (importRecord 1 10))
        (Reached.start importTable).engine).2.state.getTicket "T-aaaaaaaa" = some copy ∧ copy.revision = 1 := by
  have hnone : (Reached.start importTable).engine.state.get "T-aaaaaaaa" = none := by decide +kernel
  have hok : (perform importTable.env diskOk (.importCanonicalTicket (importRecord 1 10))
      (Reached.start importTable).engine).1 = .ok .done := by decide +kernel
  refine ⟨by decide +kernel, ?_⟩
  obtain ⟨copy, hget, -, hiff⟩ := import_reproduces_iff (importRecord 1 10) diskOk .done (Prod.ext hok rfl)
    (fun a ha => by rw [show (importRecord 1 10).id = "T-aaaaaaaa" from rfl, hnone] at ha; cases ha)
  refine ⟨copy, hget, hiff.2 ⟨fun _ => rfl, fun a ha => ?_⟩⟩
  rw [show (importRecord 1 10).id = "T-aaaaaaaa" from rfl, hnone] at ha
  cases ha

/-- The owner has the ticket at revision 2, because of the message. An engine that has nothing imports the record and
has it at revision 1. -/
theorem import_loses_revision :
    importOwner.engine.state.getTicket "T-aaaaaaaa" = some (importRecord 2 20) ∧
      (Reached.start importTable).engine.state.getTicket "T-aaaaaaaa" = none ∧
      (perform importTable.env diskOk (.importCanonicalTicket (importRecord 2 20))
        (Reached.start importTable).engine).1 = .ok .done ∧
      ((perform importTable.env diskOk (.importCanonicalTicket (importRecord 2 20))
        (Reached.start importTable).engine).2.state.getTicket "T-aaaaaaaa") = some (importRecord 1 10) := by
  decide +kernel

end Sample

end TicketEngine

end Fortiq
