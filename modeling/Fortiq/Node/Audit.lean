/-
The audit of shell sessions. The engine records a session in its ticket when it is given the ticket and the session in
this order; the task of a shell gives them the other way round and drops the error, so no session is ever found in
the ticket it was admitted for.
-/
import Fortiq.Node.Admission

namespace Fortiq

open TicketEngine

/-! ## What a record of a session is -/

/-- Exactly one session with the id is in the list of the ticket, and it names the ticket and the operator. -/
def RecordedOnce (engine : TicketEngine) (t sessionId operator : String) : Prop :=
  ((engine.state.listShellSessions t).filter fun x => x.id = sessionId).map (fun x => (x.ticketId, x.operatorPeerId)) =
    [(t, operator)]

/-- The events that are new are about the ticket. -/
def OnlyAbout (before after : TicketEngine) (t : String) : Prop :=
  ∀ e ∈ after.graph.events, e ∉ before.graph.events → e.ticketId = some t

/-- A session is audited: recorded in its ticket by the start record, ended there with the result by the end record,
and neither adds an event of another ticket. -/
structure Audited (before started serving ended : TicketEngine) (t sessionId operator result : String) : Prop where
  recorded : RecordedOnce started t sessionId operator
  closed : ∃ x ∈ ended.state.listShellSessions t, x.id = sessionId ∧ x.endedAt.isSome ∧ x.result = some result
  startAbout : OnlyAbout before started t
  endAbout : OnlyAbout serving ended t

/-! ## The engine's part -/

namespace TicketEngine

variable {env : Env} {s s' : TicketEngine} {disk : Disk} {now : UInt64}

/-- An append adds events of its own ticket only. -/
theorem append_onlyAbout (te : TicketEvent) (ts : UInt64) (disk : Disk) (s : TicketEngine) :
    OnlyAbout s (appendTicketEvent env te ts disk s).2 te.ticketId := by
  intro e he hn
  obtain ⟨-, -, l, hl, hg⟩ := exec_graph env (.append te ts disk) s
  have hg : (appendTicketEvent env te ts disk s).2.graph = s.graph.insertAll l := hg
  rw [hg] at he
  have hev := hl e ((EventGraph.mem_of_mem_insertAll l s.graph he).resolve_left hn)
  simp only [events, List.mem_map, Option.mem_toList] at hev
  obtain ⟨⟨e', obj⟩, hd, rfl⟩ := hev
  cases hdraft : draft env te ts s with
  | error err => rw [hdraft] at hd; cases hd
  | ok p =>
    rw [hdraft] at hd
    cases hd
    rw [Event.ticketId, (Event.new_ok hdraft).2.2.2.1]

theorem run_recordShellSessionStart (disk : Disk) (now : UInt64) (t sessionId operator transport : String)
    (s : TicketEngine) :
    ((Call.recordShellSessionStart disk now t sessionId operator transport).run (exec env) s).2 =
      (appendTicketEvent env (.shellSessionStarted t sessionId operator transport now) now disk s).2 := by
  unfold Call.recordShellSessionStart Call.startShellSession
  rw [Prog.run_bind, Prog.run_bind, run_appendTicketEvent]
  rcases appendTicketEvent env (.shellSessionStarted t sessionId operator transport now) now disk s with ⟨_ | _, s'⟩ <;> rfl

/-- With the ticket and the session in order, a start record that is appended puts a new session into the ticket,
once, and adds nothing else. -/
theorem start_in_order {t sessionId operator transport : String} {x : Event × SignedObject}
    (hfresh : ∀ y ∈ s.state.listShellSessions t, y.id ≠ sessionId)
    (h : appendTicketEvent env (.shellSessionStarted t sessionId operator transport now) now disk s = (.ok x, s')) :
    RecordedOnce s' t sessionId operator ∧ OnlyAbout s s' t := by
  have habout := @append_onlyAbout env (.shellSessionStarted t sessionId operator transport now) now disk s
  rw [h] at habout
  refine ⟨?_, habout⟩
  obtain ⟨hpay, -, happ, hst⟩ := append_ok h
  rcases @TicketReducer.get_step_applied env _ _ _ hpay happ with ⟨_, _, _, _, _, hte, -⟩ | ⟨a, a', ha, hget, heff⟩
  · cases hte
  · have ha : s.state.get t = some a := ha
    rw [← hst] at hget
    have hnew : sessionId ∉ a.shellSessions.map ShellSessionRecord.id := by
      simpa [TicketStateStore.listShellSessions, ha] using hfresh
    have hfilter : a.shellSessions.filter (fun y => y.id = sessionId) = [] := by
      simpa [List.filter_eq_nil_iff] using hnew
    cases heff with
    | idle hidle => exact absurd hidle hnew
    | started =>
      have hget : s'.state.get t = some _ := hget
      simp [RecordedOnce, TicketStateStore.listShellSessions, hget, TicketAggregate.touch, hfilter]

end TicketEngine

/-! ## The task's part -/

variable {env : ShellEnv} {node : ManagedNode} {s : ShellState} {i : Nat} {task : ShellTask}

/-- What the start record of a task appends. -/
theorem recordStart_engine (htask : s.tasks[i]? = some task) (disk : Disk) (now : UInt64) :
    (s.step env node (.recordStart i disk now)).engine =
      (appendTicketEvent env.toEnv (.shellSessionStarted task.sessionId task.ticketId task.operatorTransport
        "QUIC/shell-next" now) now disk s.engine).2 := by
  simp only [ShellState.step, ShellState.recordStart, htask]
  exact run_recordShellSessionStart disk now task.sessionId task.ticketId task.operatorTransport "QUIC/shell-next" s.engine

/-- No session is audited. Its start record leaves the sessions of the ticket it was admitted for as they were, so
that a new session is not among them, and what it adds to the graph is about the session's id as if it were a
ticket. -/
theorem shell_session_unaudited (htask : s.tasks[i]? = some task) (hnew : task.sessionId ≠ task.ticketId)
    (hfresh : ∀ x ∈ s.engine.state.listShellSessions task.ticketId, x.id ≠ task.sessionId) (disk : Disk) (now : UInt64) :
    (∀ serving ended result, ¬ Audited s.engine (s.step env node (.recordStart i disk now)).engine serving ended
      task.ticketId task.sessionId task.operatorTransport result) ∧
    OnlyAbout s.engine (s.step env node (.recordStart i disk now)).engine task.sessionId := by
  rw [recordStart_engine htask]
  refine ⟨fun serving ended result haud => ?_, append_onlyAbout _ now disk s.engine⟩
  have hsame := @append_get_of_ne env.toEnv (.shellSessionStarted task.sessionId task.ticketId
    task.operatorTransport "QUIC/shell-next" now) _ hnew now disk s.engine
  have hrec := haud.recorded
  simp only [RecordedOnce, TicketStateStore.listShellSessions, hsame] at hrec
  have hnone : ((s.engine.state.get task.ticketId).map TicketAggregate.shellSessions |>.getD []).filter
      (fun x => x.id = task.sessionId) = [] := by
    simpa [List.filter_eq_nil_iff, TicketStateStore.listShellSessions] using hfresh
  rw [hnone] at hrec
  cases hrec

/-! ## A sample: the session of the handshake that was granted -/

namespace ShellSample

def spawned : ShellState := (shellMachine shellEnv managed).step holding (.authorize true "5e551011")

def serving : ShellState := (shellMachine shellEnv managed).step spawned (.recordStart 0 diskOk 100)

def opTask : ShellTask := ⟨"5e551011", "T-aaaaaaaa", "op", 1000, .spawned⟩

/-- The node has admitted the shell and recorded its start, the ticket has no session, and there is an event for a
ticket with the id of the session. -/
theorem shell_session_lost :
    (shellMachine shellEnv managed).Reachable serving ∧ spawned.tasks = [opTask] ∧
    serving.engine.state.listShellSessions "T-aaaaaaaa" = [] ∧
    serving.engine.graph.events.map Event.ticketId = [some "T-aaaaaaaa", some "5e551011"] := by
  have htask : spawned.tasks = [opTask] := by decide +kernel
  have h₁ : (shellMachine shellEnv managed).Reachable spawned :=
    holding_reachable.step (a := .authorize true "5e551011") ⟨granted, holding_acquired⟩
  have h₂ : (shellMachine shellEnv managed).Reachable serving :=
    h₁.step (a := .recordStart 0 diskOk 100) ⟨opTask, by rw [htask]; rfl, rfl⟩
  exact ⟨h₂, htask, by decide +kernel, by decide +kernel⟩

/-- The theorem at the sample. -/
theorem shell_session_unaudited_spawned :
    OnlyAbout spawned.engine serving.engine "5e551011" ∧ ∀ ended result,
      ¬ Audited spawned.engine serving.engine serving.engine ended "T-aaaaaaaa" "5e551011" "op" result := by
  have htask : spawned.tasks[0]? = some opTask := by
    have : spawned.tasks = [opTask] := by decide +kernel
    rw [this]; rfl
  obtain ⟨hno, hab⟩ := @shell_session_unaudited shellEnv managed _ _ _ htask (by decide)
    (by decide +kernel) diskOk 100
  exact ⟨hab, hno serving.engine⟩

end ShellSample

end Fortiq
