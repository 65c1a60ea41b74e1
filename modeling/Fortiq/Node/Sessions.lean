/-
The life of a shell session. From the exchange that takes the place to the guard that gives it back there is one
session, every step of its own brings it nearer to its end, and nothing else touches the flag.
-/
import Fortiq.Node.Audit

namespace Fortiq

open TicketEngine

/-! ## The place -/

/-- The steps a session takes until its end. -/
def ShellPhase.left : ShellPhase → Nat
  | spawned => 4
  | serving => 3
  | ended _ => 2
  | recorded => 1

theorem ShellPhase.left_pos (p : ShellPhase) : 0 < p.left := by cases p <;> exact Nat.succ_pos _

/-- A step of the session that holds the place: of its handler, or of its task with the watcher and the guard. -/
def ShellLabel.ofSession : ShellLabel → Bool
  | authorize _ _ | recordStart _ _ _ | poll _ _ | serveEnds _ _ | recordEnd _ _ _ _ | dropGuard _ => true
  | _ => false

namespace ShellState

variable {env : ShellEnv} {node : ManagedNode} {s s' : ShellState} {l : ShellLabel} {i : Nat} {phase : ShellPhase}

/-- What a step does to the sessions. -/
inductive TaskStep (s : ShellState) (l : ShellLabel) : ShellState → Prop
  | aside {s' : ShellState} (other : l.ofSession = false) (tasks : s'.tasks = s.tasks) : TaskStep s l s'
  | finds : TaskStep s l s
  | releases {a : Admission} {s' : ShellState} (acquired : s.handling = some (.acquired a)) (handling : s'.handling = none)
      (tasks : s'.tasks = s.tasks) : TaskStep s l s'
  | spawns {a : Admission} {sessionId : String} {task : ShellTask} {s' : ShellState}
      (label : l = .authorize true sessionId) (acquired : s.handling = some (.acquired a)) (handling : s'.handling = none)
      (tasks : s'.tasks = s.tasks ++ [task]) (id : task.sessionId = sessionId) (fresh : task.phase = .spawned) :
      TaskStep s l s'
  | advances {i : Nat} {p q : ShellPhase} {s' : ShellState} (task : s.TaskIn i p) (less : q.left < p.left)
      (handling : s'.handling = s.handling) (tasks : s'.tasks = s.tasks.modify i fun x => { x with phase := q }) :
      TaskStep s l s'
  | ends {i : Nat} {s' : ShellState} (task : s.TaskIn i .recorded) (handling : s'.handling = s.handling)
      (tasks : s'.tasks = s.tasks.eraseIdx i) : TaskStep s l s'

theorem tasks_of_other (hl : s.Enabled env node l) (hown : l.ofSession = false) : (s.step env node l).tasks = s.tasks := by
  cases l with
  | handshake input now =>
    obtain ⟨peer, challenge, hh, -⟩ := hl
    simp only [step, hh]
    cases receive env node s.engine peer challenge input now <;> rfl
  | acquire =>
    obtain ⟨a, hh⟩ := hl
    simp only [step, hh]
    cases s.activeShells <;> rfl
  | sign key m => rfl
  | work a => rfl
  | accept peer challenge => rfl
  | streamFails => rfl
  | _ => cases hown

theorem taskStep (hl : s.Enabled env node l) : TaskStep s l (s.step env node l) := by
  cases l with
  | authorize written sessionId =>
    obtain ⟨a, ha⟩ := hl
    simp only [step, ha]
    cases written with
    | true => exact .spawns rfl ha rfl rfl rfl rfl
    | false => exact .releases ha rfl rfl
  | recordStart i disk now =>
    obtain ⟨task, ht, hp⟩ := hl
    simp only [step, recordStart, ht]
    exact .advances ⟨task, ht, hp⟩ (by decide) rfl rfl
  | poll i now =>
    obtain ⟨task, ht, hp⟩ := hl
    simp only [step, ht]
    cases s.watchedValid task now with
    | true => exact .finds
    | false => exact .advances ⟨task, ht, hp⟩ (by decide) rfl rfl
  | serveEnds i ok => exact .advances (q := .ended ok) hl (by simp [ShellPhase.left]) rfl rfl
  | recordEnd i disk now order =>
    obtain ⟨ok, task, ht, hp⟩ := hl
    simp only [step, recordEnd, ht]
    exact .advances (q := .recorded) ⟨task, ht, hp⟩ (by simp [ShellPhase.left]) rfl rfl
  | dropGuard i => exact .ends hl rfl rfl
  | _ => exact .aside rfl (tasks_of_other hl rfl)

/-! ## The place -/

/-- The sessions between their admission and their end. -/
def admitted (s : ShellState) : Nat := s.acquiring + s.tasks.length

/-- The steps that are left to the sessions. -/
def left (s : ShellState) : Nat := 5 * s.acquiring + (s.tasks.map fun task => task.phase.left).sum

theorem Exclusive.admitted_le (h : s.Exclusive) : s.admitted ≤ 1 := h.trans_le s.activeShells.toNat_le

theorem Exclusive.active_iff (h : s.Exclusive) : s.activeShells = true ↔ s.admitted = 1 := by
  rw [admitted, h]
  cases s.activeShells <;> simp

/-- A task is alone, and the handler holds no place. -/
theorem Exclusive.of_task (h : s.Exclusive) (ht : s.TaskIn i phase) :
    ∃ task, s.tasks = [task] ∧ i = 0 ∧ task.phase = phase ∧ s.acquiring = 0 := by
  obtain ⟨task, ht, hp⟩ := ht
  obtain ⟨hi, -⟩ := List.getElem?_eq_some_iff.1 ht
  have hle := h.admitted_le
  unfold admitted at hle
  obtain ⟨x, hx⟩ := List.length_eq_one_iff.1 (by omega : s.tasks.length = 1)
  obtain rfl : i = 0 := by rw [hx] at hi; simpa using hi
  rw [hx] at ht
  cases ht
  exact ⟨task, hx, rfl, hp, by omega⟩

/-- A handler with the place is alone. -/
theorem Exclusive.of_acquired (h : s.Exclusive) {a : Admission} (ha : s.handling = some (.acquired a)) :
    s.acquiring = 1 ∧ s.tasks = [] := by
  have hone : s.acquiring = 1 := by simp [acquiring, ha]
  have hle := h.admitted_le
  unfold admitted at hle
  exact ⟨hone, List.eq_nil_of_length_eq_zero (by omega)⟩

theorem acquiring_congr (h : s'.handling = s.handling) : s'.acquiring = s.acquiring := by rw [acquiring, acquiring, h]

theorem acquiring_none (h : s.handling = none) : s.acquiring = 0 := by rw [acquiring, h]

theorem acquired_of_acquiring (h : s.acquiring ≠ 0) : ∃ a, s.handling = some (.acquired a) := by
  cases hh : s.handling with
  | none => exact absurd (acquiring_none hh) h
  | some hd =>
    cases hd with
    | acquired a => exact ⟨a, rfl⟩
    | _ => exact absurd (by rw [acquiring, hh]) h

/-- Every step of the session brings it nearer to its end, but for a poll that finds nothing. -/
theorem TaskStep.left_lt (ht : TaskStep s l s') (h : s.Exclusive) (hown : l.ofSession = true) :
    s' = s ∨ s'.left < s.left := by
  cases ht with
  | aside other tasks => rw [other] at hown; cases hown
  | finds => exact .inl rfl
  | releases acquired handling tasks =>
    obtain ⟨hone, hnil⟩ := h.of_acquired acquired
    right
    simp [left, tasks, hone, hnil, acquiring_none handling]
  | spawns label acquired handling tasks id fresh =>
    obtain ⟨hone, hnil⟩ := h.of_acquired acquired
    right
    simp [left, tasks, hone, hnil, acquiring_none handling, fresh, ShellPhase.left]
  | advances task less handling tasks =>
    obtain ⟨x, hx, rfl, rfl, -⟩ := h.of_task task
    right
    simp [left, tasks, hx, acquiring_congr handling, less]
  | ends task handling tasks =>
    obtain ⟨x, hx, rfl, hp, -⟩ := h.of_task task
    right
    simp [left, tasks, hx, acquiring_congr handling, x.phase.left_pos]

/-- The session that holds the place can take a step. -/
theorem Exclusive.session_enabled (h : s.Exclusive) (hactive : s.activeShells = true) :
    ∃ l : ShellLabel, l.ofSession = true ∧ s.Enabled env node l := by
  have hone := h.active_iff.1 hactive
  unfold admitted at hone
  by_cases hacq : s.acquiring = 0
  · obtain ⟨task, ht⟩ := List.length_eq_one_iff.1 (by omega : s.tasks.length = 1)
    have hin : s.TaskIn 0 task.phase := ⟨task, by rw [ht]; rfl, rfl⟩
    cases hp : task.phase with
    | spawned =>
      rw [hp] at hin
      exact ⟨.recordStart 0 diskOk 0, rfl, hin⟩
    | serving =>
      rw [hp] at hin
      exact ⟨.serveEnds 0 true, rfl, hin⟩
    | ended ok =>
      rw [hp] at hin
      exact ⟨.recordEnd 0 diskOk 0 id, rfl, ok, hin⟩
    | recorded =>
      rw [hp] at hin
      exact ⟨.dropGuard 0, rfl, hin⟩
  · obtain ⟨a, ha⟩ := acquired_of_acquiring hacq
    exact ⟨.authorize true "", rfl, a, ha⟩

theorem Exclusive.active_iff_left (h : s.Exclusive) : s.activeShells = true ↔ 0 < s.left := by
  rw [h.active_iff, admitted, left]
  have hle := h.admitted_le
  unfold admitted at hle
  cases htasks : s.tasks with
  | nil => simp; omega
  | cons task rest =>
    have := task.phase.left_pos
    rw [htasks] at hle
    simp at hle ⊢
    omega

/-- A step that is not the session's leaves the flag, unless it takes the place. -/
theorem flag_of_other (hl : s.Enabled env node l) (hown : l.ofSession = false)
    (hchange : (s.step env node l).activeShells ≠ s.activeShells) : l = .acquire ∧ s.activeShells = false := by
  cases l with
  | handshake input now =>
    obtain ⟨peer, challenge, hh, -⟩ := hl
    refine absurd ?_ hchange
    simp only [step, hh]
    cases receive env node s.engine peer challenge input now <;> rfl
  | acquire =>
    obtain ⟨a, hh⟩ := hl
    simp only [step, hh] at hchange
    cases hflag : s.activeShells with
    | false => exact ⟨rfl, rfl⟩
    | true => simp [hflag] at hchange
  | sign key m => exact absurd rfl hchange
  | work a => exact absurd rfl hchange
  | accept peer challenge => exact absurd rfl hchange
  | streamFails => exact absurd rfl hchange
  | _ => cases hown

end ShellState

variable {env : ShellEnv} {node : ManagedNode} {s : ShellState}

/-- A single shell is active. In every state there is at most one admitted session, and the flag is set exactly while
there is one; the flag changes only when a session is admitted that no other one precedes, or by a step of the session
that holds it, which is then at its end; and a session that holds it has a step to take, each of which, but for a poll
that finds nothing, leaves it fewer steps to the release. -/
theorem single_active_shell (h : (shellMachine env node).Reachable s) :
    s.admitted ≤ 1 ∧ (s.activeShells = true ↔ s.admitted = 1) ∧ (s.activeShells = true ↔ 0 < s.left) ∧
    (∀ l, s.Enabled env node l → (s.step env node l).activeShells ≠ s.activeShells →
      (l = .acquire ∧ s.admitted = 0 ∧ (s.step env node l).admitted = 1) ∨
      (l.ofSession = true ∧ s.admitted = 1 ∧ (s.step env node l).admitted = 0)) ∧
    (s.activeShells = true → ∃ l : ShellLabel, l.ofSession = true ∧ s.Enabled env node l) ∧
    ∀ l, s.Enabled env node l → l.ofSession = true →
      s.step env node l = s ∨ (s.step env node l).left < s.left := by
  have hex := exclusive_of_reachable h
  refine ⟨hex.admitted_le, hex.active_iff, hex.active_iff_left, fun l hl hchange => ?_, hex.session_enabled,
    fun l hl hown => (ShellState.taskStep hl).left_lt hex hown⟩
  have hex' := (ShellState.moves_step hl).exclusive hex
  have hcount : s.admitted = s.activeShells.toNat := hex
  have hcount' : (s.step env node l).admitted = (s.step env node l).activeShells.toNat := hex'
  cases hown : l.ofSession with
  | false =>
    obtain ⟨rfl, hfree⟩ := ShellState.flag_of_other hl hown hchange
    rw [hfree] at hchange hcount
    rw [Bool.eq_true_of_not_eq_false hchange] at hcount'
    exact .inl ⟨rfl, hcount, hcount'⟩
  | true =>
    -- a step of the session finds the flag set
    have hactive : s.activeShells = true := by
      by_contra hfree
      have hnone : ¬ 0 < s.left := fun hpos => hfree (hex.active_iff_left.2 hpos)
      rcases (ShellState.taskStep hl).left_lt hex hown with heq | hlt
      · exact hchange (by rw [heq])
      · omega
    rw [hactive] at hchange hcount
    rw [Bool.eq_false_of_not_eq_true hchange] at hcount'
    exact .inr ⟨rfl, hcount, hcount'⟩

open ShellSample in
/-- The theorem at a handler that has taken the place: five steps are left to the session. -/
theorem single_active_shell_holding :
    holding.activeShells = true ∧ holding.admitted = 1 ∧ holding.left = 5 ∧
    (holding.step shellEnv managed (.authorize false "")).activeShells = false := by
  obtain ⟨hactive, hleft, hreleased⟩ : holding.activeShells = true ∧ holding.left = 5 ∧
      (holding.step shellEnv managed (.authorize false "")).activeShells = false := by decide +kernel
  exact ⟨hactive, (single_active_shell holding_reachable).2.1.1 hactive, hleft, hreleased⟩

end Fortiq
