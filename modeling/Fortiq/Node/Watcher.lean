/-
The watcher of a shell session (`handle_incoming_shell_next` in `fortiq-p2p/src/node.rs`). The task of a session runs
`serve` and the watcher in one `select!`. Every 250 ms the watcher looks at the ticket, and if that permits no work it
ends the `select!`, which drops the future of `serve`. What it sees is the state of the moment, so a ticket that is
resolved and taken up again between two polls ends no session. And what it drops is the future only: the operator is not
heard any more, but the tasks of the future, and with them the shell, are left to run.
-/
import Fortiq.Node.Sessions
import Fortiq.Shell.Served

namespace Fortiq

open TicketEngine

/-! ## A node with its shells -/

structure WatchedState where
  state : ShellState
  /-- By the id of the session, from the call of `serve` on. -/
  shells : String → Option ServedShell

inductive WatchedLabel where
  | node (l : ShellLabel)
  | shell (sessionId : String) (l : ServeLabel)

namespace WatchedState

/-- The shells after a step of the node: `serve` is called when the start of the session is recorded, and dropped by a
poll that ends the session. -/
def react (w : WatchedState) : ShellLabel → String → Option ServedShell
  | .recordStart i _ _ =>
    match w.state.tasks[i]? with
    | none => w.shells
    | some task => Function.update w.shells task.sessionId (some .new)
  | .poll i now =>
    match w.state.tasks[i]? with
    | none => w.shells
    | some task =>
      if w.state.watchedValid task now then w.shells
      else Function.update w.shells task.sessionId ((w.shells task.sessionId).map ServedShell.drop)
  | _ => w.shells

/-- What the steps of a task wait for: the uuid of a session is new, the first poll comes 250 ms after the first step of
`serve`, and `serve` ends as it has returned. -/
def Permits (w : WatchedState) : ShellLabel → Prop
  | .authorize _ sessionId => w.shells sessionId = none
  | .poll i _ => ∀ task x, w.state.tasks[i]? = some task → w.shells task.sessionId = some x → x.phase ≠ .starting
  | .serveEnds i ok => ∀ task x, w.state.tasks[i]? = some task → w.shells task.sessionId = some x →
      x.phase = .returned ok
  | _ => True

variable (env : ShellEnv) (node : ManagedNode)

def step (w : WatchedState) : WatchedLabel → WatchedState
  | .node l => { state := w.state.step env node l, shells := w.react l }
  | .shell sessionId l =>
    { w with shells := Function.update w.shells sessionId ((w.shells sessionId).map fun x => x.step l) }

def Enabled (w : WatchedState) : WatchedLabel → Prop
  | .node l => w.state.Enabled env node l ∧ w.Permits l
  | .shell sessionId l => ∃ x, w.shells sessionId = some x ∧ x.Enabled l

/-- The frames heard from the operator in a session. -/
def heard (w : WatchedState) (sessionId : String) : Option (List ShellFrame) :=
  (w.shells sessionId).map ServedShell.heard

/-- The output that has gone to the operator of a session, and what has been typed into its shell. -/
def exchanged (w : WatchedState) (sessionId : String) : Option (List UInt8 × List (List UInt8)) :=
  (w.shells sessionId).map ServedShell.exchanged

end WatchedState

def watchedMachine (env : ShellEnv) (node : ManagedNode) : Machine WatchedState WatchedLabel where
  start := fun w => (shellMachine env node).start w.state ∧ ∀ sessionId, w.shells sessionId = none
  enabled := fun w l => w.Enabled env node l
  step := fun w l => w.step env node l

variable {env : ShellEnv} {node : ManagedNode}

instance (w : WatchedState) (sessionId : String) (l : ServeLabel) :
    Decidable ((watchedMachine env node).enabled w (.shell sessionId l)) :=
  decidable_of_iff ((w.shells sessionId).any fun x => decide (x.Enabled l))
    (by simp [watchedMachine, WatchedState.Enabled, Option.any_eq_true])

/-! ## Sessions and shells -/

namespace WatchedState

variable {w w' : WatchedState} {l : WatchedLabel} {sessionId : String} {x y : ServedShell}

/-- The node takes the steps of the node by itself. -/
theorem reachable_state (h : (watchedMachine env node).Reachable w) : (shellMachine env node).Reachable w.state := by
  refine h.invariant (I := fun w => (shellMachine env node).Reachable w.state) (fun w hw => ?_) fun w l hl hw => ?_
  · exact .of_start hw.1
  · cases l with
    | node l => exact hw.step hl.1
    | shell sessionId l => exact hw

theorem exclusive_step (hl : w.Enabled env node l) (h : w.state.Exclusive) : (w.step env node l).state.Exclusive := by
  cases l with
  | node l => exact (ShellState.moves_step hl.1).exclusive h
  | shell sessionId l => exact h

/-- A session that is still to be served has no shell, and one that is served has one. -/
def Linked (w : WatchedState) : Prop := ∀ task ∈ w.state.tasks,
  (task.phase = .spawned → w.shells task.sessionId = none) ∧
  (task.phase = .serving → (w.shells task.sessionId).isSome = true)

theorem Linked.step (h : w.Linked) (hex : w.state.Exclusive) (hl : w.Enabled env node l) :
    (w.step env node l).Linked := by
  intro task ht
  cases l with
  | shell sessionId l =>
    obtain ⟨x, hx, -⟩ := hl
    obtain ⟨hspawned, hserving⟩ := h task ht
    simp only [WatchedState.step, hx]
    by_cases hid : task.sessionId = sessionId
    · subst hid
      simp only [Function.update_self]
      refine ⟨fun hp => ?_, fun _ => rfl⟩
      rw [hspawned hp] at hx
      cases hx
    · simpa only [Function.update_of_ne hid] using ⟨hspawned, hserving⟩
  | node l =>
    obtain ⟨hl, hpermit⟩ := hl
    cases l with
    | authorize written sessionId =>
      obtain ⟨a, ha⟩ := hl
      obtain ⟨-, hnil⟩ := hex.of_acquired ha
      cases written with
      | false => simp [WatchedState.step, ShellState.step, ha, hnil] at ht
      | true =>
        simp only [WatchedState.step, ShellState.step, ha, hnil, if_true, List.nil_append, List.mem_singleton] at ht
        subst ht
        exact ⟨fun _ => hpermit, by rintro ⟨⟩⟩
    | recordStart i disk now =>
      obtain ⟨x, hx, rfl, -, -⟩ := hex.of_task hl
      simp only [WatchedState.step, ShellState.step, ShellState.recordStart, react, hx, List.getElem?_cons_zero,
        ShellState.setPhase, List.modify_zero_cons, List.mem_singleton] at ht ⊢
      subst ht
      exact ⟨by rintro ⟨⟩, fun _ => by rw [Function.update_self]; rfl⟩
    | poll i now =>
      obtain ⟨x, hx, rfl, hp, -⟩ := hex.of_task hl
      have hserving := (h x (by rw [hx]; exact List.mem_singleton_self x)).2 hp
      simp only [WatchedState.step, ShellState.step, react, hx, List.getElem?_cons_zero] at ht ⊢
      cases hvalid : w.state.watchedValid x now with
      | true =>
        simp only [hvalid, if_true] at ht ⊢
        exact h task ht
      | false =>
        simp only [hvalid, Bool.false_eq_true, if_false, ShellState.setPhase, hx, List.modify_zero_cons,
          List.mem_singleton] at ht
        subst ht
        exact ⟨by rintro ⟨⟩, by rintro ⟨⟩⟩
    | serveEnds i ok =>
      obtain ⟨x, hx, rfl, -, -⟩ := hex.of_task hl
      simp only [WatchedState.step, ShellState.step, ShellState.setPhase, hx, List.modify_zero_cons,
        List.mem_singleton] at ht
      subst ht
      exact ⟨by rintro ⟨⟩, by rintro ⟨⟩⟩
    | recordEnd i disk now order =>
      obtain ⟨ok, hl⟩ := hl
      obtain ⟨x, hx, rfl, -, -⟩ := hex.of_task hl
      simp only [WatchedState.step, ShellState.step, ShellState.recordEnd, hx, List.getElem?_cons_zero,
        ShellState.setPhase, List.modify_zero_cons, List.mem_singleton] at ht
      subst ht
      exact ⟨by rintro ⟨⟩, by rintro ⟨⟩⟩
    | dropGuard i =>
      obtain ⟨x, hx, rfl, -, -⟩ := hex.of_task hl
      simp [WatchedState.step, ShellState.step, hx] at ht
    | _ =>
      have htasks := ShellState.tasks_of_other hl rfl
      exact h task (htasks ▸ ht)

theorem linked_of_reachable (h : (watchedMachine env node).Reachable w) : w.Linked := by
  have hboth : w.state.Exclusive ∧ w.Linked := by
    refine h.invariant (I := fun w => w.state.Exclusive ∧ w.Linked) (fun w hw => ?_) fun w l hl hw =>
      ⟨exclusive_step hl hw.1, hw.2.step hw.1 hl⟩
    refine ⟨exclusive_of_reachable (.of_start hw.1), fun task ht => ?_⟩
    rw [hw.1.2.2] at ht
    cases ht
  exact hboth.2

/-- A shell whose future is gone changes by steps of its own tasks only. -/
theorem shells_step (h : w.Linked) (hl : w.Enabled env node l) (hx : w.shells sessionId = some x)
    (hover : x.phase.over = true) : (w.step env node l).shells sessionId = some x ∨
      ∃ k, x.Enabled k ∧ (w.step env node l).shells sessionId = some (x.step k) := by
  cases l with
  | shell id k =>
    obtain ⟨y, hy, hk⟩ := hl
    by_cases hid : sessionId = id
    · subst hid
      obtain rfl : x = y := Option.some.inj (hx.symm.trans hy)
      exact .inr ⟨k, hk, by simp [step, hx]⟩
    · exact .inl (by simpa [step, Function.update_of_ne hid] using hx)
  | node l =>
    obtain ⟨hl, -⟩ := hl
    left
    cases l with
    | recordStart i disk now =>
      obtain ⟨task, ht, hp⟩ := hl
      have hnone := (h task (List.mem_of_getElem? ht)).1 hp
      have hid : sessionId ≠ task.sessionId := by
        rintro rfl
        rw [hx] at hnone
        cases hnone
      simpa only [step, react, ht, Function.update_of_ne hid] using hx
    | poll i now =>
      obtain ⟨task, ht, hp⟩ := hl
      simp only [step, react, ht]
      split
      · exact hx
      · by_cases hid : sessionId = task.sessionId
        · subst hid
          rw [Function.update_self, hx, Option.map_some, ServedShell.drop_of_over hover]
        · rw [Function.update_of_ne hid, hx]
    | _ => exact hx

/-- What the tasks of a shell can do by themselves they can do in the node. -/
theorem run_shell (hx : w.shells sessionId = some x) (hr : servedMachine.Run x y) :
    (watchedMachine env node).Run w { w with shells := Function.update w.shells sessionId (some y) } := by
  induction hr with
  | refl =>
    rw [← hx, Function.update_eq_self]
    exact .refl
  | @tail y hr k hk ih =>
    have hstep := ih.tail (.shell sessionId k) ⟨y, Function.update_self .., hk⟩
    simpa [watchedMachine, step, servedMachine] using hstep

end WatchedState

/-! ## The watcher -/

namespace ShellState

variable {s s' : ShellState} {l : ShellLabel} {i : Nat} {task : ShellTask} {sessionId : String}

/-- The ticket permits work. -/
def Working (s : ShellState) (t : String) : Bool :=
  (s.engine.state.getTicket t).any fun ticket => ticket.state.permitsWork

/-- The tasks of sessions with the id are past their `select!`, and at most have the end still to record. -/
def Over (s : ShellState) (sessionId : String) : Prop :=
  ∀ task ∈ s.tasks, task.sessionId = sessionId → task.phase.left ≤ 2

theorem invalid_of_stop (hstop : s.Working task.ticketId = false) (now : UInt64) : s.watchedValid task now = false := by
  unfold Working at hstop
  rw [watchedValid, hstop, Bool.false_and]

/-- A poll ends the session of a ticket that does not permit work. -/
theorem Exclusive.over_of_poll (h : s.Exclusive) (htask : s.tasks[i]? = some task) (hserved : task.phase = .serving)
    (hstop : s.Working task.ticketId = false) (now : UInt64) :
    (s.step env node (.poll i now)).Over task.sessionId := by
  obtain ⟨x, hx, rfl, -, -⟩ := h.of_task ⟨task, htask, hserved⟩
  rw [hx] at htask
  cases htask
  intro y hy _
  simp only [step, hx, List.getElem?_cons_zero, invalid_of_stop hstop now, setPhase, List.modify_zero_cons,
    List.mem_singleton, Bool.false_eq_true, if_false] at hy
  rw [hy]
  exact le_rfl

/-- A session that is over stays so, as long as its id is given to no other. -/
theorem TaskStep.over (ht : TaskStep s l s') (hid : ∀ written, l ≠ .authorize written sessionId)
    (h : s.Over sessionId) : s'.Over sessionId := by
  intro y hy hyid
  cases ht with
  | aside other tasks => exact h y (tasks ▸ hy) hyid
  | finds => exact h y hy hyid
  | releases acquired handling tasks => exact h y (tasks ▸ hy) hyid
  | spawns label acquired handling tasks id fresh =>
    rw [tasks, List.mem_append, List.mem_singleton] at hy
    rcases hy with hy | rfl
    · exact h y hy hyid
    · exact absurd (label.trans (by rw [← id, hyid])) (hid true)
  | @advances i p q s' task less handling tasks =>
    obtain ⟨x, hx, rfl⟩ := task
    rw [tasks] at hy
    obtain ⟨j, hj, rfl⟩ := List.getElem_of_mem hy
    rw [List.getElem_modify] at hyid ⊢
    split at hyid
    · rename_i hij
      subst hij
      have hmem := List.mem_of_getElem? hx
      obtain ⟨hj', rfl⟩ := List.getElem?_eq_some_iff.1 hx
      simp only [if_true]
      exact less.le.trans (h _ hmem hyid)
    · rename_i hij
      rw [if_neg hij]
      exact h _ (List.getElem_mem _) hyid
  | ends task handling tasks => exact h y (List.mem_of_mem_eraseIdx (tasks ▸ hy)) hyid

end ShellState

namespace WatchedState

variable {w w' : WatchedState} {sessionId : String} {x : ServedShell}

/-- A session that is past its `select!`, with its shell as its tasks have brought it there from `x`. -/
structure Abandoned (x : ServedShell) (sessionId : String) (w : WatchedState) : Prop where
  exclusive : w.state.Exclusive
  linked : w.Linked
  ended : w.state.Over sessionId
  shell : ∃ y, w.shells sessionId = some y ∧ servedMachine.Run x y

theorem Abandoned.step {l : WatchedLabel} (h : w.Abandoned x sessionId) (hover : x.phase.over = true)
    (hl : w.Enabled env node l) : (w.step env node l).Abandoned x sessionId := by
  obtain ⟨y, hy, hr⟩ := h.shell
  refine ⟨exclusive_step hl h.exclusive, h.linked.step h.exclusive hl, ?_, ?_⟩
  · cases l with
    | shell id k => exact h.ended
    | node l =>
      refine (ShellState.taskStep hl.1).over (fun written heq => ?_) h.ended
      -- the uuid would not be new
      subst heq
      have hfresh : w.shells sessionId = none := hl.2
      rw [hy] at hfresh
      cases hfresh
  · rcases shells_step h.linked hl hy (ServedShell.run_of_over hr hover).1 with hsame | ⟨k, hk, hstep⟩
    · exact ⟨y, hsame, hr⟩
    · exact ⟨_, hstep, hr.tail k hk⟩

/-- Along every later run nothing is heard from the operator, and the exchange stands still if and only if shell and
operator are cut off. -/
theorem Abandoned.run (h : w.Abandoned x sessionId) (hx : w.shells sessionId = some x) (hover : x.phase.over = true) :
    (∀ w', (watchedMachine env node).Run w w' → w'.state.Over sessionId ∧ w'.heard sessionId = some x.heard) ∧
    ((∀ w', (watchedMachine env node).Run w w' → w'.exchanged sessionId = some x.exchanged) ↔ x.Cut) := by
  have hkept : ∀ w', (watchedMachine env node).Run w w' → w'.Abandoned x sessionId := fun w' hr =>
    hr.keeps (I := fun w => w.Abandoned x sessionId) (fun u l hl hu => hu.step hover hl) h
  refine ⟨fun w' hr => ?_, ?_⟩
  · obtain ⟨y, hy, hxy⟩ := (hkept w' hr).shell
    refine ⟨(hkept w' hr).ended, ?_⟩
    rw [heard, hy, Option.map_some, (ServedShell.run_of_over hxy hover).2]
  · rw [← ServedShell.cut_iff hover]
    constructor
    · intro hstill y hxy
      have hy := hstill _ (run_shell hx hxy)
      simpa [exchanged] using hy
    · intro hstill w' hr
      obtain ⟨y, hy, hxy⟩ := (hkept w' hr).shell
      rw [exchanged, hy, Option.map_some, hstill y hxy]

end WatchedState

/-- A ticket that has been resolved or closed, and is not taken up again before the next poll: that poll ends the
session. From then on its task is past serving and nothing is heard from the operator, whatever happens to the ticket.
But the shell is out of reach, with no output to the operator and no input from them in any later run, exactly if
the two were cut off before the poll; otherwise what the dropped future leaves running carries on. -/
theorem shell_ends_at_poll {w₀ w : WatchedState} {i : Nat} {task : ShellTask} {ticket : TicketRecord}
    (h : (watchedMachine env node).Reachable w₀)
    (hticket : w₀.state.engine.state.getTicket task.ticketId = some ticket)
    (hentered : ticket.state = .resolved ∨ ticket.state = .closed)
    (hrun : ((watchedMachine env node).restrict fun w l => w.state.Working task.ticketId = false →
      (w.step env node l).state.Working task.ticketId = false).Run w₀ w)
    (htask : w.state.tasks[i]? = some task) {now : UInt64} (hpoll : w.Enabled env node (.node (.poll i now))) :
    ∃ x, w.shells task.sessionId = some x ∧
      (∀ w', (watchedMachine env node).Run (w.step env node (.node (.poll i now))) w' →
        w'.state.Over task.sessionId ∧ w'.heard task.sessionId = some x.heard) ∧
      ((∀ w', (watchedMachine env node).Run (w.step env node (.node (.poll i now))) w' →
        w'.exchanged task.sessionId = some x.exchanged) ↔ x.Cut) := by
  have hstop : w₀.state.Working task.ticketId = false := by
    rcases hentered with hst | hst <;> simp [ShellState.Working, hticket, hst, TicketState.permitsWork]
  -- along the run the ticket does not permit work, there is one session, and it has its shell
  obtain ⟨hex, hlinked, hstop⟩ : w.state.Exclusive ∧ w.Linked ∧ w.state.Working task.ticketId = false := by
    refine hrun.keeps (I := fun w => w.state.Exclusive ∧ w.Linked ∧ w.state.Working task.ticketId = false)
      (fun u l hl hu => ?_)
      ⟨exclusive_of_reachable (WatchedState.reachable_state h), WatchedState.linked_of_reachable h, hstop⟩
    obtain ⟨hl, hstay⟩ := hl
    obtain ⟨hex, hlinked, hstop⟩ := hu
    exact ⟨WatchedState.exclusive_step hl hex, hlinked.step hex hl, hstay hstop⟩
  have hserved : task.phase = .serving := by
    obtain ⟨task', ht, hp⟩ := hpoll.1
    rwa [← Option.some.inj (htask.symm.trans ht)] at hp
  obtain ⟨x, hx⟩ := Option.isSome_iff_exists.1 ((hlinked task (List.mem_of_getElem? htask)).2 hserved)
  have hdropped : (w.step env node (.node (.poll i now))).shells task.sessionId = some x.drop := by
    simp only [WatchedState.step, WatchedState.react, htask, ShellState.invalid_of_stop hstop now, Bool.false_eq_true,
      if_false, Function.update_self, hx, Option.map_some]
  have hended : (w.state.step env node (.poll i now)).Over task.sessionId := hex.over_of_poll htask hserved hstop now
  have hgone : (w.step env node (.node (.poll i now))).Abandoned x.drop task.sessionId :=
    ⟨WatchedState.exclusive_step hpoll hex, hlinked.step hex hpoll, hended, x.drop, hdropped, .refl⟩
  refine ⟨x, hx, ?_⟩
  rw [← x.heard_drop, ← x.exchanged_drop, ← x.cut_drop]
  exact hgone.run hdropped x.over_drop

/-! ## A sample: a ticket that is resolved while its shell is open -/

namespace ShellSample

def watchTable : EventTable where
  bodies := shellTable.bodies ++
    [⟨[idAt 1], 110, 3, .ticket (.statusChanged "T-aaaaaaaa" .resolved "owner" none)⟩,
     ⟨[idAt 2], 120, 4, .ticket (.statusChanged "T-aaaaaaaa" .inProgress "owner" none)⟩]

def watchEnv : ShellEnv := { shellEnv with toEnv := watchTable.env }

/-- A session is admitted, its start recorded, and its shell greeted. -/
def watched : WatchedState :=
  (watchedMachine watchEnv managed).after ⟨idle, fun _ => none⟩ [.node (.accept opPeer challenge),
    .node (.handshake input 100), .node .acquire, .node (.authorize true "5e551011"),
    .node (.recordStart 0 diskOk 100), .shell "5e551011" (.spawn true), .shell "5e551011" (.greet true)]

def resolved : WatchedState :=
  (watchedMachine watchEnv managed).step watched
    (.node (.work (.append (.statusChanged "T-aaaaaaaa" .resolved "owner" none) 110 diskOk)))

def resumed : WatchedState :=
  (watchedMachine watchEnv managed).step resolved
    (.node (.work (.append (.statusChanged "T-aaaaaaaa" .inProgress "owner" none) 120 diskOk)))

/-- The first poll after the ticket has been taken up again. -/
def polled : WatchedState := (watchedMachine watchEnv managed).step resumed (.node (.poll 0 121))

/-- A poll before that. -/
def polledEarly : WatchedState := (watchedMachine watchEnv managed).step resolved (.node (.poll 0 111))

/-- The shell prints after that poll. -/
def printed : WatchedState :=
  (watchedMachine watchEnv managed).after polledEarly [.shell "5e551011" (.print [104, 105]),
    .shell "5e551011" (.read 2), .shell "5e551011" .queue, .shell "5e551011" .send]

/-- The shell exits before the poll. -/
def exited : WatchedState := (watchedMachine watchEnv managed).step resolved (.shell "5e551011" .exit)

def watchedTask : ShellTask := { opTask with phase := .serving }

theorem watched_reachable : (watchedMachine watchEnv managed).Reachable watched := by
  refine Machine.Reachable.after _ (.of_start ⟨⟨rfl, rfl, rfl⟩, fun _ => rfl⟩)
    ⟨⟨rfl, trivial⟩, ⟨⟨opPeer, challenge, rfl, fun h hread => ?_⟩, trivial⟩, ⟨⟨granted, by decide +kernel⟩, trivial⟩,
      ⟨⟨granted, by decide +kernel⟩, rfl⟩, ⟨⟨opTask, by decide +kernel, rfl⟩, trivial⟩, by decide +kernel,
      by decide +kernel, trivial⟩
  have hanswer : input.bind (ShellNextHandshake.readFromAsync watchEnv.handshakeFromJson) = some answer := by
    decide +kernel
  rw [hanswer] at hread
  cases hread
  exact waiting_unforged

theorem resolved_reachable : (watchedMachine watchEnv managed).Reachable resolved :=
  watched_reachable.step (a := .node (.work _)) ⟨trivial, trivial⟩

/-- A step of a shell does not take a ticket back to work. -/
theorem run_shell_step {w : WatchedState} {sessionId : String} {k : ServeLabel}
    (hk : (watchedMachine watchEnv managed).enabled w (.shell sessionId k)) (t : String) :
    ((watchedMachine watchEnv managed).restrict fun w l => w.state.Working t = false →
      (w.step watchEnv managed l).state.Working t = false).Run w
      ((watchedMachine watchEnv managed).step w (.shell sessionId k)) :=
  Machine.Run.tail (M := (watchedMachine watchEnv managed).restrict _) .refl (.shell sessionId k)
    ⟨hk, fun hstop => hstop⟩

theorem resolved_serves : resolved.state.tasks[0]? = some watchedTask ∧
    (resolved.shells "5e551011").map ServedShell.phase = some .selecting := by decide +kernel

theorem can_poll {w : WatchedState} (htask : w.state.tasks[0]? = some watchedTask)
    (hphase : (w.shells "5e551011").map ServedShell.phase = some .selecting) (now : UInt64) :
    w.Enabled watchEnv managed (.node (.poll 0 now)) := by
  refine ⟨⟨watchedTask, htask, rfl⟩, fun task x ht hx => ?_⟩
  cases htask.symm.trans ht
  rw [show w.shells "5e551011" = some x from hx, Option.map_some] at hphase
  rw [Option.some.inj hphase]
  exact ServePhase.noConfusion

/-- The session was admitted before its ticket was resolved. If the ticket is taken up again, it is served after the
first poll that follows; and if it is not, output of its shell goes to the operator after the poll that has ended it. -/
theorem shell_survives_resolution :
    watched.state.tasks = [watchedTask] ∧
    (resolved.state.engine.state.getTicket "T-aaaaaaaa").map TicketRecord.state = some .resolved ∧
    (resumed.state.engine.state.getTicket "T-aaaaaaaa").map TicketRecord.state = some .inProgress ∧
    (watchedMachine watchEnv managed).Reachable polled ∧ polled.state.tasks = [watchedTask] ∧
    (watchedMachine watchEnv managed).Reachable printed ∧
    polledEarly.state.tasks = [{ watchedTask with phase := .ended false }] ∧
    polledEarly.exchanged "5e551011" = some ([], []) ∧ printed.exchanged "5e551011" = some ([104, 105], []) := by
  obtain ⟨hwatched, hresolved, hinProgress, hpolled, hended, hbefore, hafter⟩ :
      watched.state.tasks = [watchedTask] ∧
      (resolved.state.engine.state.getTicket "T-aaaaaaaa").map TicketRecord.state = some .resolved ∧
      (resumed.state.engine.state.getTicket "T-aaaaaaaa").map TicketRecord.state = some .inProgress ∧
      polled.state.tasks = [watchedTask] ∧ polledEarly.state.tasks = [{ watchedTask with phase := .ended false }] ∧
      polledEarly.exchanged "5e551011" = some ([], []) ∧ printed.exchanged "5e551011" = some ([104, 105], []) := by
    decide +kernel
  obtain ⟨hserved, hselecting⟩ : resumed.state.tasks[0]? = some watchedTask ∧
      (resumed.shells "5e551011").map ServedShell.phase = some .selecting := by decide +kernel
  have hresumed : (watchedMachine watchEnv managed).Reachable resumed :=
    resolved_reachable.step (a := .node (.work _)) ⟨trivial, trivial⟩
  have hearly : (watchedMachine watchEnv managed).Reachable polledEarly :=
    resolved_reachable.step (can_poll resolved_serves.1 resolved_serves.2 111)
  have hprinted : (watchedMachine watchEnv managed).Reachable printed :=
    hearly.after _ ⟨by decide +kernel, by decide +kernel, by decide +kernel, by decide +kernel, trivial⟩
  exact ⟨hwatched, hresolved, hinProgress, hresumed.step (can_poll hserved hselecting 121), hpolled, hprinted, hended,
    hbefore, hafter⟩

end ShellSample

open ShellSample in
/-- The theorem at a shell that has exited before the poll. -/
theorem shell_ends_at_poll_resolved : exited.state.tasks = [watchedTask] ∧
    ∀ w', (watchedMachine watchEnv managed).Run (exited.step watchEnv managed (.node (.poll 0 111))) w' →
      w'.state.Over watchedTask.sessionId ∧ w'.exchanged watchedTask.sessionId = some ([], []) := by
  obtain ⟨hstate, htasks, hselecting, hcut, hnothing⟩ :
      (resolved.state.engine.state.getTicket watchedTask.ticketId).map TicketRecord.state = some .resolved ∧
      exited.state.tasks = [watchedTask] ∧
      (exited.shells "5e551011").map ServedShell.phase = some .selecting ∧
      (exited.shells watchedTask.sessionId).all (fun x => decide x.Cut) = true ∧
      exited.exchanged watchedTask.sessionId = some ([], []) := by decide +kernel
  obtain ⟨ticket, hticket, hst⟩ := Option.map_eq_some_iff.1 hstate
  have htask : exited.state.tasks[0]? = some watchedTask := by rw [htasks]; rfl
  have hexit : (watchedMachine watchEnv managed).enabled resolved (.shell "5e551011" .exit) := by decide +kernel
  obtain ⟨x, hx, hover, hstill⟩ := shell_ends_at_poll resolved_reachable hticket (.inl hst)
    (run_shell_step hexit _) htask (can_poll htask hselecting 111)
  replace hx : exited.shells watchedTask.sessionId = some x := hx
  have hxcut : x.Cut := by simpa [hx] using hcut
  have hxnothing : x.exchanged = ([], []) := by simpa [WatchedState.exchanged, hx] using hnothing
  refine ⟨htasks, fun w' hr => ⟨(hover w' hr).1, ?_⟩⟩
  rw [hstill.2 hxcut w' hr, hxnothing]

end Fortiq
