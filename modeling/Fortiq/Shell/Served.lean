/-
The life of `serve_pty` (`fortiq-shell/src/lib.rs`): the future that serves a shell, and the tasks it starts beside
itself. At its own end the future hangs the shell up and waits for the tasks, for each a limited time. A future that is
dropped does nothing of this: the loop over the operator's frames goes with it, but the tasks have been spawned and run
on, and through them the shell keeps its terminal. `Shell/Session` says in which order bytes travel; here the question is
who is left to carry them.
-/
import Fortiq.Shell.Session

namespace Fortiq

/-! ## The future and its tasks -/

/-- Where the future stands. -/
inductive ServePhase where
  | starting
  /-- The shell runs, and the banner is on its way. -/
  | greeting
  /-- In the `select!`, with the loop over the operator's frames. -/
  | selecting
  /-- The 50 ms after the `select!`. -/
  | draining
  /-- The shell has been told to hang up, and the tasks are waited for in this order. -/
  | joiningWrite
  | joiningRead
  | joiningSend
  | joiningChild
  | returned (ok : Bool)
  | dropped
deriving DecidableEq, Repr

/-- The tasks beside the future; the one that waits for the shell has nothing to carry. -/
inductive ServeTask where
  | read
  | write
  | send
  | keepalive
deriving DecidableEq, Repr

/-- A shell that is served. A frame counts as sent, an input as fed and a frame of the operator as heard when the task
is done with it; the banner is not among the frames sent. -/
structure ServedShell where
  phase : ServePhase
  /-- The shell, or a process it has started, has the terminal open. -/
  shell : Bool
  running : ServeTask → Bool
  /-- Printed, and not read yet. -/
  pty : List UInt8
  reader : ReadPhase
  ptyIn : List PtyInput
  ptyOut : List ShellFrame
  heard : List ShellFrame
  fed : List PtyInput
  sent : List ShellFrame

inductive ServeLabel where
  /-- The pseudoterminal is opened and the shell spawned. -/
  | spawn (ok : Bool)
  /-- The banner is written, or cannot be. -/
  | greet (ok : Bool)
  | hear (frame : ShellFrame)
  /-- The `select!` ends: the shell has exited, the send task has, or the operator is gone or silent. -/
  | leave
  | hangUp
  /-- A task has ended, or its time is over. -/
  | join
  | print (bytes : List UInt8)
  | exit
  | read (n : Nat)
  | reply
  | queue
  | write
  | send
  | tick
  /-- A task ends by an error of what it reads or writes, or because its channel is closed. -/
  | stop (t : ServeTask)

namespace ServedShell

/-- Before the future is polled. -/
def new : ServedShell where
  phase := .starting
  shell := false
  running := fun _ => false
  pty := []
  reader := .reading
  ptyIn := []
  ptyOut := []
  heard := []
  fed := []
  sent := []

def stop (x : ServedShell) (t : ServeTask) : ServedShell := { x with running := Function.update x.running t false }

/-- The loop over the operator's frames; a size is given to the pseudoterminal only. -/
def hear (x : ServedShell) (frame : ShellFrame) : ServedShell :=
  let x := { x with heard := x.heard ++ [frame] }
  match frame with
  | .data bytes =>
    if x.running .write then { x with ptyIn := x.ptyIn ++ [.typed bytes] } else { x with phase := .draining }
  | .ping => if x.running .send then { x with ptyOut := x.ptyOut ++ [.pong] } else x
  | .resize _ _ | .pong => x

def join (x : ServedShell) : ServedShell :=
  match x.phase with
  | .joiningWrite => { x with phase := .joiningRead }
  -- the abort of a blocking task that runs does nothing
  | .joiningRead => { x with phase := .joiningSend }
  | .joiningSend => { x.stop .send with phase := .joiningChild }
  | .joiningChild => { x with phase := .returned true }
  | _ => x

def read (x : ServedShell) (n : Nat) : ServedShell :=
  let buf := x.pty.take n
  let asked := (Occurrences.windows 4 buf).any (· == Pty.cursorQuery)
  { x with pty := x.pty.drop n, reader := if asked then .replying buf else .sending buf }

def reply (x : ServedShell) : ServedShell :=
  match x.reader with
  | .replying buf =>
    { x with ptyIn := if x.running .write then x.ptyIn ++ [.reply] else x.ptyIn, reader := .sending buf }
  | _ => x

def queue (x : ServedShell) : ServedShell :=
  match x.reader with
  | .sending buf =>
    if x.running .send then { x with reader := .reading, ptyOut := x.ptyOut ++ [.data buf] } else x.stop .read
  | _ => x

def write (x : ServedShell) : ServedShell :=
  match x.ptyIn with
  | [] => x
  | item :: ptyIn => { x with ptyIn, fed := if x.shell then x.fed ++ [item] else x.fed }

/-- No frame of these tasks is too long to be written. -/
def send (x : ServedShell) : ServedShell :=
  match x.ptyOut with
  | [] => x
  | frame :: ptyOut => { x with ptyOut, sent := x.sent ++ [frame] }

def tick (x : ServedShell) : ServedShell :=
  if x.running .send then { x with ptyOut := x.ptyOut ++ [.ping] } else x.stop .keepalive

def step (x : ServedShell) : ServeLabel → ServedShell
  | .spawn ok => { x with phase := if ok then .greeting else .returned false, shell := ok }
  | .greet ok =>
    if ok then { x with phase := .selecting, running := fun _ => true } else { x with phase := .returned false }
  | .hear frame => x.hear frame
  | .leave => { x with phase := .draining }
  | .hangUp => { x.stop .keepalive with phase := .joiningWrite }
  | .join => x.join
  | .print bytes => { x with pty := x.pty ++ bytes }
  | .exit => { x with shell := false }
  | .read n => x.read n
  | .reply => x.reply
  | .queue => x.queue
  | .write => x.write
  | .send => x.send
  | .tick => x.tick
  | .stop t => x.stop t

/-- A channel takes what is sent into it while it has room; where its receiver is gone, the call returns at once. -/
def Takes (x : ServedShell) : ServeTask → Prop
  | .write => x.running .write = true → x.ptyIn.length < ptyInCapacity
  | .send => x.running .send = true → x.ptyOut.length < ptyOutCapacity
  | _ => True

def Enabled (x : ServedShell) : ServeLabel → Prop
  | .spawn _ => x.phase = .starting
  | .greet _ => x.phase = .greeting
  | .hear (.data _) => x.phase = .selecting ∧ x.Takes .write
  | .hear .ping => x.phase = .selecting ∧ x.Takes .send
  | .hear _ => x.phase = .selecting
  | .leave => x.phase = .selecting
  | .hangUp => x.phase = .draining
  | .join => x.phase ∈ [.joiningWrite, .joiningRead, .joiningSend, .joiningChild]
  | .print bytes => x.shell = true ∧ bytes ≠ []
  | .exit => x.shell = true
  | .read n => x.running .read = true ∧ x.reader = .reading ∧ 0 < n ∧ n ≤ 4096 ∧ n ≤ x.pty.length
  | .reply => x.running .read = true ∧ x.reader.replying?.isSome ∧ x.Takes .write
  | .queue => x.running .read = true ∧ x.reader.sending?.isSome ∧ x.Takes .send
  | .write => x.running .write = true ∧ x.ptyIn ≠ []
  | .send => x.running .send = true ∧ x.ptyOut ≠ []
  | .tick => x.running .keepalive = true ∧ x.Takes .send
  | .stop _ => True

instance (x : ServedShell) : ∀ t, Decidable (x.Takes t)
  | .write => inferInstanceAs (Decidable (_ → _))
  | .send => inferInstanceAs (Decidable (_ → _))
  | .read => inferInstanceAs (Decidable True)
  | .keepalive => inferInstanceAs (Decidable True)

instance (x : ServedShell) : ∀ l, Decidable (x.Enabled l)
  | .spawn _ => inferInstanceAs (Decidable (_ = _))
  | .greet _ => inferInstanceAs (Decidable (_ = _))
  | .hear (.data _) => inferInstanceAs (Decidable (_ ∧ _))
  | .hear .ping => inferInstanceAs (Decidable (_ ∧ _))
  | .hear (.resize _ _) => inferInstanceAs (Decidable (_ = _))
  | .hear .pong => inferInstanceAs (Decidable (_ = _))
  | .leave => inferInstanceAs (Decidable (_ = _))
  | .hangUp => inferInstanceAs (Decidable (_ = _))
  | .join => inferInstanceAs (Decidable (_ ∈ _))
  | .print _ => inferInstanceAs (Decidable (_ ∧ _))
  | .exit => inferInstanceAs (Decidable (_ = _))
  | .read _ => inferInstanceAs (Decidable (_ ∧ _ ∧ _ ∧ _ ∧ _))
  | .reply => inferInstanceAs (Decidable (_ ∧ _ ∧ _))
  | .queue => inferInstanceAs (Decidable (_ ∧ _ ∧ _))
  | .write => inferInstanceAs (Decidable (_ ∧ _))
  | .send => inferInstanceAs (Decidable (_ ∧ _))
  | .tick => inferInstanceAs (Decidable (_ ∧ _))
  | .stop _ => inferInstanceAs (Decidable True)

/-- The future is dropped; what it has returned stays. -/
def drop (x : ServedShell) : ServedShell :=
  match x.phase with
  | .returned _ => x
  | _ => { x with phase := .dropped }

/-- The output of the shell that has gone to the operator. -/
def output (x : ServedShell) : List UInt8 := x.sent.flatMap payload

/-- What the operator has typed into the shell. -/
def typed (x : ServedShell) : List (List UInt8) := x.fed.filterMap PtyInput.typed?

/-- What has gone either way between the operator and the shell. -/
def exchanged (x : ServedShell) : List UInt8 × List (List UInt8) := (x.output, x.typed)

end ServedShell

def servedMachine : Machine ServedShell ServeLabel where
  start := fun x => x = .new
  enabled := fun x l => x.Enabled l
  step := fun x l => x.step l

/-! ## When the future is gone -/

/-- The future has returned or was dropped. -/
def ServePhase.over : ServePhase → Bool
  | returned _ | dropped => true
  | _ => false

/-- The steps of the future itself. -/
def ServeLabel.ofFuture : ServeLabel → Bool
  | spawn _ | greet _ | hear _ | leave | hangUp | join => true
  | _ => false

namespace ServedShell

variable {x : ServedShell} {l : ServeLabel}

theorem over_drop (x : ServedShell) : x.drop.phase.over = true := by
  unfold drop
  split
  · rename_i h
    rw [h]
    rfl
  · rfl

theorem drop_of_over (h : x.phase.over = true) : x.drop = x := by
  cases x with
  | mk phase =>
    cases phase with
    | returned ok => rfl
    | dropped => rfl
    | _ => cases h

/-- Dropping the future touches nothing but the future. -/
theorem drop_eq (x : ServedShell) : x.drop = { x with phase := x.drop.phase } := by
  unfold drop
  split <;> rfl

theorem heard_drop (x : ServedShell) : x.drop.heard = x.heard := by rw [drop_eq]

theorem ofFuture_of_over (hl : x.Enabled l) (h : x.phase.over = true) : l.ofFuture = false := by
  cases l with
  | spawn ok => rw [show x.phase = .starting from hl] at h; cases h
  | greet ok => rw [show x.phase = .greeting from hl] at h; cases h
  | hear frame =>
    have hphase : x.phase = .selecting := by
      cases frame with
      | data bytes => exact hl.1
      | ping => exact hl.1
      | resize cols rows => exact hl
      | pong => exact hl
    rw [hphase] at h
    cases h
  | leave => rw [show x.phase = .selecting from hl] at h; cases h
  | hangUp => rw [show x.phase = .draining from hl] at h; cases h
  | join =>
    simp only [Enabled, List.mem_cons, List.not_mem_nil, or_false] at hl
    rcases hl with hp | hp | hp | hp <;> rw [hp] at h <;> cases h
  | _ => rfl

/-- A step of a task leaves the future and what it has heard. -/
theorem step_of_task (h : l.ofFuture = false) : (x.step l).phase = x.phase ∧ (x.step l).heard = x.heard := by
  cases l with
  | reply => simp only [step, reply]; split <;> exact ⟨rfl, rfl⟩
  | queue =>
    simp only [step, queue]
    split
    · split <;> exact ⟨rfl, rfl⟩
    · exact ⟨rfl, rfl⟩
  | write => simp only [step, write]; split <;> exact ⟨rfl, rfl⟩
  | send => simp only [step, send]; split <;> exact ⟨rfl, rfl⟩
  | tick => simp only [step, tick]; split <;> exact ⟨rfl, rfl⟩
  | print bytes => exact ⟨rfl, rfl⟩
  | exit => exact ⟨rfl, rfl⟩
  | read n => exact ⟨rfl, rfl⟩
  | stop t => exact ⟨rfl, rfl⟩
  | _ => cases h

/-- Nothing is heard from the operator once the future is gone. -/
theorem run_of_over {y : ServedShell} (hr : servedMachine.Run x y) (h : x.phase.over = true) :
    y.phase.over = true ∧ y.heard = x.heard := by
  refine hr.keeps (I := fun y => y.phase.over = true ∧ y.heard = x.heard) (fun z l hl hz => ?_) ⟨h, rfl⟩
  obtain ⟨hphase, hheard⟩ := step_of_task (x := z) (ofFuture_of_over hl hz.1)
  exact ⟨(congrArg ServePhase.over hphase).trans hz.1, hheard.trans hz.2⟩

end ServedShell

/-! ## Who is cut off -/

theorem ReadPhase.eq_replying {p : ReadPhase} (h : p.replying?.isSome = true) : p = .replying p.hand := by
  cases p with
  | replying buf => rfl
  | _ => cases h

theorem ReadPhase.eq_sending {p : ReadPhase} (h : p.sending?.isSome = true) : p = .sending p.hand := by
  cases p with
  | sending buf => rfl
  | _ => cases h

namespace ServedShell

variable {x x₀ : ServedShell} {l : ServeLabel} {buf : List UInt8}

/-- No output of the shell can go to the operator any more. -/
def Silent (x : ServedShell) : Prop :=
  x.running .send = false ∨
    (∀ frame ∈ x.ptyOut, payload frame = []) ∧
    (x.running .read = false ∨ x.reader.hand = [] ∧ x.pty = [] ∧ x.shell = false)

/-- Nothing the operator has typed can come to the shell any more. -/
def Unfed (x : ServedShell) : Prop :=
  x.running .write = false ∨ x.shell = false ∨ ∀ item ∈ x.ptyIn, item.typed? = none

/-- With its future gone, the shell and the operator are cut off from each other. -/
def Cut (x : ServedShell) : Prop := x.Silent ∧ x.Unfed

instance (x : ServedShell) : Decidable x.Silent := inferInstanceAs (Decidable (_ ∨ _ ∧ (_ ∨ _ ∧ _ ∧ _)))

instance (x : ServedShell) : Decidable x.Unfed := inferInstanceAs (Decidable (_ ∨ _ ∨ _))

instance (x : ServedShell) : Decidable x.Cut := inferInstanceAs (Decidable (_ ∧ _))

theorem running_stop {t : ServeTask} (h : x.running t = false) (t' : ServeTask) : (x.stop t').running t = false := by
  unfold stop
  by_cases ht : t = t'
  · subst ht
    simp
  · simpa [Function.update_of_ne ht] using h

theorem Silent.stop (h : x.Silent) (t : ServeTask) : (x.stop t).Silent := by
  rcases h with hsend | ⟨hout, hread | hidle⟩
  · exact .inl (running_stop hsend t)
  · exact .inr ⟨hout, .inl (running_stop hread t)⟩
  · exact .inr ⟨hout, .inr hidle⟩

theorem Unfed.stop (h : x.Unfed) (t : ServeTask) : (x.stop t).Unfed := by
  rcases h with hwrite | hrest
  · exact .inl (running_stop hwrite t)
  · exact .inr hrest

/-- A channel that is not read, or a frame without output, changes nothing. -/
theorem Silent.push (h : x.Silent) {frame : ShellFrame} (hframe : payload frame = []) :
    { x with ptyOut := x.ptyOut ++ [frame] }.Silent := by
  rcases h with hsend | ⟨hout, hrest⟩
  · exact .inl hsend
  · refine .inr ⟨fun f hf => ?_, hrest⟩
    rcases List.mem_append.1 hf with hf | hf
    · exact hout f hf
    · rw [List.mem_singleton.1 hf]
      exact hframe

theorem Silent.step (h : x.Silent) (hl : x.Enabled l) (htask : l.ofFuture = false) :
    (x.step l).Silent ∧ (x.step l).output = x.output := by
  cases l with
  | print bytes =>
    refine ⟨?_, rfl⟩
    rcases h with hsend | ⟨hout, hread | ⟨-, -, hshell⟩⟩
    · exact .inl hsend
    · exact .inr ⟨hout, .inl hread⟩
    · rw [hl.1] at hshell
      cases hshell
  | exit =>
    refine ⟨?_, rfl⟩
    rcases h with hsend | ⟨hout, hread | ⟨hreader, hpty, -⟩⟩
    · exact .inl hsend
    · exact .inr ⟨hout, .inl hread⟩
    · exact .inr ⟨hout, .inr ⟨hreader, hpty, rfl⟩⟩
  | read n =>
    obtain ⟨hread, -, hpos, -, hn⟩ := hl
    refine ⟨?_, rfl⟩
    -- a reader that has something to read has nobody to send it to
    rcases h with hsend | ⟨-, hgone | ⟨-, hpty, -⟩⟩
    · exact .inl hsend
    · rw [hread] at hgone
      cases hgone
    · rw [hpty, List.length_nil] at hn
      omega
  | reply =>
    obtain ⟨-, hreply, -⟩ := hl
    have hreader := ReadPhase.eq_replying hreply
    simp only [ServedShell.step, reply]
    rw [hreader]
    exact ⟨h, rfl⟩
  | queue =>
    obtain ⟨hread, hqueue, -⟩ := hl
    have hreader := ReadPhase.eq_sending hqueue
    simp only [ServedShell.step, queue]
    rw [hreader]
    simp only
    split
    · rename_i hsend
      rcases h with hgone | ⟨hout, hgone | ⟨hhand, hrest⟩⟩
      · rw [hsend] at hgone
        cases hgone
      · rw [hread] at hgone
        cases hgone
      · have hidle : { x with reader := .reading }.Silent := .inr ⟨hout, .inr ⟨rfl, hrest⟩⟩
        have hempty : payload (.data x.reader.hand) = [] := hhand
        exact ⟨hidle.push hempty, rfl⟩
    · exact ⟨h.stop .read, rfl⟩
  | write =>
    simp only [ServedShell.step, write]
    split <;> exact ⟨h, rfl⟩
  | send =>
    obtain ⟨hsend, hne⟩ := hl
    obtain ⟨frame, rest, hout⟩ := List.exists_cons_of_ne_nil hne
    rcases h with hgone | ⟨hempty, hrest⟩
    · rw [hsend] at hgone
      cases hgone
    · rw [hout] at hempty
      simp only [ServedShell.step, send, hout]
      refine ⟨.inr ⟨fun f hf => hempty f (List.mem_cons_of_mem _ hf), hrest⟩, ?_⟩
      simp [output, hempty frame List.mem_cons_self]
  | tick =>
    simp only [ServedShell.step, tick]
    split
    · exact ⟨h.push rfl, rfl⟩
    · exact ⟨h.stop .keepalive, rfl⟩
  | stop t => exact ⟨h.stop t, rfl⟩
  | _ => cases htask

theorem Unfed.step (h : x.Unfed) (hl : x.Enabled l) (htask : l.ofFuture = false) :
    (x.step l).Unfed ∧ (x.step l).typed = x.typed := by
  cases l with
  | print bytes => exact ⟨h, rfl⟩
  | exit => exact ⟨.inr (.inl rfl), rfl⟩
  | read n => exact ⟨h, rfl⟩
  | reply =>
    simp only [ServedShell.step, reply]
    split
    · refine ⟨?_, rfl⟩
      rcases h with hwrite | hshell | hin
      · exact .inl hwrite
      · exact .inr (.inl hshell)
      · refine .inr (.inr fun item hitem => ?_)
        split at hitem
        · rcases List.mem_append.1 hitem with hmem | hmem
          · exact hin item hmem
          · rw [List.mem_singleton.1 hmem]
            rfl
        · exact hin item hitem
    · exact ⟨h, rfl⟩
  | queue =>
    simp only [ServedShell.step, queue]
    split
    · split
      · exact ⟨h, rfl⟩
      · exact ⟨h.stop .read, rfl⟩
    · exact ⟨h, rfl⟩
  | write =>
    obtain ⟨hwrite, hne⟩ := hl
    obtain ⟨item, rest, hin⟩ := List.exists_cons_of_ne_nil hne
    simp only [ServedShell.step, write, hin]
    rcases h with hgone | hshell | hplain
    · rw [hwrite] at hgone
      cases hgone
    · exact ⟨.inr (.inl hshell), by simp [typed, hshell]⟩
    · rw [hin] at hplain
      refine ⟨.inr (.inr fun item hitem => hplain item (List.mem_cons_of_mem _ hitem)), ?_⟩
      have hitem := hplain item List.mem_cons_self
      cases x.shell <;> simp [typed, hitem]
  | send =>
    simp only [ServedShell.step, send]
    split <;> exact ⟨h, rfl⟩
  | tick =>
    simp only [ServedShell.step, tick]
    split
    · exact ⟨h, rfl⟩
    · exact ⟨h.stop .keepalive, rfl⟩
  | stop t => exact ⟨h.stop t, rfl⟩
  | _ => cases htask

/-- One step of a shell whose future is gone and who is cut off. -/
theorem Cut.step (h : x.Cut) (hl : x.Enabled l) (htask : l.ofFuture = false) :
    (x.step l).Cut ∧ (x.step l).exchanged = x.exchanged := by
  obtain ⟨hsilent, houtput⟩ := h.1.step hl htask
  obtain ⟨hunfed, htyped⟩ := h.2.step hl htask
  exact ⟨⟨hsilent, hunfed⟩, by rw [exchanged, exchanged, houtput, htyped]⟩

/-! ## Who is not -/

/-- The send task empties its channel. -/
theorem run_sends (hr : servedMachine.Run x₀ x) (hsend : x.running .send = true) {frames : List ShellFrame}
    (hout : x.ptyOut = frames) : servedMachine.Run x₀ { x with ptyOut := [], sent := x.sent ++ frames } := by
  induction frames generalizing x with
  | nil =>
    rw [List.append_nil, ← hout]
    exact hr
  | cons frame frames ih =>
    have hnext : x.step .send = { x with ptyOut := frames, sent := x.sent ++ [frame] } := by
      simp only [ServedShell.step, send, hout]
    have hstep : servedMachine.Run x₀ (x.step .send) :=
      hr.tail ServeLabel.send ⟨hsend, by rw [hout]; exact List.cons_ne_nil _ _⟩
    rw [hnext] at hstep
    have hrest := ih hstep hsend rfl
    rwa [List.append_assoc] at hrest

/-- The write task empties its channel, into the shell if it is there. -/
theorem run_writes (hr : servedMachine.Run x₀ x) (hwrite : x.running .write = true) {items : List PtyInput}
    (hin : x.ptyIn = items) :
    servedMachine.Run x₀ { x with ptyIn := [], fed := if x.shell then x.fed ++ items else x.fed } := by
  induction items generalizing x with
  | nil =>
    rw [List.append_nil, ite_self, ← hin]
    exact hr
  | cons item items ih =>
    have hnext : x.step .write = { x with ptyIn := items, fed := if x.shell then x.fed ++ [item] else x.fed } := by
      simp only [ServedShell.step, write, hin]
    have hstep : servedMachine.Run x₀ (x.step .write) :=
      hr.tail ServeLabel.write ⟨hwrite, by rw [hin]; exact List.cons_ne_nil _ _⟩
    rw [hnext] at hstep
    have hrest := ih hstep hwrite rfl
    cases hshell : x.shell <;> simpa [hshell] using hrest

/-- The reader and the send task run, and nothing waits between them. -/
structure Ready (x : ServedShell) : Prop where
  read : x.running .read = true
  send : x.running .send = true
  ptyOut : x.ptyOut = []

theorem Ready.queue (h : x.Ready) (hr : servedMachine.Run x₀ x) (hreader : x.reader = .sending buf) :
    servedMachine.Run x₀ { x with reader := .reading, ptyOut := [], sent := x.sent ++ [.data buf] } := by
  have hqueued : servedMachine.Run x₀ { x with reader := .reading, ptyOut := [.data buf] } := by
    have hstep : servedMachine.Run x₀ (x.step .queue) :=
      hr.tail ServeLabel.queue ⟨h.read, by rw [hreader]; rfl, fun _ => by rw [h.ptyOut]; decide⟩
    simpa [ServedShell.step, ServedShell.queue, hreader, h.send, h.ptyOut] using hstep
  exact run_sends hqueued h.send rfl

/-- What the reader has in its hand goes out. -/
theorem Ready.settle (h : x.Ready) (hr : servedMachine.Run x₀ x) : ∃ y, servedMachine.Run x₀ y ∧ y.Ready ∧
    y.reader = .reading ∧ y.output = x.output ++ x.reader.hand ∧ y.pty = x.pty ∧ y.shell = x.shell := by
  cases hreader : x.reader with
  | reading => exact ⟨x, hr, h, hreader, (List.append_nil _).symm, rfl, rfl⟩
  | sending buf =>
    exact ⟨_, h.queue hr hreader, ⟨h.read, h.send, rfl⟩, rfl, by simp [output, payload, ReadPhase.hand], rfl, rfl⟩
  | replying buf =>
    -- the answer finds room behind inputs that are written first
    obtain ⟨ptyIn, fed, hroom⟩ : ∃ ptyIn fed, servedMachine.Run x₀ { x with ptyIn, fed, reader := .sending buf } := by
      cases hwrite : x.running .write with
      | true =>
        have hempty := run_writes hr hwrite rfl
        have hstep := hempty.tail ServeLabel.reply ⟨h.read, by rw [hreader]; rfl, fun _ => show 0 < 128 by decide⟩
        refine ⟨[.reply], if x.shell then x.fed ++ x.ptyIn else x.fed, ?_⟩
        simpa [servedMachine, ServedShell.step, reply, hreader, hwrite] using hstep
      | false =>
        have hstep := hr.tail ServeLabel.reply ⟨h.read, by rw [hreader]; rfl, fun hw => by rw [hwrite] at hw; cases hw⟩
        refine ⟨x.ptyIn, x.fed, ?_⟩
        simpa [servedMachine, ServedShell.step, reply, hreader, hwrite] using hstep
    have hready : { x with ptyIn, fed, reader := .sending buf }.Ready := ⟨h.read, h.send, h.ptyOut⟩
    exact ⟨_, hready.queue hroom rfl, ⟨h.read, h.send, rfl⟩, rfl, by simp [output, payload, ReadPhase.hand], rfl, rfl⟩

/-- A byte that waits in the terminal goes out. -/
theorem Ready.read_one (h : x.Ready) (hr : servedMachine.Run x₀ x) (hreader : x.reader = .reading) {b : UInt8}
    {rest : List UInt8} (hpty : x.pty = b :: rest) : ∃ y, servedMachine.Run x₀ y ∧ y.output = x.output ++ [b] := by
  have hstep : servedMachine.Run x₀ { x with pty := rest, reader := .sending [b] } := by
    have hnext := hr.tail (ServeLabel.read 1) ⟨h.read, hreader, by decide, by decide, by simp [hpty]⟩
    simpa [servedMachine, ServedShell.step, ServedShell.read, hpty, Occurrences.windows] using hnext
  have hready : { x with pty := rest, reader := .sending [b] }.Ready := ⟨h.read, h.send, h.ptyOut⟩
  exact ⟨_, hready.queue hstep rfl, by simp [output, payload]⟩

/-- A shell that is not silent can still send output to the operator. -/
theorem exists_output (h : ¬ x.Silent) : ∃ y, servedMachine.Run x y ∧ y.output ≠ x.output := by
  unfold Silent at h
  push Not at h
  obtain ⟨hsend, hrest⟩ := h
  have hsend := Bool.eq_true_of_not_eq_false hsend
  have hempty := run_sends .refl hsend (x := x) rfl
  by_cases hout : ∀ frame ∈ x.ptyOut, payload frame = []
  · obtain ⟨hread, hidle⟩ := hrest hout
    have hready : { x with ptyOut := [], sent := x.sent ++ x.ptyOut }.Ready :=
      ⟨Bool.eq_true_of_not_eq_false hread, hsend, rfl⟩
    have hsame : { x with ptyOut := [], sent := x.sent ++ x.ptyOut }.output = x.output := by
      simpa [output] using hout
    obtain ⟨y, hy, hyready, hyreader, hyout, hypty, hyshell⟩ := hready.settle hempty
    rw [hsame] at hyout
    by_cases hhand : x.reader.hand = []
    · -- the reader is free: it reads what waits, or what the shell prints next
      obtain ⟨z, hz, hzready, hzreader, hzout, b, rest, hzpty⟩ : ∃ z, servedMachine.Run x z ∧ z.Ready ∧
          z.reader = .reading ∧ z.output = y.output ∧ ∃ b rest, z.pty = b :: rest := by
        cases hpty : x.pty with
        | cons b rest => exact ⟨y, hy, hyready, hyreader, rfl, b, rest, hypty.trans hpty⟩
        | nil =>
          have hshell : y.shell = true := hyshell.trans (Bool.eq_true_of_not_eq_false (hidle hhand hpty))
          refine ⟨_, hy.tail (ServeLabel.print [0]) ⟨hshell, by simp⟩, ⟨hyready.read, hyready.send, hyready.ptyOut⟩,
            hyreader, rfl, 0, [], ?_⟩
          have hyempty : y.pty = [] := hypty.trans hpty
          show y.pty ++ [0] = [0]
          rw [hyempty, List.nil_append]
      obtain ⟨w, hw, hwout⟩ := hzready.read_one hz hzreader hzpty
      refine ⟨w, hw, ?_⟩
      rw [hwout, hzout, hyout]
      simp [hhand]
    · refine ⟨y, hy, ?_⟩
      rw [hyout]
      simpa using hhand
  · refine ⟨_, hempty, fun heq => hout ?_⟩
    simpa [output] using heq

/-- A shell that waits for what was typed can still be given it. -/
theorem exists_typed (h : ¬ x.Unfed) : ∃ y, servedMachine.Run x y ∧ y.typed ≠ x.typed := by
  unfold Unfed at h
  push Not at h
  obtain ⟨hwrite, hshell, item, hitem, htyped⟩ := h
  refine ⟨_, run_writes .refl (Bool.eq_true_of_not_eq_false hwrite) rfl, fun heq => htyped ?_⟩
  simp only [typed, Bool.eq_true_of_not_eq_false hshell, if_true, List.filterMap_append, List.append_right_eq_self,
    List.filterMap_eq_nil_iff] at heq
  exact heq item hitem

theorem cut_drop (x : ServedShell) : x.drop.Cut ↔ x.Cut := by
  rw [drop_eq]
  rfl

theorem exchanged_drop (x : ServedShell) : x.drop.exchanged = x.exchanged := by
  rw [drop_eq]
  rfl

/-- What is left running after the future carries nothing between the operator and the shell exactly if they are cut
off when it goes. -/
theorem cut_iff (hover : x.phase.over = true) :
    (∀ y, servedMachine.Run x y → y.exchanged = x.exchanged) ↔ x.Cut := by
  constructor
  · intro h
    constructor
    · by_contra hs
      obtain ⟨y, hy, hne⟩ := exists_output hs
      exact hne (congrArg Prod.fst (h y hy))
    · by_contra hu
      obtain ⟨y, hy, hne⟩ := exists_typed hu
      exact hne (congrArg Prod.snd (h y hy))
  · intro h y hy
    have hkept : y.phase.over = true ∧ y.Cut ∧ y.exchanged = x.exchanged := by
      refine hy.keeps (I := fun y => y.phase.over = true ∧ y.Cut ∧ y.exchanged = x.exchanged)
        (fun z l hl ⟨hzover, hzcut, hzsame⟩ => ?_) ⟨hover, h, rfl⟩
      have htask := ofFuture_of_over hl hzover
      obtain ⟨hcut, hsame⟩ := hzcut.step hl htask
      exact ⟨(run_of_over (Machine.Run.refl.tail l hl) hzover).1, hcut, hsame.trans hzsame⟩
    exact hkept.2.2

end ServedShell

end Fortiq
