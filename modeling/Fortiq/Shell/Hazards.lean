/-
Two ways in which a terminal session goes wrong. The reader of the pseudoterminal answers a question for the cursor by a
send into the channel of the operator's input, and waits there while the channel is full: if the shell prints before it
reads, both wait for ever, whatever the sizes of the buffers. And a resize of the window gives up the read of a frame that
has begun to arrive, so that the rest of the frame is taken for frames of its own: what the shell prints can then be
anything the host could send.
-/
import Fortiq.Shell.InOrder

namespace Fortiq

open ShellFrame TerminalState

variable {limits : TerminalLimits} {banner : List UInt8} {cols rows : UInt16} {s s' s₀ : TerminalState} {l : TerminalLabel}

/-! ## A session that is stuck -/

/-- The reader of the pseudoterminal has to answer a question, and everything in front of it is full. -/
structure Stuck (limits : TerminalLimits) (s : TerminalState) : Prop where
  asked : ∃ buf, s.output.phase = .replying buf
  ptyIn : ¬ s.input.ptyIn.Room ptyInCapacity 1
  writing : s.input.writing ≠ []
  input : ¬ s.input.pty.Room limits.ptyInput 1
  output : ¬ s.output.pty.Room limits.ptyOutput 1
  alive : s.alive .writeTask = true

/-- The task that writes into the pseudoterminal is not stopped, and the shell does not read while it cannot print. -/
def ShellPrinting (limits : TerminalLimits) (s : TerminalState) : TerminalLabel → Prop
  | .stop t => t ≠ .writeTask
  | .shellReads _ => s.output.pty.Room limits.ptyOutput 1
  | _ => True

theorem alive_stop {t u : TerminalTask} (hne : u ≠ t) : (s.stop t).alive u = s.alive u := Function.update_of_ne hne _ _

theorem alive_endsIf {failed : Bool} {t u : TerminalTask} (hne : u ≠ t) : (s.endsIf failed t).alive u = s.alive u := by
  cases failed with
  | false => rfl
  | true => exact alive_stop hne

/-- The writer of the pseudoterminal ends only when it is stopped. -/
theorem alive_writeTask (h : l ≠ .stop .writeTask) : (s.step l).alive .writeTask = s.alive .writeTask := by
  cases l with
  | command c =>
    cases c with
    | input bytes =>
      simp only [step, command]
      split
      · rfl
      · exact alive_stop (by decide)
    | resize cols rows => rfl
    | close => exact alive_stop (by decide)
  | control =>
    simp only [step, TerminalState.control]
    split <;> rfl
  | noteResize =>
    simp only [step, noteResize]
    split <;> rfl
  | write hop n => cases hop <;> rfl
  | forwardIn n => exact alive_endsIf (by decide)
  | forwardOut n => exact alive_endsIf (by decide)
  | hear n => exact alive_endsIf (by decide)
  | receive n => exact alive_endsIf (by decide)
  | type =>
    simp only [step, type]
    split
    · split
      · rfl
      · exact alive_stop (by decide)
    · rfl
  | take =>
    simp only [step, take]
    split <;> rfl
  | reply =>
    simp only [step, reply]
    split <;> rfl
  | queue =>
    simp only [step, queue]
    split
    · split
      · rfl
      · exact alive_stop (by decide)
    · rfl
  | tick =>
    simp only [step, tick]
    split
    · rfl
    · exact alive_stop (by decide)
  | send =>
    simp only [step, send]
    split
    · rfl
    · split
      · rfl
      · exact alive_stop (by decide)
  | takeResize =>
    simp only [step, takeResize]
    split <;> rfl
  | stop t =>
    refine alive_stop ?_
    rintro rfl
    exact h rfl
  | _ => rfl

/-- What a stuck session leaves alone. -/
structure SameBuffers (s s' : TerminalState) : Prop where
  ptyIn : s'.input.ptyIn = s.input.ptyIn
  writing : s'.input.writing = s.input.writing
  input : s'.input.pty = s.input.pty
  phase : s'.output.phase = s.output.phase
  output : s'.output.pty = s.output.pty

theorem Stuck.step (h : Stuck limits s) (hen : s.Enabled limits l) (hprinting : ShellPrinting limits s l) :
    SameBuffers s (s.step l) := by
  obtain ⟨buf, hphase⟩ := h.asked
  -- the answer does not fit into the channel
  have hreply : l ≠ .reply := by
    rintro rfl
    exact h.ptyIn (hen.2.2 h.alive)
  have hin : (s.step l).input.ptyIn = s.input.ptyIn ∧ (s.step l).input.writing = s.input.writing ∧
      (s.step l).input.pty = s.input.pty := by
    have hstep := inputStep hen
    generalize (s.step l).input = i' at hstep
    cases hstep with
    | types hloop hroom => exact absurd hroom h.ptyIn
    | replies hroom => exact absurd hroom h.ptyIn
    | takes hwriting hx => exact absurd hwriting h.writing
    | feeds hpos hroom => exact absurd (le_trans (by omega) hroom) h.input
    | shellReads n => exact absurd hprinting h.output
    | _ => exact ⟨rfl, rfl, rfl⟩
  have hout : (s.step l).output.phase = s.output.phase ∧ (s.step l).output.pty = s.output.pty := by
    have hstep := outputStep hen
    generalize (s.step l).output = o' at hstep
    cases hstep with
    | prints hne hroom =>
      have hpos := List.length_pos_of_ne_nil hne
      exact absurd (le_trans (by omega) hroom) h.output
    | asks hreading hn =>
      rw [hphase] at hreading
      cases hreading
    | reads hreading hn =>
      rw [hphase] at hreading
      cases hreading
    | replied hreplying => exact absurd rfl hreply
    | queues hsending =>
      rw [hphase] at hsending
      cases hsending
    | _ => exact ⟨rfl, rfl⟩
  exact ⟨hin.1, hin.2.1, hin.2.2, hout.1, hout.2⟩

theorem Stuck.of_same (h : Stuck limits s) (hsame : SameBuffers s s') (halive : s'.alive .writeTask = true) :
    Stuck limits s' := by
  constructor
  · rw [hsame.phase]
    exact h.asked
  · rw [hsame.ptyIn]
    exact h.ptyIn
  · rw [hsame.writing]
    exact h.writing
  · rw [hsame.input]
    exact h.input
  · rw [hsame.output]
    exact h.output
  · exact halive

theorem Stuck.run (h : Stuck limits s)
    (hr : ((terminalMachine limits banner cols rows).restrict (ShellPrinting limits)).Run s s') :
    Stuck limits s' ∧ SameBuffers s s' := by
  refine hr.keeps (I := fun u => Stuck limits u ∧ SameBuffers s u) (fun u l hl hu => ?_) ⟨h, rfl, rfl, rfl, rfl, rfl⟩
  obtain ⟨hen, hprinting⟩ : u.Enabled limits l ∧ ShellPrinting limits u l := hl
  have hstep := hu.1.step hen hprinting
  have halive : (u.step l).alive .writeTask = true := by
    rw [alive_writeTask, hu.1.alive]
    rintro rfl
    exact hprinting rfl
  refine ⟨hu.1.of_same hstep halive, ?_⟩
  obtain ⟨h₁, h₂, h₃, h₄, h₅⟩ := hu.2
  exact ⟨hstep.ptyIn.trans h₁, hstep.writing.trans h₂, hstep.input.trans h₃, hstep.phase.trans h₄, hstep.output.trans h₅⟩

/-! ## One frame after another -/

section Runs

/-- A step that leads to a state. -/
theorem run_step (l : TerminalLabel) (s' : TerminalState) (hr : (terminalMachine limits banner cols rows).Run s₀ s)
    (hen : s.Enabled limits l) (heq : s.step l = s') : (terminalMachine limits banner cols rows).Run s₀ s' := by
  rw [← heq]
  exact hr.tail l hen

/-- The reads of one task by which a frame arrives: all but the last change nothing but the link. -/
theorem run_arrival (f g : FrameLink → TerminalState) (label : Nat → TerminalLabel) {frame : ShellFrame} {k k' : FrameLink}
    (hmore : ∀ k n, k.CanReceive shellFraming n → k.completes shellFraming n = none → k.fails shellFraming n = false →
      (f k).Enabled limits (label n) ∧ (f k).step (label n) = f (k.receive shellFraming n))
    (hlast : ∀ k n, k.CanReceive shellFraming n → k.completes shellFraming n = some frame → k.fails shellFraming n = false →
      (f k).Enabled limits (label n) ∧ (f k).step (label n) = g (k.receive shellFraming n))
    (harrival : Link.Arrival shellFraming frame k k') (hr : (terminalMachine limits banner cols rows).Run s₀ (f k)) :
    (terminalMachine limits banner cols rows).Run s₀ (g k') := by
  induction harrival with
  | last hcan hitem =>
    obtain ⟨hen, heq⟩ := hlast _ _ hcan hitem (Link.fails_of_completes hitem)
    exact run_step _ _ hr hen heq
  | more hcan hnone hgood _ ih =>
    obtain ⟨hen, heq⟩ := hmore _ _ hcan hnone hgood
    exact ih (run_step _ _ hr hen heq)

/-- A frame the desktop's writer has in hand is forwarded by the service. -/
theorem run_ipcIn {k : FrameLink} (frame : ShellFrame) (hfits : frame.Fits)
    (hwindow : frame.packet.length ≤ limits.window .ipcIn) (hk : k.Quiet) (hrest : s.input.p2p.rest = [])
    (halive : ∀ t, s.alive t = true)
    (hr : (terminalMachine limits banner cols rows).Run s₀
      { s with input := { s.input with ipc := k.accept shellFraming frame } }) :
    ∃ k', k'.Quiet ∧ (terminalMachine limits banner cols rows).Run s₀
      { s with input := { s.input with ipc := k', p2p := s.input.p2p.accept shellFraming frame } } := by
  obtain ⟨k', harrival, hquiet⟩ := hk.pass (F := shellFraming) hfits
  refine ⟨k', hquiet, ?_⟩
  have hwritten := run_step (.write .ipcIn frame.packet.length) _ hr ⟨halive _, hk.canWrite hfits hwindow⟩ rfl
  refine run_arrival (fun k => { s with input := { s.input with ipc := k } })
    (fun k => { s with input := { s.input with ipc := k, p2p := s.input.p2p.accept shellFraming frame } })
    .forwardIn ?_ ?_ harrival hwritten
  · intro k n hcan hnone hgood
    refine ⟨⟨halive _, hrest, hcan⟩, ?_⟩
    simp [step, forwardIn, hnone, hgood, endsIf]
  · intro k n hcan hitem hgood
    refine ⟨⟨halive _, hrest, hcan⟩, ?_⟩
    simp [step, forwardIn, hitem, hgood, endsIf]

/-- A frame the service has in hand is heard by the host. -/
theorem run_p2pIn {k : FrameLink} (frame : ShellFrame) (hfits : frame.Fits)
    (hwindow : frame.packet.length ≤ limits.window .p2pIn) (hk : k.Quiet) (hloop : s.input.loop = .reading)
    (halive : ∀ t, s.alive t = true)
    (hr : (terminalMachine limits banner cols rows).Run s₀
      { s with input := { s.input with p2p := k.accept shellFraming frame } }) :
    ∃ k', k'.Quiet ∧ (terminalMachine limits banner cols rows).Run s₀
      { s with input := { s.input with
          p2p := k'
          loop := afterFrame frame
          sizes := s.input.sizes ++ (sizeOf? frame).toList } } := by
  obtain ⟨k', harrival, hquiet⟩ := hk.pass (F := shellFraming) hfits
  refine ⟨k', hquiet, ?_⟩
  have hwritten := run_step (.write .p2pIn frame.packet.length) _ hr ⟨halive _, hk.canWrite hfits hwindow⟩ rfl
  refine run_arrival (fun k => { s with input := { s.input with p2p := k } })
    (fun k => { s with input := { s.input with
      p2p := k, loop := afterFrame frame, sizes := s.input.sizes ++ (sizeOf? frame).toList } })
    .hear ?_ ?_ harrival hwritten
  · intro k n hcan hnone hgood
    refine ⟨⟨halive _, hloop, hcan⟩, ?_⟩
    simp [step, hear, hnone, hgood, endsIf, ← hloop]
  · intro k n hcan hitem hgood
    refine ⟨⟨halive _, hloop, hcan⟩, ?_⟩
    simp [step, hear, hitem, hgood, endsIf]

/-- The input side between two frames. -/
structure Calm (s : TerminalState) : Prop where
  alive : ∀ t, s.alive t = true
  noting : s.input.noting = none
  ipc : s.input.ipc.Quiet
  p2p : s.input.p2p.Quiet
  loop : s.input.loop = .reading

/-- A byte is typed and goes into the channel of the host. -/
theorem Calm.type (h : Calm s) (hwindow : ∀ hop, 7 ≤ limits.window hop) (hroom : s.input.ptyIn.Room ptyInCapacity 1)
    (hr : (terminalMachine limits banner cols rows).Run s₀ s) :
    ∃ s', (terminalMachine limits banner cols rows).Run s₀ s' ∧ Calm s' ∧ s'.output = s.output ∧
      s'.input.ptyIn = s.input.ptyIn.push [.typed [0]] ∧ s'.input.writing = s.input.writing ∧
      s'.input.pty = s.input.pty := by
  have hfits : (data [0]).Fits := by decide
  have hlen : ∀ hop, (data [0]).packet.length ≤ limits.window hop := fun hop => le_trans (by decide) (hwindow hop)
  let s₁ := { s with input := { s.input with commands := s.input.commands ++ [TerminalCommand.input [0]] } }
  have htaken := run_step (.command (.input [0]))
    { s₁ with input := { s₁.input with ipc := s.input.ipc.accept shellFraming (data [0]) } } hr
    ⟨h.alive _, h.noting, h.ipc.rest⟩ (by simp [step, command, hfits, s₁])
  obtain ⟨ipc, hipc, hforwarded⟩ := run_ipcIn (s := s₁) (data [0]) hfits (hlen _) h.ipc h.p2p.rest h.alive htaken
  let s₂ := { s₁ with input := { s₁.input with ipc } }
  obtain ⟨p2p, hp2p, hheard⟩ := run_p2pIn (s := s₂) (data [0]) hfits (hlen _) h.p2p h.loop h.alive hforwarded
  have htyped := run_step .type
    { s₂ with input := { s₂.input with p2p, ptyIn := s.input.ptyIn.push [.typed [0]] } } hheard
    ⟨h.alive _, rfl, fun _ => hroom⟩ (by simp [step, TerminalState.type, afterFrame, h.alive, sizeOf?, s₂, s₁, h.loop])
  exact ⟨_, htyped, ⟨h.alive, h.noting, hipc, hp2p, h.loop⟩, rfl, rfl, rfl, rfl⟩

/-- The buffer of the pseudoterminal fills up while the shell does not read. -/
theorem Calm.fill (h : Calm s) (hwindow : ∀ hop, 7 ≤ limits.window hop) (hwriting : s.input.writing = [])
    (hptyIn : s.input.ptyIn.waiting = []) (hpty : s.input.pty.waiting = [])
    (hr : (terminalMachine limits banner cols rows).Run s₀ s) : ∀ m ≤ limits.ptyInput,
    ∃ s', (terminalMachine limits banner cols rows).Run s₀ s' ∧ Calm s' ∧ s'.output = s.output ∧
      s'.input.writing = [] ∧ s'.input.ptyIn.waiting = [] ∧ s'.input.pty.waiting.length = m
  | 0, _ => ⟨s, hr, h, rfl, hwriting, hptyIn, by rw [hpty]; rfl⟩
  | m + 1, hm => by
    obtain ⟨u, hrun, hcalm, hout, huw, hui, hup⟩ := h.fill hwindow hwriting hptyIn hpty hr m (by omega)
    have hroom : u.input.ptyIn.Room ptyInCapacity 1 := by
      rw [Pipe.Room, hui]
      decide
    obtain ⟨v, hrun, hcalm, hvout, hvi, hvw, hvp⟩ := hcalm.type hwindow hroom hrun
    have hwaiting : v.input.ptyIn.waiting = [.typed [0]] := by
      rw [hvi, Pipe.waiting_push, hui]
      rfl
    -- the byte is taken from the channel and written
    have htaken := run_step .take
      { v with input := { v.input with ptyIn := v.input.ptyIn.pull 1, writing := [0] } } hrun
      ⟨hcalm.alive _, hvw.trans huw, by rw [hwaiting]; simp⟩ (by simp [step, take, hwaiting, PtyInput.bytes])
    have hfits : v.input.pty.Room limits.ptyInput 1 := by
      rw [hvp, Pipe.Room, hup]
      exact hm
    have hfed := run_step (.feed 1) _ htaken ⟨hcalm.alive _, one_pos, le_rfl, hfits⟩ rfl
    refine ⟨_, hfed, ⟨hcalm.alive, hcalm.noting, hcalm.ipc, hcalm.p2p, hcalm.loop⟩, hvout.trans hout, rfl, ?_, ?_⟩
    · show (v.input.ptyIn.pull 1).waiting = []
      rw [Pipe.waiting_pull (by rw [hwaiting]; rfl), hwaiting]
      rfl
    · show (v.input.pty.push [0]).waiting.length = m + 1
      rw [Pipe.waiting_push, hvp, List.length_append, hup]
      rfl

/-- The channel fills up while nothing is taken from it. -/
theorem Calm.queue (h : Calm s) (hwindow : ∀ hop, 7 ≤ limits.window hop) (hptyIn : s.input.ptyIn.waiting = [])
    (hr : (terminalMachine limits banner cols rows).Run s₀ s) : ∀ m ≤ ptyInCapacity,
    ∃ s', (terminalMachine limits banner cols rows).Run s₀ s' ∧ Calm s' ∧ s'.output = s.output ∧
      s'.input.writing = s.input.writing ∧ s'.input.pty = s.input.pty ∧ s'.input.ptyIn.waiting.length = m
  | 0, _ => ⟨s, hr, h, rfl, rfl, rfl, by rw [hptyIn]; rfl⟩
  | m + 1, hm => by
    obtain ⟨u, hrun, hcalm, hout, huw, hup, hui⟩ := h.queue hwindow hptyIn hr m (by omega)
    have hroom : u.input.ptyIn.Room ptyInCapacity 1 := by
      rw [Pipe.Room, hui]
      exact hm
    obtain ⟨v, hrun, hcalm, hvout, hvi, hvw, hvp⟩ := hcalm.type hwindow hroom hrun
    refine ⟨v, hrun, hcalm, hvout.trans hout, hvw.trans huw, hvp.trans hup, ?_⟩
    rw [hvi, Pipe.waiting_push, List.length_append, hui]
    rfl

end Runs

variable (banner cols rows) in
/-- The shell asks for the cursor and prints until its buffer is full, before anything is typed. -/
theorem exists_asked (hwindow : ∀ hop, 7 ≤ limits.window hop) (houtput : 4 ≤ limits.ptyOutput) :
    ∃ s, (terminalMachine limits banner cols rows).Reachable s ∧ Calm s ∧ (∃ buf, s.output.phase = .replying buf) ∧
      s.output.pty.waiting.length = limits.ptyOutput ∧ s.input.writing = [] ∧ s.input.ptyIn.waiting = [] ∧
      s.input.pty.waiting = [] := by
  let s₀ := TerminalState.initial banner cols rows
  let asked : Pipe UInt8 := Pipe.empty.push Pty.cursorQuery
  let full : Pipe UInt8 := (asked.pull 4).push (List.replicate limits.ptyOutput 0)
  have hlen : full.waiting.length = limits.ptyOutput := by
    rw [Pipe.waiting_push, List.length_append, List.length_replicate]
    exact Nat.zero_add _
  have hprinted := run_step (.shellPrints Pty.cursorQuery) { s₀ with output := { s₀.output with pty := asked } }
    (.refl : (terminalMachine limits banner cols rows).Run s₀ s₀) ⟨by decide, houtput⟩ rfl
  have hread := run_step (.readPty 4)
    { s₀ with output := { s₀.output with pty := asked.pull 4, phase := .replying Pty.cursorQuery } } hprinted
    ⟨rfl, rfl, by decide, by decide, show 4 ≤ asked.waiting.length by decide⟩ rfl
  let s₁ := { s₀ with output := { s₀.output with pty := full, phase := ReadPhase.replying Pty.cursorQuery } }
  have hfull := run_step (.shellPrints (List.replicate limits.ptyOutput 0)) s₁ hread
    ⟨List.ne_nil_of_length_pos (by rw [List.length_replicate]; omega), by
      rw [List.length_replicate]
      exact (Nat.zero_add _).le⟩ rfl
  have hempty : (Link.empty : FrameLink).Quiet := ⟨rfl, rfl, rfl⟩
  obtain ⟨p2p, hp2p, hheard⟩ := run_p2pIn (s := s₁) (resize cols rows) trivial (hwindow _) hempty rfl (fun _ => rfl) hfull
  exact ⟨_, ⟨s₀, rfl, hheard⟩, ⟨fun _ => rfl, rfl, hempty, hp2p, rfl⟩, ⟨_, rfl⟩, hlen, rfl, rfl, rfl⟩

variable (banner cols rows) in
theorem exists_stuck (hwindow : ∀ hop, 7 ≤ limits.window hop) (houtput : 4 ≤ limits.ptyOutput) :
    ∃ s, (terminalMachine limits banner cols rows).Reachable s ∧ (∀ t, s.alive t = true) ∧ Stuck limits s := by
  obtain ⟨u, ⟨s₀, hstart, hrun⟩, hcalm, hasked, hprinted, huw, hui, hup⟩ := exists_asked banner cols rows hwindow houtput
  obtain ⟨v, hrun, hcalm, hvout, hvw, hvi, hvp⟩ := hcalm.fill hwindow huw hui hup hrun limits.ptyInput le_rfl
  -- one more byte is in the hand of the writer
  have hroom : v.input.ptyIn.Room ptyInCapacity 1 := by
    rw [Pipe.Room, hvi]
    decide
  obtain ⟨w, hrun, hcalm, hwout, hwi, hww, hwp⟩ := hcalm.type hwindow hroom hrun
  have hwaiting : w.input.ptyIn.waiting = [.typed [0]] := by
    rw [hwi, Pipe.waiting_push, hvi]
    rfl
  let x := { w with input := { w.input with ptyIn := w.input.ptyIn.pull 1, writing := [(0 : UInt8)] } }
  have htaken := run_step .take x hrun ⟨hcalm.alive _, hww.trans hvw, by rw [hwaiting]; simp⟩
    (by simp [step, take, hwaiting, PtyInput.bytes, x])
  have hcalm : Calm x := ⟨hcalm.alive, hcalm.noting, hcalm.ipc, hcalm.p2p, hcalm.loop⟩
  have hxi : x.input.ptyIn.waiting = [] := by
    show (w.input.ptyIn.pull 1).waiting = []
    rw [Pipe.waiting_pull (by rw [hwaiting]; rfl), hwaiting]
    rfl
  obtain ⟨y, hrun, hcalm, hyout, hyw, hyp, hyi⟩ := hcalm.queue hwindow hxi htaken ptyInCapacity le_rfl
  have hout : y.output = u.output := hyout.trans (hwout.trans hvout)
  refine ⟨y, ⟨s₀, hstart, hrun⟩, hcalm.alive, ?_⟩
  constructor
  · rw [hout]
    exact hasked
  · rw [Pipe.Room, hyi]
    omega
  · rw [hyw]
    exact List.cons_ne_nil _ _
  · have hpty : y.input.pty.waiting.length = limits.ptyInput := by
      rw [hyp]
      show w.input.pty.waiting.length = _
      rw [hwp, hvp]
    rw [Pipe.Room, hpty]
    omega
  · rw [Pipe.Room, hout, hprinted]
    omega
  · exact hcalm.alive _

/-- Whatever the sizes of its buffers, a session can come to a state, with all its tasks still there, in which it is stuck:
the reader of the pseudoterminal waits to answer behind a full channel, the writer before a full buffer, and the shell
cannot print. It stays so, and no byte goes into the pseudoterminal and none is read from it, as long as the writer is not
stopped and the shell does not read while it cannot print. -/
theorem session_deadlock (hwindow : ∀ hop, 7 ≤ limits.window hop) (houtput : 4 ≤ limits.ptyOutput) :
    ∃ s, (terminalMachine limits banner cols rows).Reachable s ∧ (∀ t, s.alive t = true) ∧
      ∀ s', ((terminalMachine limits banner cols rows).restrict (ShellPrinting limits)).Run s s' →
        Stuck limits s' ∧ s'.input.pty.sent = s.input.pty.sent ∧ s'.output.pty.got = s.output.pty.got ∧
        s'.output.phase = s.output.phase := by
  obtain ⟨s, hreach, halive, hstuck⟩ := exists_stuck banner cols rows hwindow houtput
  refine ⟨s, hreach, halive, fun s' hr => ?_⟩
  obtain ⟨hstill, hsame⟩ := hstuck.run hr
  exact ⟨hstill, by rw [hsame.input], by rw [hsame.output], hsame.phase⟩

/-! ## A frame that is cut in two -/

/-- A frame the host has in hand is forwarded by the service. -/
theorem run_p2pOut {k : FrameLink} (frame : ShellFrame) (hfits : frame.Fits)
    (hwindow : frame.packet.length ≤ limits.window .p2pOut) (hk : k.Quiet) (hrest : s.output.ipc.rest = [])
    (halive : ∀ t, s.alive t = true)
    (hr : (terminalMachine limits banner cols rows).Run s₀
      { s with output := { s.output with p2p := k.accept shellFraming frame } }) :
    ∃ k', k'.Quiet ∧ k'.items = k.items ++ [frame] ∧ (terminalMachine limits banner cols rows).Run s₀
      { s with output := { s.output with p2p := k', ipc := s.output.ipc.accept shellFraming frame } } := by
  obtain ⟨k', harrival, hquiet⟩ := hk.pass (F := shellFraming) hfits
  refine ⟨k', hquiet, harrival.items, ?_⟩
  have hwritten := run_step (.write .p2pOut frame.packet.length) _ hr ⟨halive _, hk.canWrite hfits hwindow⟩ rfl
  refine run_arrival (fun k => { s with output := { s.output with p2p := k } })
    (fun k => { s with output := { s.output with p2p := k, ipc := s.output.ipc.accept shellFraming frame } })
    .forwardOut ?_ ?_ harrival hwritten
  · intro k n hcan hnone hgood
    refine ⟨⟨halive _, hrest, hcan⟩, ?_⟩
    simp [step, forwardOut, hnone, hgood, endsIf]
  · intro k n hcan hitem hgood
    refine ⟨⟨halive _, hrest, hcan⟩, ?_⟩
    simp [step, forwardOut, hitem, hgood, endsIf]

/-- A frame arrives at the desktop and is shown. -/
theorem run_receive {k k' : FrameLink} {frame : ShellFrame} (hping : frame ≠ ping)
    (harrival : Link.Arrival shellFraming frame k k') (hponging : s.output.ponging = false) (halive : ∀ t, s.alive t = true)
    (hr : (terminalMachine limits banner cols rows).Run s₀ { s with output := { s.output with ipc := k } }) :
    (terminalMachine limits banner cols rows).Run s₀
      { s with output := { s.output with ipc := k', shown := s.output.shown ++ [.frame frame] } } := by
  refine run_arrival (fun k => { s with output := { s.output with ipc := k } })
    (fun k => { s with output := { s.output with ipc := k, shown := s.output.shown ++ [.frame frame] } })
    .receive ?_ ?_ harrival hr
  · intro k n hcan hnone hgood
    refine ⟨⟨halive _, hponging, hcan⟩, ?_⟩
    simp [step, receive, hnone, hgood, endsIf, ← hponging]
  · intro k n hcan hitem hgood
    refine ⟨⟨halive _, hponging, hcan⟩, ?_⟩
    have hne : (frame == ping) = false := beq_eq_false_iff_ne.2 hping
    simp [step, receive, hitem, hgood, endsIf, hne, hponging]

/-- The bytes on their way are taken for the frames they spell. -/
theorem run_spelled : ∀ (frames : List ShellFrame) {s : TerminalState}, (∀ t, s.alive t = true) →
    s.output.ponging = false → s.output.ipc.held = [] → s.output.ipc.pipe.waiting = frames.flatMap packet →
    (∀ frame ∈ frames, frame.Fits) → ping ∉ frames → (terminalMachine limits banner cols rows).Run s₀ s →
    ∃ k, (terminalMachine limits banner cols rows).Run s₀
      { s with output := { s.output with ipc := k, shown := s.output.shown ++ frames.map .frame } }
  | [], s, _, _, _, _, _, _, hr => ⟨s.output.ipc, by simpa using hr⟩
  | frame :: frames, s, halive, hponging, hheld, hwaiting, hfits, hping, hr => by
    have hfirst : frame.Fits := hfits frame List.mem_cons_self
    rw [List.flatMap_cons] at hwaiting
    have harrival := Link.arrival (F := shellFraming) hfirst (frames.flatMap packet) (k := s.output.ipc) frame.packet
      (by rw [hheld]; rfl) (shellFraming.packet_ne_nil hfirst) hwaiting
    have hshown := run_receive (fun heq => hping (by simp [heq])) harrival hponging halive hr
    have hrest : (s.output.ipc.pipe.pull frame.packet.length).waiting = frames.flatMap packet := by
      rw [Pipe.waiting_pull (by rw [hwaiting]; simp), hwaiting, List.drop_left]
    let k₁ : FrameLink :=
      { s.output.ipc with pipe := s.output.ipc.pipe.pull frame.packet.length, held := [], read := s.output.ipc.read ++ [frame] }
    let s₁ := { s with output := { s.output with ipc := k₁, shown := s.output.shown ++ [ReaderEvent.frame frame] } }
    obtain ⟨k, hall⟩ := run_spelled frames (s := s₁) halive hponging rfl hrest
      (fun f hf => hfits f (List.mem_cons_of_mem _ hf)) (fun hmem => hping (List.mem_cons_of_mem _ hmem)) hshown
    refine ⟨k, ?_⟩
    simpa [s₁] using hall

/-- The banner has been shown, and a new size waits for the reader of the desktop. -/
structure Opened (banner : List UInt8) (c r : UInt16) (s : TerminalState) : Prop where
  alive : ∀ t, s.alive t = true
  ptyIn : s.input.ptyIn = .empty
  pty : s.output.pty = .empty
  phase : s.output.phase = .reading
  ptyOut : s.output.ptyOut = .empty
  p2p : s.output.p2p.Quiet
  sent : s.output.p2p.items = [data banner]
  ipc : s.output.ipc.Quiet
  ponging : s.output.ponging = false
  localResize : s.output.localResize = [(c, r)]
  shown : s.output.shown = [.frame (data banner)]

theorem length_packet_data (bytes : List UInt8) : (data bytes).packet.length = 3 + bytes.length := by
  simp only [packet, toBeBytes_eq, List.cons_append, List.nil_append, List.length_cons]
  omega

variable (cols rows) in
theorem exists_opened (hbanner : (data banner).Fits) (hwindow : ∀ hop, 3 + banner.length ≤ limits.window hop)
    (c r : UInt16) : ∃ s, (terminalMachine limits banner cols rows).Reachable s ∧ Opened banner c r s := by
  let s₀ := TerminalState.initial banner cols rows
  have hempty : (Link.empty : FrameLink).Quiet := ⟨rfl, rfl, rfl⟩
  have hlen : ∀ hop, (data banner).packet.length ≤ limits.window hop := by
    intro hop
    rw [length_packet_data]
    exact hwindow hop
  -- the banner
  have hstart : (terminalMachine limits banner cols rows).Run s₀ s₀ := .refl
  obtain ⟨p2p, hp2p, hitems, hforwarded⟩ :=
    run_p2pOut (s := s₀) (data banner) hbanner (hlen _) hempty rfl (fun _ => rfl) hstart
  obtain ⟨ipc, harrival, hipc⟩ := hempty.pass (F := shellFraming) (a := data banner) hbanner
  have hwritten := run_step (.write .ipcOut (data banner).packet.length) _ hforwarded
    ⟨rfl, hempty.canWrite hbanner (hlen _)⟩ rfl
  have hshown := run_receive (s := { s₀ with output := { s₀.output with p2p } }) (by simp) harrival rfl (fun _ => rfl) hwritten
  -- the window is resized
  have hasked := run_step (.command (.resize c r)) _ hshown ⟨rfl, rfl, rfl⟩ rfl
  have hnoted := run_step .noteResize _ hasked ⟨rfl, rfl, rfl, fun _ => show 0 < 16 by decide⟩ rfl
  exact ⟨_, ⟨s₀, rfl, hnoted⟩, ⟨fun _ => rfl, rfl, rfl, rfl, rfl, hp2p, hitems, hipc, rfl, rfl, rfl⟩⟩

section Printed

variable {c r : UInt16} {bytes : List UInt8}

/-- What the shell prints is read at once, and a question for the cursor in it is answered. -/
theorem Opened.reads (h : Opened banner c r s) (houtput : bytes.length ≤ limits.ptyOutput) (hne : bytes ≠ [])
    (hlen : bytes.length ≤ 4096) (hr : (terminalMachine limits banner cols rows).Run s₀ s) :
    ∃ ptyIn, (terminalMachine limits banner cols rows).Run s₀
      { s with
        input := { s.input with ptyIn }
        output := { s.output with pty := (Pipe.empty.push bytes).pull bytes.length, phase := .sending bytes } } := by
  have hpos := List.length_pos_of_ne_nil hne
  have hwaiting : (Pipe.empty.push bytes).waiting = bytes := by simp
  have hnext : (Pipe.empty.push bytes).next bytes.length = bytes := by rw [Pipe.next, hwaiting, List.take_length]
  have hprinted := run_step (.shellPrints bytes) { s with output := { s.output with pty := Pipe.empty.push bytes } } hr
    ⟨hne, by rw [h.pty]; exact (Nat.zero_add _).le.trans houtput⟩ (by simp [step, h.pty])
  have hen : TerminalState.Enabled limits { s with output := { s.output with pty := Pipe.empty.push bytes } }
      (.readPty bytes.length) := ⟨h.alive _, h.phase, hpos, hlen, by rw [hwaiting]⟩
  by_cases hasked : (Occurrences.windows 4 bytes).any (· == Pty.cursorQuery)
  · have hread := run_step _
      { s with output := { s.output with pty := (Pipe.empty.push bytes).pull bytes.length, phase := .replying bytes } }
      hprinted hen (by simp [step, readPty, hnext, hasked])
    refine ⟨s.input.ptyIn.push [.reply], run_step .reply _ hread ⟨h.alive _, rfl, fun _ => ?_⟩ ?_⟩
    · rw [h.ptyIn]
      decide
    · simp [step, reply, h.alive]
  · refine ⟨s.input.ptyIn, run_step _ _ hprinted hen ?_⟩
    simp [step, readPty, hnext, hasked]

/-- What the shell prints is on its way to the desktop as one frame. -/
theorem Opened.prints (h : Opened banner c r s) (hwindow : ∀ hop, 3 + bytes.length ≤ limits.window hop)
    (houtput : bytes.length ≤ limits.ptyOutput) (hne : bytes ≠ []) (hlen : bytes.length ≤ 4096)
    (hr : (terminalMachine limits banner cols rows).Run s₀ s) :
    ∃ s' : TerminalState, (terminalMachine limits banner cols rows).Run s₀ s' ∧ (∀ t, s'.alive t = true) ∧
      s'.output.ipc.held = [] ∧ s'.output.ipc.pipe.waiting = (data bytes).packet ∧ s'.output.ponging = false ∧
      s'.output.localResize = [(c, r)] ∧ s'.output.shown = [.frame (data banner)] ∧ s'.output.pty.sent = bytes ∧
      s'.output.p2p.items = [data banner, data bytes] := by
  have hfits : (data bytes).Fits := hlen.trans (by decide)
  have hpacket : ∀ hop, (data bytes).packet.length ≤ limits.window hop := by
    intro hop
    rw [length_packet_data]
    exact hwindow hop
  obtain ⟨ptyIn, hsending⟩ := h.reads houtput hne hlen hr
  let s₁ : TerminalState :=
    { s with
      input := { s.input with ptyIn }
      output := { s.output with
        pty := (Pipe.empty.push bytes).pull bytes.length
        phase := .reading
        ptyOut := Pipe.empty.push [data bytes] } }
  have hqueued := run_step .queue s₁ hsending ⟨h.alive _, rfl, fun _ => by rw [h.ptyOut]; decide⟩
    (by simp [step, TerminalState.queue, h.alive, h.ptyOut, s₁])
  let s₂ : TerminalState := { s₁ with output := { s₁.output with ptyOut := s₁.output.ptyOut.pull 1 } }
  have hsent := run_step .send { s₂ with output := { s₂.output with p2p := s.output.p2p.accept shellFraming (data bytes) } }
    hqueued ⟨h.alive _, h.p2p.rest, by simp [s₁]⟩ (by simp [step, send, hfits, s₁, s₂])
  obtain ⟨p2p, -, hitems, hforwarded⟩ := run_p2pOut (s := s₂) (data bytes) hfits (hpacket _) h.p2p h.ipc.rest h.alive hsent
  rw [h.sent] at hitems
  have hwritten := run_step (.write .ipcOut (data bytes).packet.length) _ hforwarded
    ⟨h.alive _, h.ipc.canWrite hfits (hpacket _)⟩ rfl
  exact ⟨_, hwritten, h.alive, h.ipc.held, h.ipc.waiting_written (F := shellFraming), h.ponging, h.localResize, h.shown,
    rfl, hitems⟩

/-- The reader of the desktop has taken the header of a frame when it takes the new size: the payload is left. -/
theorem run_cut (hfits : (data bytes).Fits) (hne : bytes ≠ []) (halive : ∀ t, s.alive t = true)
    (hheld : s.output.ipc.held = []) (hwaiting : s.output.ipc.pipe.waiting = (data bytes).packet)
    (hponging : s.output.ponging = false) (hresize : s.output.localResize = [(c, r)])
    (hr : (terminalMachine limits banner cols rows).Run s₀ s) :
    (terminalMachine limits banner cols rows).Run s₀
      { s with output := { s.output with
          ipc := { s.output.ipc with pipe := s.output.ipc.pipe.pull 3, held := [] }
          localResize := []
          shown := s.output.shown ++ [.localResize c r] } } := by
  have hpos := List.length_pos_of_ne_nil hne
  have hlen := length_packet_data bytes
  have hheader : s.output.ipc.held ++ s.output.ipc.pipe.next 3 = (data bytes).packet.take 3 := by
    rw [hheld, Pipe.next, hwaiting]
    rfl
  obtain ⟨n, hn, -⟩ := parse_part hfits (List.take_prefix 3 _) fun heq => by
    have := congrArg List.length heq
    rw [List.length_take] at this
    omega
  rw [← hheader] at hn
  obtain ⟨hnone, hgood⟩ := Link.unfinished (F := shellFraming) hn
  have hread := run_step (.receive 3)
    { s with output := { s.output with
        ipc := { s.output.ipc with
          pipe := s.output.ipc.pipe.pull 3
          held := s.output.ipc.held ++ s.output.ipc.pipe.next 3 } } } hr
    ⟨halive _, hponging, by decide, by rw [hwaiting]; omega, 3, by rw [hheld]; rfl, le_rfl⟩
    (by simp [step, receive, Link.receive, hnone, hgood, endsIf, ← hponging])
  exact run_step .takeResize _ hread ⟨halive _, hponging, by simp [hresize]⟩ (by simp [step, takeResize, hresize, Link.cancel])

end Printed

/-- A resize that falls behind the header of a data frame gives up its read, and the payload is read as frames. Whatever
frames the output of the shell spells, the desktop then takes them for frames of the host, although the host has sent
nothing but the banner and that output, each in one data frame. -/
theorem forged_frames (hbanner : banner.length ≤ 65535) (c r : UInt16) (frames : List ShellFrame)
    (hfits : ∀ frame ∈ frames, frame.Fits) (hping : ping ∉ frames) (hne : frames ≠ [])
    (hlen : (frames.flatMap packet).length ≤ 4096) (houtput : (frames.flatMap packet).length ≤ limits.ptyOutput)
    (hwindow : ∀ hop, 3 + max banner.length (frames.flatMap packet).length ≤ limits.window hop) :
    ∃ s, (terminalMachine limits banner cols rows).Reachable s ∧ s.output.pty.sent = frames.flatMap packet ∧
      s.output.p2p.items = [data banner, data (frames.flatMap packet)] ∧
      s.output.shown = .frame (data banner) :: .localResize c r :: frames.map .frame := by
  have hwide : ∀ hop, 3 + banner.length ≤ limits.window hop ∧ 3 + (frames.flatMap packet).length ≤ limits.window hop := by
    intro hop
    have := hwindow hop
    omega
  obtain ⟨u, ⟨s₀, hstart, hrun⟩, hopened⟩ := exists_opened cols rows hbanner (fun hop => (hwide hop).1) c r
  have hbytes : frames.flatMap packet ≠ [] := by
    obtain ⟨frame, rest, rfl⟩ := List.exists_cons_of_ne_nil hne
    exact List.append_ne_nil_of_left_ne_nil (shellFraming.packet_ne_nil (hfits frame List.mem_cons_self)) _
  obtain ⟨v, hrun, halive, hheld, hwaiting, hponging, hresize, hshown, hprinted, hsent⟩ :=
    hopened.prints (fun hop => (hwide hop).2) houtput hbytes hlen hrun
  have hcut := run_cut (hlen.trans (by decide)) hbytes halive hheld hwaiting hponging hresize hrun
  have hleft : (v.output.ipc.pipe.pull 3).waiting = frames.flatMap packet := by
    rw [Pipe.waiting_pull (by rw [hwaiting, length_packet_data]; omega), hwaiting]
    rfl
  obtain ⟨k, hall⟩ := run_spelled frames (s := { v with output := { v.output with
    ipc := { v.output.ipc with pipe := v.output.ipc.pipe.pull 3, held := [] }
    localResize := []
    shown := v.output.shown ++ [.localResize c r] } }) halive hponging rfl hleft hfits hping hcut
  refine ⟨_, ⟨s₀, hstart, hall⟩, hprinted, hsent, ?_⟩
  rw [hshown]
  rfl

namespace TerminalSample

theorem session_deadlock_small : ∃ s, (terminalMachine small [72] 80 24).Reachable s ∧ (∀ t, s.alive t = true) ∧
    ∀ s', ((terminalMachine small [72] 80 24).restrict (ShellPrinting small)).Run s s' →
      Stuck small s' ∧ s'.input.pty.sent = s.input.pty.sent ∧ s'.output.pty.got = s.output.pty.got ∧
      s'.output.phase = s.output.phase :=
  session_deadlock (fun _ => show 7 ≤ 16 by decide) (by decide)

/-- The shell makes the screen of the operator as small as it can. -/
theorem forged_frames_resize : ∃ s, (terminalMachine small [72] 80 24).Reachable s ∧
    s.output.pty.sent = [1, 0, 4, 0, 1, 0, 1] ∧ s.output.p2p.items = [data [72], data [1, 0, 4, 0, 1, 0, 1]] ∧
    s.output.shown = [.frame (data [72]), .localResize 100 30, .frame (resize 1 1)] := by
  have hforged : ∃ s, (terminalMachine small [72] 80 24).Reachable s ∧
      s.output.pty.sent = [resize 1 1].flatMap packet ∧
      s.output.p2p.items = [data [72], data ([resize 1 1].flatMap packet)] ∧
      s.output.shown = .frame (data [72]) :: .localResize 100 30 :: [resize 1 1].map .frame :=
    forged_frames (by decide) 100 30 [resize 1 1] (by decide) (by decide) (by decide) (by decide) (by decide)
      (fun _ => show 10 ≤ 16 by decide)
  exact hforged

end TerminalSample

end Fortiq
