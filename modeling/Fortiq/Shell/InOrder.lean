/-
What goes through a terminal session stays in order and whole. The bytes written into the pseudoterminal are what the
operator typed, frame after frame, with answers to questions for the cursor between frames; the bytes given to the screen
are the banner and what the shell printed, as long as no resize falls into the middle of a frame. Where no task can go on,
everything has arrived, or the shell does not read its input.
-/
import Fortiq.Shell.Session

namespace Fortiq

open ShellFrame TerminalState

/-! ## What a step does to each side -/

theorem LoopPhase.of_typing : ∀ {phase : LoopPhase}, phase.typing?.isSome → ∃ bytes, phase = .typing bytes
  | .typing bytes, _ => ⟨bytes, rfl⟩

theorem ReadPhase.of_replying : ∀ {phase : ReadPhase}, phase.replying?.isSome → ∃ buf, phase = .replying buf
  | .replying buf, _ => ⟨buf, rfl⟩

theorem ReadPhase.of_sending : ∀ {phase : ReadPhase}, phase.sending?.isSome → ∃ buf, phase = .sending buf
  | .sending buf, _ => ⟨buf, rfl⟩

inductive InputStep (limits : TerminalLimits) (i : InputSide) : TerminalLabel → InputSide → Prop
  | same (l : TerminalLabel) : InputStep limits i l i
  | typed {bytes : List UInt8} (hfits : (data bytes).Fits) : InputStep limits i (.command (.input bytes))
      { i with commands := i.commands ++ [.input bytes], ipc := i.ipc.accept shellFraming (data bytes) }
  | oversized {bytes : List UInt8} (hfits : ¬ (data bytes).Fits) : InputStep limits i (.command (.input bytes))
      { i with commands := i.commands ++ [.input bytes] }
  | resizes (cols rows : UInt16) (hnoting : i.noting = none) : InputStep limits i (.command (.resize cols rows))
      { i with commands := i.commands ++ [.resize cols rows], noting := some (cols, rows) }
  | closes : InputStep limits i (.command .close) { i with commands := i.commands ++ [.close] }
  | control {frame : ShellFrame} {frames : List ShellFrame} (hcontrol : i.control = frame :: frames) :
      InputStep limits i .control { i with control := frames, ipc := i.ipc.accept shellFraming frame }
  | noted {cols rows : UInt16} (hnoting : i.noting = some (cols, rows)) : InputStep limits i .noteResize
      { i with noting := none, ipc := i.ipc.accept shellFraming (resize cols rows) }
  | writesIpc (n : Nat) : InputStep limits i (.write .ipcIn n) { i with ipc := i.ipc.write n }
  | writesP2p (n : Nat) : InputStep limits i (.write .p2pIn n) { i with p2p := i.p2p.write n }
  | forwards {n : Nat} (hcan : i.ipc.CanReceive shellFraming n) (hnone : i.ipc.completes shellFraming n = none) :
      InputStep limits i (.forwardIn n) { i with ipc := i.ipc.receive shellFraming n }
  | forwarded {n : Nat} {frame : ShellFrame} (hcan : i.ipc.CanReceive shellFraming n)
      (hframe : i.ipc.completes shellFraming n = some frame) : InputStep limits i (.forwardIn n)
        { i with ipc := i.ipc.receive shellFraming n, p2p := i.p2p.accept shellFraming frame }
  | hears {n : Nat} (hloop : i.loop = .reading) (hcan : i.p2p.CanReceive shellFraming n)
      (hnone : i.p2p.completes shellFraming n = none) :
      InputStep limits i (.hear n) { i with p2p := i.p2p.receive shellFraming n }
  | heard {n : Nat} {frame : ShellFrame} (hloop : i.loop = .reading) (hcan : i.p2p.CanReceive shellFraming n)
      (hframe : i.p2p.completes shellFraming n = some frame) : InputStep limits i (.hear n)
        { i with
          p2p := i.p2p.receive shellFraming n
          loop := afterFrame frame
          sizes := i.sizes ++ (sizeOf? frame).toList }
  | types {bytes : List UInt8} (hloop : i.loop = .typing bytes) (hroom : i.ptyIn.Room ptyInCapacity 1) :
      InputStep limits i .type { i with loop := .reading, ptyIn := i.ptyIn.push [.typed bytes] }
  | ponged (hloop : i.loop = .ponging) : InputStep limits i .pong { i with loop := .reading }
  | replies (hroom : i.ptyIn.Room ptyInCapacity 1) : InputStep limits i .reply { i with ptyIn := i.ptyIn.push [.reply] }
  | takes {x : PtyInput} {xs : List PtyInput} (hwriting : i.writing = []) (hx : i.ptyIn.waiting = x :: xs) :
      InputStep limits i .take { i with ptyIn := i.ptyIn.pull 1, writing := x.bytes }
  | feeds {n : Nat} (hpos : 0 < n) (hroom : i.pty.Room limits.ptyInput n) : InputStep limits i (.feed n)
      { i with pty := i.pty.push (i.writing.take n), writing := i.writing.drop n }
  | shellReads (n : Nat) : InputStep limits i (.shellReads n) { i with pty := i.pty.pull n }
  | answers : InputStep limits i .answer { i with control := i.control ++ [.pong] }

inductive OutputStep (limits : TerminalLimits) (o : OutputSide) : TerminalLabel → OutputSide → Prop
  | same (l : TerminalLabel) : OutputStep limits o l o
  | prints {bytes : List UInt8} (hne : bytes ≠ []) (hroom : o.pty.Room limits.ptyOutput bytes.length) :
      OutputStep limits o (.shellPrints bytes) { o with pty := o.pty.push bytes }
  | asks {n : Nat} (hphase : o.phase = .reading) (hn : n ≤ 4096) : OutputStep limits o (.readPty n)
      { o with pty := o.pty.pull n, phase := .replying (o.pty.next n) }
  | reads {n : Nat} (hphase : o.phase = .reading) (hn : n ≤ 4096) : OutputStep limits o (.readPty n)
      { o with pty := o.pty.pull n, phase := .sending (o.pty.next n) }
  | replied {buf : List UInt8} (hphase : o.phase = .replying buf) : OutputStep limits o .reply { o with phase := .sending buf }
  | queues {buf : List UInt8} (hphase : o.phase = .sending buf) :
      OutputStep limits o .queue { o with phase := .reading, ptyOut := o.ptyOut.push [.data buf] }
  | pongs : OutputStep limits o .pong { o with ptyOut := o.ptyOut.push [.pong] }
  | ticks : OutputStep limits o .tick { o with ptyOut := o.ptyOut.push [.ping] }
  | sends {frame : ShellFrame} {frames : List ShellFrame} (hwaiting : o.ptyOut.waiting = frame :: frames)
      (hfits : frame.Fits) :
      OutputStep limits o .send { o with ptyOut := o.ptyOut.pull 1, p2p := o.p2p.accept shellFraming frame }
  | sendFails {frame : ShellFrame} {frames : List ShellFrame} (hwaiting : o.ptyOut.waiting = frame :: frames)
      (hfits : ¬ frame.Fits) : OutputStep limits o .send { o with ptyOut := o.ptyOut.pull 1 }
  | writesP2p (n : Nat) : OutputStep limits o (.write .p2pOut n) { o with p2p := o.p2p.write n }
  | writesIpc (n : Nat) : OutputStep limits o (.write .ipcOut n) { o with ipc := o.ipc.write n }
  | forwards {n : Nat} (hcan : o.p2p.CanReceive shellFraming n) (hnone : o.p2p.completes shellFraming n = none) :
      OutputStep limits o (.forwardOut n) { o with p2p := o.p2p.receive shellFraming n }
  | forwarded {n : Nat} {frame : ShellFrame} (hcan : o.p2p.CanReceive shellFraming n)
      (hframe : o.p2p.completes shellFraming n = some frame) : OutputStep limits o (.forwardOut n)
        { o with p2p := o.p2p.receive shellFraming n, ipc := o.ipc.accept shellFraming frame }
  | receives {n : Nat} (hcan : o.ipc.CanReceive shellFraming n) (hnone : o.ipc.completes shellFraming n = none) :
      OutputStep limits o (.receive n) { o with ipc := o.ipc.receive shellFraming n, ponging := false }
  | received {n : Nat} {frame : ShellFrame} (hcan : o.ipc.CanReceive shellFraming n)
      (hframe : o.ipc.completes shellFraming n = some frame) : OutputStep limits o (.receive n)
        { o with
          ipc := o.ipc.receive shellFraming n
          ponging := frame == .ping
          shown := o.shown ++ [.frame frame] }
  | noted (cols rows : UInt16) : OutputStep limits o .noteResize { o with localResize := o.localResize ++ [(cols, rows)] }
  | resized {cols rows : UInt16} {sizes : List (UInt16 × UInt16)} (hsizes : o.localResize = (cols, rows) :: sizes) :
      OutputStep limits o .takeResize
        { o with localResize := sizes, ipc := o.ipc.cancel, shown := o.shown ++ [.localResize cols rows] }
  | answered : OutputStep limits o .answer { o with ponging := false }

variable {limits : TerminalLimits} {s : TerminalState} {l : TerminalLabel}

@[simp] theorem TerminalState.input_endsIf (failed : Bool) (t : TerminalTask) : (s.endsIf failed t).input = s.input := by
  cases failed <;> rfl

@[simp] theorem TerminalState.output_endsIf (failed : Bool) (t : TerminalTask) : (s.endsIf failed t).output = s.output := by
  cases failed <;> rfl

theorem inputStep (h : s.Enabled limits l) : InputStep limits s.input l (s.step l).input := by
  cases l with
  | command c =>
    cases c with
    | input bytes =>
      simp only [step, command]
      split
      · exact .typed ‹_›
      · exact .oversized ‹_›
    | resize cols rows => exact .resizes cols rows h.2.1
    | close => exact .closes
  | control =>
    simp only [step, TerminalState.control]
    split
    · exact .same _
    · exact .control ‹_›
  | noteResize =>
    simp only [step, noteResize]
    split
    · exact .same _
    · exact .noted ‹_›
  | write hop n =>
    cases hop with
    | ipcIn => exact .writesIpc n
    | p2pIn => exact .writesP2p n
    | p2pOut => exact .same _
    | ipcOut => exact .same _
  | forwardIn n =>
    simp only [step, forwardIn, input_endsIf]
    cases hframe : s.input.ipc.completes shellFraming n with
    | none => exact .forwards h.2.2 hframe
    | some frame => exact .forwarded h.2.2 hframe
  | hear n =>
    simp only [step, hear, input_endsIf]
    cases hframe : s.input.p2p.completes shellFraming n with
    | none =>
      have hkeep : InputStep limits s.input _ _ := .hears h.2.1 h.2.2 hframe
      simpa [← h.2.1] using hkeep
    | some frame => exact .heard h.2.1 h.2.2 hframe
  | type =>
    obtain ⟨-, htyping, hroom⟩ := h
    obtain ⟨bytes, hloop⟩ := LoopPhase.of_typing htyping
    simp only [step, type, hloop]
    split
    · exact .types hloop (hroom ‹_›)
    · exact .same _
  | pong => exact .ponged h.2.1
  | take =>
    simp only [step, take]
    split
    · exact .same _
    · exact .takes h.2.1 ‹_›
  | feed n => exact .feeds h.2.1 h.2.2.2
  | shellReads n => exact .shellReads n
  | reply =>
    obtain ⟨-, hreplying, hroom⟩ := h
    obtain ⟨buf, hphase⟩ := ReadPhase.of_replying hreplying
    simp only [step, reply, hphase]
    split
    · exact .replies (hroom ‹_›)
    · exact .same _
  | queue =>
    simp only [step, queue]
    split
    · split <;> exact .same _
    · exact .same _
  | tick =>
    simp only [step, tick]
    split <;> exact .same _
  | send =>
    simp only [step, send]
    split
    · exact .same _
    · split <;> exact .same _
  | receive n =>
    simp only [step, receive, input_endsIf]
    exact .same _
  | takeResize =>
    simp only [step, takeResize]
    split <;> exact .same _
  | answer =>
    simp only [step, answer]
    split
    · exact .answers
    · exact .same _
  | forwardOut n =>
    simp only [step, forwardOut, input_endsIf]
    exact .same _
  | shellPrints bytes => exact .same _
  | readPty n => exact .same _
  | stop t => exact .same _

theorem outputStep (h : s.Enabled limits l) : OutputStep limits s.output l (s.step l).output := by
  cases l with
  | noteResize =>
    simp only [step, noteResize]
    split
    · exact .same _
    · split
      · exact .noted _ _
      · exact .same _
  | write hop n =>
    cases hop with
    | ipcIn => exact .same _
    | p2pIn => exact .same _
    | p2pOut => exact .writesP2p n
    | ipcOut => exact .writesIpc n
  | forwardOut n =>
    simp only [step, forwardOut, output_endsIf]
    cases hframe : s.output.p2p.completes shellFraming n with
    | none => exact .forwards h.2.2 hframe
    | some frame => exact .forwarded h.2.2 hframe
  | pong =>
    simp only [step, TerminalState.pong]
    split
    · exact .pongs
    · exact .same _
  | shellPrints bytes => exact .prints h.1 h.2
  | readPty n =>
    simp only [step, readPty]
    split
    · exact .asks h.2.1 h.2.2.2.1
    · exact .reads h.2.1 h.2.2.2.1
  | reply =>
    obtain ⟨buf, hphase⟩ := ReadPhase.of_replying h.2.1
    simp only [step, reply, hphase]
    exact .replied hphase
  | queue =>
    obtain ⟨buf, hphase⟩ := ReadPhase.of_sending h.2.1
    simp only [step, queue, hphase]
    split
    · exact .queues hphase
    · exact .same _
  | tick =>
    simp only [step, tick]
    split
    · exact .ticks
    · exact .same _
  | send =>
    simp only [step, send]
    split
    · exact .same _
    · split
      · exact .sends ‹_› ‹_›
      · exact .sendFails ‹_› ‹_›
  | receive n =>
    simp only [step, receive, output_endsIf]
    cases hframe : s.output.ipc.completes shellFraming n with
    | none =>
      have hkeep : OutputStep limits s.output _ _ := .receives h.2.2 hframe
      simpa using hkeep
    | some frame =>
      have hgot : OutputStep limits s.output _ _ := .received h.2.2 hframe
      simpa using hgot
  | takeResize =>
    simp only [step, takeResize]
    split
    · exact .same _
    · exact .resized ‹_›
  | answer =>
    simp only [step, answer]
    exact .answered
  | command c =>
    cases c with
    | input bytes =>
      simp only [step, command]
      split <;> exact .same _
    | resize cols rows => exact .same _
    | close => exact .same _
  | control =>
    simp only [step, TerminalState.control]
    split <;> exact .same _
  | forwardIn n =>
    simp only [step, forwardIn, output_endsIf]
    exact .same _
  | hear n =>
    simp only [step, hear, output_endsIf]
    exact .same _
  | type =>
    simp only [step, type]
    split
    · split <;> exact .same _
    · exact .same _
  | take =>
    simp only [step, take]
    split <;> exact .same _
  | feed n => exact .same _
  | shellReads n => exact .same _
  | stop t => exact .same _

/-! ## From the keyboard to the pseudoterminal -/

/-- The bytes of a data frame. -/
def dataOf? : ShellFrame → Option (List UInt8)
  | .data bytes => some bytes
  | _ => none

/-- The input of a command, if a frame has room for it. -/
def TerminalCommand.typed? : TerminalCommand → Option (List UInt8)
  | .input bytes => if (data bytes).Fits then some bytes else none
  | _ => none

def TerminalCommand.size? : TerminalCommand → Option (UInt16 × UInt16)
  | .resize cols rows => some (cols, rows)
  | _ => none

/-- What the loop has in its hand. -/
def LoopPhase.hand : LoopPhase → List (List UInt8)
  | .typing bytes => [bytes]
  | _ => []

structure InputOk (cols rows : UInt16) (i : InputSide) : Prop where
  ipc : i.ipc.Ok shellFraming
  p2p : i.p2p.Ok shellFraming
  inputs : i.ipc.items.filterMap dataOf? = i.commands.filterMap TerminalCommand.typed?
  asked : i.ipc.items.filterMap sizeOf? ++ i.noting.toList = i.commands.filterMap TerminalCommand.size?
  relayed : i.p2p.items = resize cols rows :: i.ipc.read
  heard : i.p2p.read.filterMap dataOf? = i.ptyIn.sent.filterMap PtyInput.typed? ++ i.loop.hand
  sized : i.sizes = i.p2p.read.filterMap sizeOf?
  fed : i.pty.sent ++ i.writing = i.ptyIn.got.flatMap PtyInput.bytes
  pongs : ∀ frame ∈ i.control, frame = .pong
  noPing : ping ∉ i.ipc.items
  ponging : i.loop = .ponging → ping ∈ i.p2p.read

/-- A frame that arrives is read. -/
theorem read_receive {k : FrameLink} {n : Nat} {frame : ShellFrame} (h : k.completes shellFraming n = some frame) :
    (k.receive shellFraming n).read = k.read ++ [frame] := by
  rw [Link.receive, h]

theorem read_receive_none {k : FrameLink} {n : Nat} (h : k.completes shellFraming n = none) :
    (k.receive shellFraming n).read = k.read := by
  rw [Link.receive, h]

theorem InputOk.initial {cols rows : UInt16} (banner : List UInt8) :
    InputOk cols rows (TerminalState.initial banner cols rows).input := by
  constructor
  · exact .empty
  · exact Link.Ok.empty.accept trivial
  · rfl
  · rfl
  · rfl
  · rfl
  · rfl
  · rfl
  · simp [TerminalState.initial]
  · simp [TerminalState.initial, Link.empty]
  · simp [TerminalState.initial]

variable {cols rows : UInt16} {i i' : InputSide}

theorem InputOk.step (h : InputOk cols rows i) (hstep : InputStep limits i l i') : InputOk cols rows i' := by
  cases hstep with
  | same => exact h
  | @typed bytes hfits =>
    refine ⟨h.ipc.accept hfits, h.p2p, ?_, ?_, h.relayed, h.heard, h.sized, h.fed, h.pongs, ?_, h.ponging⟩
    · simp [Link.accept, h.inputs, dataOf?, TerminalCommand.typed?, hfits]
    · simp [Link.accept, List.filterMap_cons, ← h.asked, sizeOf?, TerminalCommand.size?]
    · simp [Link.accept, h.noPing]
  | @oversized bytes hfits =>
    refine ⟨h.ipc, h.p2p, ?_, ?_, h.relayed, h.heard, h.sized, h.fed, h.pongs, h.noPing, h.ponging⟩
    · simp [h.inputs, TerminalCommand.typed?, hfits]
    · simp [h.asked, TerminalCommand.size?]
  | resizes cols' rows' hnoting =>
    refine ⟨h.ipc, h.p2p, ?_, ?_, h.relayed, h.heard, h.sized, h.fed, h.pongs, h.noPing, h.ponging⟩
    · simp [h.inputs, TerminalCommand.typed?]
    · have := h.asked
      rw [hnoting, Option.toList_none, List.append_nil] at this
      simp [this, TerminalCommand.size?]
  | closes =>
    refine ⟨h.ipc, h.p2p, ?_, ?_, h.relayed, h.heard, h.sized, h.fed, h.pongs, h.noPing, h.ponging⟩
    · simp [h.inputs, TerminalCommand.typed?]
    · simp [h.asked, TerminalCommand.size?]
  | @control frame frames hcontrol =>
    obtain rfl : frame = .pong := h.pongs frame (by simp [hcontrol])
    refine ⟨h.ipc.accept trivial, h.p2p, ?_, ?_, h.relayed, h.heard, h.sized, h.fed, ?_, ?_, h.ponging⟩
    · simp [Link.accept, h.inputs, dataOf?]
    · simp [Link.accept, List.filterMap_cons, ← h.asked, sizeOf?]
    · intro f hf
      exact h.pongs f (by simp [hcontrol, hf])
    · simp [Link.accept, h.noPing]
  | @noted cols' rows' hnoting =>
    refine ⟨h.ipc.accept trivial, h.p2p, ?_, ?_, h.relayed, h.heard, h.sized, h.fed, h.pongs, ?_, h.ponging⟩
    · simp [Link.accept, h.inputs, dataOf?]
    · rw [← h.asked, hnoting]
      simp [Link.accept, sizeOf?]
    · simp [Link.accept, h.noPing]
  | writesIpc n => exact ⟨h.ipc.write n, h.p2p, h.inputs, h.asked, h.relayed, h.heard, h.sized, h.fed, h.pongs, h.noPing, h.ponging⟩
  | writesP2p n => exact ⟨h.ipc, h.p2p.write n, h.inputs, h.asked, h.relayed, h.heard, h.sized, h.fed, h.pongs, h.noPing, h.ponging⟩
  | forwards hcan hnone =>
    refine ⟨h.ipc.receive hcan, h.p2p, ?_, ?_, ?_, h.heard, h.sized, h.fed, h.pongs, ?_, h.ponging⟩
    · simpa using h.inputs
    · simpa using h.asked
    · simpa [read_receive_none hnone] using h.relayed
    · simpa using h.noPing
  | forwarded hcan hframe =>
    obtain ⟨hfits, -, -⟩ := (h.ipc.completes_iff hcan).1 hframe
    refine ⟨h.ipc.receive hcan, h.p2p.accept hfits, ?_, ?_, ?_, h.heard, h.sized, h.fed, h.pongs, ?_, h.ponging⟩
    · simpa using h.inputs
    · simpa using h.asked
    · simp [Link.accept, read_receive hframe, h.relayed]
    · simpa using h.noPing
  | hears hloop hcan hnone =>
    refine ⟨h.ipc, h.p2p.receive hcan, h.inputs, h.asked, ?_, ?_, ?_, h.fed, h.pongs, h.noPing, ?_⟩
    · simpa using h.relayed
    · simpa [read_receive_none hnone] using h.heard
    · simpa [read_receive_none hnone] using h.sized
    · simp [hloop]
  | @heard n frame hloop hcan hframe =>
    refine ⟨h.ipc, h.p2p.receive hcan, h.inputs, h.asked, ?_, ?_, ?_, h.fed, h.pongs, h.noPing, ?_⟩
    · simpa using h.relayed
    · have hheard := h.heard
      rw [hloop, show LoopPhase.hand .reading = [] from rfl, List.append_nil] at hheard
      simp only [read_receive hframe, List.filterMap_append, hheard]
      cases frame <;> rfl
    · simp only [read_receive hframe, List.filterMap_append, h.sized]
      cases frame <;> rfl
    · rw [read_receive hframe]
      cases frame <;> simp [afterFrame]
  | @types bytes hloop hroom =>
    refine ⟨h.ipc, h.p2p, h.inputs, h.asked, h.relayed, ?_, h.sized, ?_, h.pongs, h.noPing, by simp⟩
    · rw [h.heard, hloop]
      simp [LoopPhase.hand, PtyInput.typed?]
    · simpa using h.fed
  | ponged hloop =>
    refine ⟨h.ipc, h.p2p, h.inputs, h.asked, h.relayed, ?_, h.sized, h.fed, h.pongs, h.noPing, by simp⟩
    rw [h.heard, hloop]
    rfl
  | replies hroom =>
    refine ⟨h.ipc, h.p2p, h.inputs, h.asked, h.relayed, ?_, h.sized, ?_, h.pongs, h.noPing, h.ponging⟩
    · simpa [List.filterMap_cons, PtyInput.typed?] using h.heard
    · simpa using h.fed
  | @takes x xs hwriting hx =>
    refine ⟨h.ipc, h.p2p, h.inputs, h.asked, h.relayed, h.heard, h.sized, ?_, h.pongs, h.noPing, h.ponging⟩
    have hfed := h.fed
    rw [hwriting, List.append_nil] at hfed
    show i.pty.sent ++ x.bytes = (i.ptyIn.pull 1).got.flatMap PtyInput.bytes
    rw [Pipe.got_pull, Pipe.next, hx, hfed]
    simp
  | @feeds n hpos hroom =>
    refine ⟨h.ipc, h.p2p, h.inputs, h.asked, h.relayed, h.heard, h.sized, ?_, h.pongs, h.noPing, h.ponging⟩
    simpa [List.append_assoc] using h.fed
  | shellReads n => exact ⟨h.ipc, h.p2p, h.inputs, h.asked, h.relayed, h.heard, h.sized, h.fed, h.pongs, h.noPing, h.ponging⟩
  | answers =>
    refine ⟨h.ipc, h.p2p, h.inputs, h.asked, h.relayed, h.heard, h.sized, h.fed, ?_, h.noPing, h.ponging⟩
    intro frame hframe
    rcases List.mem_append.1 hframe with hframe | hframe
    · exact h.pongs frame hframe
    · exact List.mem_singleton.1 hframe

/-- What the host has heard begins with the first size and goes on with what the desktop has sent. -/
theorem InputOk.heard_prefix {β : Type} (h : InputOk cols rows i) (f : ShellFrame → Option β) :
    i.p2p.read.filterMap f <+: (f (resize cols rows)).toList ++ i.ipc.items.filterMap f := by
  have hhost := h.p2p.read_prefix.filterMap f
  rw [h.relayed, List.filterMap_cons] at hhost
  have hdesktop := h.ipc.read_prefix.filterMap f
  refine hhost.trans ?_
  cases f (resize cols rows) with
  | none => exact hdesktop
  | some b => exact (List.prefix_cons_inj b).2 hdesktop

/-- The typed input among the bytes the host has queued is a beginning of what the operator typed. -/
theorem InputOk.typed_prefix (h : InputOk cols rows i) :
    i.ptyIn.sent.filterMap PtyInput.typed? <+: i.commands.filterMap TerminalCommand.typed? := by
  have hheard := h.heard_prefix dataOf?
  rw [h.heard, h.inputs] at hheard
  exact (List.prefix_append _ _).trans hheard

theorem InputOk.reachable {banner : List UInt8} (h : (terminalMachine limits banner cols rows).Reachable s) :
    InputOk cols rows s.input := by
  refine h.invariant (I := fun u => InputOk cols rows u.input) (fun u hu => ?_) fun u l hl hu => hu.step (inputStep hl)
  obtain rfl : u = .initial banner cols rows := hu
  exact .initial banner

/-- The bytes in the pseudoterminal are those of a list of writes, each of which is the answer to a question for the
cursor or the whole input of one command, and the inputs among them are the first of those the operator has given, in
their order. The sizes the pseudoterminal was given are the first ones the operator asked for, in their order. -/
theorem typed_in_order {banner : List UInt8} (h : (terminalMachine limits banner cols rows).Reachable s) :
    (∃ writes : List PtyInput, s.input.pty.sent <+: writes.flatMap PtyInput.bytes ∧
      writes.filterMap PtyInput.typed? <+: s.input.commands.filterMap TerminalCommand.typed?) ∧
    s.input.sizes <+: (cols, rows) :: s.input.commands.filterMap TerminalCommand.size? := by
  have hok := InputOk.reachable h
  constructor
  · refine ⟨s.input.ptyIn.got, ?_, (s.input.ptyIn.got_prefix.filterMap _).trans hok.typed_prefix⟩
    rw [← hok.fed]
    exact List.prefix_append _ _
  · rw [hok.sized, ← hok.asked]
    refine (hok.heard_prefix sizeOf?).trans ?_
    exact (List.prefix_cons_inj _).2 (List.prefix_append _ _)

/-! ## From the shell to the screen -/

def ReaderEvent.frame? : ReaderEvent → Option ShellFrame
  | .localResize _ _ => none
  | .frame f => some f

/-- The bytes that go to the screen. -/
def ReaderEvent.bytes (event : ReaderEvent) : List UInt8 := event.frame?.elim [] payload

structure OutputOk (banner : List UInt8) (o : OutputSide) : Prop where
  p2p : o.p2p.Ok shellFraming
  ipc : o.ipc.Ok shellFraming
  printed : o.ptyOut.sent.flatMap payload ++ o.phase.hand = o.pty.got
  fits : ∀ frame ∈ o.ptyOut.sent, frame.Fits ∧ sizeOf? frame = none
  hand : o.phase.hand.length ≤ 4096
  sent : o.p2p.items = data banner :: o.ptyOut.got
  relayed : o.ipc.items = o.p2p.read
  shown : o.shown.filterMap ReaderEvent.frame? = o.ipc.read

/-- A size is taken between two frames. -/
def BetweenFrames (s : TerminalState) (l : TerminalLabel) : Prop := l = .takeResize → s.output.ipc.held = []

instance (s : TerminalState) (l : TerminalLabel) : Decidable (BetweenFrames s l) := inferInstanceAs (Decidable (_ → _))

theorem OutputOk.initial {banner : List UInt8} (h : (data banner).Fits) :
    OutputOk banner (TerminalState.initial banner cols rows).output := by
  constructor
  · exact Link.Ok.empty.accept h
  · exact .empty
  · rfl
  · simp [TerminalState.initial, Pipe.empty]
  · simp [TerminalState.initial, ReadPhase.hand]
  · rfl
  · rfl
  · rfl

variable {banner : List UInt8} {o o' : OutputSide}

/-- A frame is queued. -/
theorem OutputOk.push (h : OutputOk banner o) {frame : ShellFrame} (hfits : frame.Fits) (hsize : sizeOf? frame = none)
    {phase : ReadPhase} (hphase : o.phase.hand = payload frame ++ phase.hand) :
    OutputOk banner { o with phase, ptyOut := o.ptyOut.push [frame] } := by
  refine ⟨h.p2p, h.ipc, ?_, ?_, ?_, ?_, h.relayed, h.shown⟩
  · rw [← h.printed, hphase]
    simp
  · intro f hf
    rcases List.mem_append.1 hf with hf | hf
    · exact h.fits f hf
    · rw [List.mem_singleton.1 hf]
      exact ⟨hfits, hsize⟩
  · have hhand := h.hand
    rw [hphase, List.length_append] at hhand
    exact (Nat.le_add_left _ _).trans hhand
  · simpa using h.sent

theorem OutputOk.step (h : OutputOk banner o) (hstep : OutputStep limits o l o')
    (hbetween : l = .takeResize → o.ipc.held = []) : OutputOk banner o' := by
  cases hstep with
  | same => exact h
  | prints hne hroom =>
    refine ⟨h.p2p, h.ipc, ?_, h.fits, h.hand, h.sent, h.relayed, h.shown⟩
    simpa using h.printed
  | @asks n hphase hn =>
    have hprinted := h.printed
    rw [hphase, ReadPhase.hand, List.append_nil] at hprinted
    refine ⟨h.p2p, h.ipc, ?_, h.fits, ?_, h.sent, h.relayed, h.shown⟩
    · rw [Pipe.got_pull, ← hprinted]
      rfl
    · exact (List.length_take_le _ _).trans hn
  | @reads n hphase hn =>
    have hprinted := h.printed
    rw [hphase, ReadPhase.hand, List.append_nil] at hprinted
    refine ⟨h.p2p, h.ipc, ?_, h.fits, ?_, h.sent, h.relayed, h.shown⟩
    · rw [Pipe.got_pull, ← hprinted]
      rfl
    · exact (List.length_take_le _ _).trans hn
  | @replied buf hphase =>
    have hprinted := h.printed
    have hhand := h.hand
    rw [hphase] at hprinted hhand
    exact ⟨h.p2p, h.ipc, hprinted, h.fits, hhand, h.sent, h.relayed, h.shown⟩
  | @queues buf hphase =>
    have hhand := h.hand
    rw [hphase] at hhand
    have hfits : (data buf).Fits := hhand.trans (by decide)
    refine h.push hfits rfl ?_
    rw [hphase]
    exact (List.append_nil _).symm
  | pongs => exact h.push (show (ShellFrame.pong).Fits from trivial) rfl rfl
  | ticks => exact h.push (show ping.Fits from trivial) rfl rfl
  | @sends frame frames hwaiting hfits =>
    refine ⟨h.p2p.accept hfits, h.ipc, h.printed, h.fits, h.hand, ?_, h.relayed, h.shown⟩
    rw [Link.accept, h.sent, Pipe.got_pull, Pipe.next, hwaiting]
    rfl
  | @sendFails frame frames hwaiting hfits =>
    have hmem : frame ∈ o.ptyOut.sent := by
      rw [← o.ptyOut.got_append_waiting, hwaiting]
      simp
    exact absurd (h.fits frame hmem).1 hfits
  | writesP2p n => exact ⟨h.p2p.write n, h.ipc, h.printed, h.fits, h.hand, h.sent, h.relayed, h.shown⟩
  | writesIpc n => exact ⟨h.p2p, h.ipc.write n, h.printed, h.fits, h.hand, h.sent, h.relayed, h.shown⟩
  | forwards hcan hnone =>
    refine ⟨h.p2p.receive hcan, h.ipc, h.printed, h.fits, h.hand, ?_, ?_, h.shown⟩
    · simpa using h.sent
    · simpa [read_receive_none hnone] using h.relayed
  | forwarded hcan hframe =>
    obtain ⟨hfits, -, -⟩ := (h.p2p.completes_iff hcan).1 hframe
    refine ⟨h.p2p.receive hcan, h.ipc.accept hfits, h.printed, h.fits, h.hand, ?_, ?_, h.shown⟩
    · simpa using h.sent
    · simp [Link.accept, read_receive hframe, h.relayed]
  | receives hcan hnone =>
    refine ⟨h.p2p, h.ipc.receive hcan, h.printed, h.fits, h.hand, h.sent, ?_, ?_⟩
    · simpa using h.relayed
    · simpa [read_receive_none hnone] using h.shown
  | received hcan hframe =>
    refine ⟨h.p2p, h.ipc.receive hcan, h.printed, h.fits, h.hand, h.sent, ?_, ?_⟩
    · simpa using h.relayed
    · simp [read_receive hframe, h.shown, ReaderEvent.frame?]
  | noted cols rows => exact ⟨h.p2p, h.ipc, h.printed, h.fits, h.hand, h.sent, h.relayed, h.shown⟩
  | resized hsizes =>
    refine ⟨h.p2p, h.ipc.cancel (hbetween rfl), h.printed, h.fits, h.hand, h.sent, h.relayed, ?_⟩
    simpa [ReaderEvent.frame?, List.filterMap_cons, Link.cancel] using h.shown
  | answered => exact ⟨h.p2p, h.ipc, h.printed, h.fits, h.hand, h.sent, h.relayed, h.shown⟩

theorem OutputOk.reachable (hbanner : (data banner).Fits)
    (h : ((terminalMachine limits banner cols rows).restrict BetweenFrames).Reachable s) : OutputOk banner s.output := by
  refine h.invariant (I := fun u => OutputOk banner u.output) (fun u hu => ?_) fun u l hl hu => ?_
  · obtain rfl : u = .initial banner cols rows := hu
    exact .initial hbanner
  · obtain ⟨hen, hbetween⟩ : u.Enabled limits l ∧ BetweenFrames u l := hl
    exact hu.step (outputStep hen) hbetween

/-- The bytes for the screen are those of the frames that were shown. -/
theorem OutputOk.bytes_shown (h : OutputOk banner o) : o.shown.flatMap ReaderEvent.bytes = o.ipc.read.flatMap payload := by
  rw [← h.shown]
  induction o.shown with
  | nil => rfl
  | cons event events ih =>
    rw [List.flatMap_cons, ih, List.filterMap_cons]
    cases event <;> rfl

/-- The frames that were shown are the banner and the first of the frames that the host has queued. -/
theorem OutputOk.read_prefix (h : OutputOk banner o) : o.ipc.read <+: data banner :: o.ptyOut.sent := by
  calc o.ipc.read <+: o.ipc.items := h.ipc.read_prefix
    _ = o.p2p.read := h.relayed
    _ <+: o.p2p.items := h.p2p.read_prefix
    _ = data banner :: o.ptyOut.got := h.sent
    _ <+: data banner :: o.ptyOut.sent := (List.prefix_cons_inj _).2 o.ptyOut.got_prefix

/-- As long as no resize of the window falls into the middle of a frame, the bytes that go to the screen are the first
ones of the banner and what the shell has printed, and no size comes from the host. -/
theorem shown_in_order (hbanner : banner.length ≤ 65535)
    (h : ((terminalMachine limits banner cols rows).restrict BetweenFrames).Reachable s) :
    s.output.shown.flatMap ReaderEvent.bytes <+: banner ++ s.output.pty.sent ∧
    ∀ c r, ReaderEvent.frame (resize c r) ∉ s.output.shown := by
  have hok := OutputOk.reachable hbanner h
  constructor
  · rw [hok.bytes_shown]
    have hqueued := hok.read_prefix.flatMap payload
    rw [List.flatMap_cons] at hqueued
    refine hqueued.trans ((List.prefix_append_right_inj _).2 ?_)
    refine List.IsPrefix.trans ?_ s.output.pty.got_prefix
    rw [← hok.printed]
    exact List.prefix_append _ _
  · intro c r hmem
    have hread : resize c r ∈ s.output.ipc.read := by
      rw [← hok.shown]
      exact List.mem_filterMap.2 ⟨_, hmem, rfl⟩
    rcases List.mem_cons.1 (hok.read_prefix.subset hread) with heq | hsent
    · cases heq
    · exact absurd (hok.fits _ hsent).2 (by simp [sizeOf?])

/-! ## Where no task can go on -/

/-- A step of a task that nothing from outside brings about. -/
def TerminalLabel.internal : TerminalLabel → Bool
  | .command _ | .shellReads _ | .shellPrints _ | .tick | .stop _ => false
  | _ => true

/-- Every task is there, and none can take a step. -/
structure AtRest (limits : TerminalLimits) (s : TerminalState) : Prop where
  alive : ∀ t, s.alive t = true
  rest : ∀ l : TerminalLabel, l.internal = true → ¬ s.Enabled limits l

/-- A link whose two tasks wait for nothing else has delivered all. -/
theorem settled_of_rest {k : FrameLink} {window : Nat} (h : k.Ok shellFraming) (hwindow : 0 < window)
    (hreceive : ¬ k.CanReceive shellFraming 1) (hwrite : ¬ k.CanWrite window 1) : k.rest = [] ∧ k.read = k.items := by
  have hwaiting : k.pipe.waiting = [] := by
    by_contra hne
    exact hreceive (h.canReceive hne)
  have hrest : k.rest = [] := by
    by_contra hne
    refine hwrite (Link.canWrite_one hne ?_)
    rw [Pipe.Room, hwaiting]
    exact hwindow
  exact ⟨hrest, h.settled hrest hwaiting⟩

/-- The input side where no task can go on and the shell has room for input. -/
structure InputDone (i : InputSide) : Prop where
  idle : i.ipc.rest = []
  ptyIn : i.ptyIn.waiting = []
  written : i.pty.sent = i.ptyIn.sent.flatMap PtyInput.bytes
  heard : i.ptyIn.sent.filterMap PtyInput.typed? = i.ipc.items.filterMap dataOf?
  sized : i.sizes = (i.p2p.items).filterMap sizeOf?
  forwarded : i.ipc.read = i.ipc.items

theorem InputOk.done (h : InputOk cols rows s.input) (hrest : AtRest limits s) (hwindow : ∀ hop, 0 < limits.window hop)
    (hroom : s.input.pty.Room limits.ptyInput 1) : InputDone s.input := by
  have hwriting : s.input.writing = [] := by
    by_contra hne
    exact hrest.rest (.feed 1) rfl ⟨hrest.alive _, one_pos, List.length_pos_of_ne_nil hne, hroom⟩
  have hptyIn : s.input.ptyIn.waiting = [] := by
    by_contra hne
    exact hrest.rest .take rfl ⟨hrest.alive _, hwriting, hne⟩
  have hloop : s.input.loop = .reading := by
    cases hphase : s.input.loop with
    | reading => rfl
    | typing bytes =>
      exfalso
      refine hrest.rest .type rfl ⟨hrest.alive _, by rw [hphase]; rfl, fun _ => ?_⟩
      rw [Pipe.Room, hptyIn]
      decide
    | ponging =>
      -- the desktop sends no pings
      exfalso
      have hmem := h.p2p.read_prefix.subset (h.ponging hphase)
      rw [h.relayed] at hmem
      rcases List.mem_cons.1 hmem with heq | hread
      · cases heq
      · exact h.noPing (h.ipc.read_prefix.subset hread)
  obtain ⟨hp2pRest, hp2p⟩ := settled_of_rest h.p2p (hwindow .p2pIn)
    (fun hcan => hrest.rest (.hear 1) rfl ⟨hrest.alive _, hloop, hcan⟩)
    (fun hcan => hrest.rest (.write .p2pIn 1) rfl ⟨hrest.alive _, hcan⟩)
  obtain ⟨hipcRest, hipc⟩ := settled_of_rest h.ipc (hwindow .ipcIn)
    (fun hcan => hrest.rest (.forwardIn 1) rfl ⟨hrest.alive _, hp2pRest, hcan⟩)
    (fun hcan => hrest.rest (.write .ipcIn 1) rfl ⟨hrest.alive _, hcan⟩)
  refine ⟨hipcRest, hptyIn, ?_, ?_, ?_, hipc⟩
  · have hfed := h.fed
    have hgot := s.input.ptyIn.got_append_waiting
    rw [hptyIn, List.append_nil] at hgot
    rwa [hwriting, List.append_nil, hgot] at hfed
  · have hheard := h.heard
    rw [hloop, hp2p, h.relayed, hipc] at hheard
    simpa [List.filterMap_cons, dataOf?, LoopPhase.hand] using hheard.symm
  · rw [h.sized, hp2p]

/-- The output side where no task can go on and the channels to the input side have room. -/
theorem OutputOk.done (h : OutputOk banner s.output) (hrest : AtRest limits s) (hwindow : ∀ hop, 0 < limits.window hop)
    (hptyIn : s.input.ptyIn.waiting = []) (hcontrol : s.input.control.length < controlCapacity) :
    s.output.shown.flatMap ReaderEvent.bytes = banner ++ s.output.pty.sent := by
  have hponging : s.output.ponging = false := by
    by_contra hne
    exact hrest.rest .answer rfl ⟨hrest.alive _, Bool.not_eq_false _ ▸ hne, fun _ => hcontrol⟩
  obtain ⟨hipcRest, hipc⟩ := settled_of_rest h.ipc (hwindow .ipcOut)
    (fun hcan => hrest.rest (.receive 1) rfl ⟨hrest.alive _, hponging, hcan⟩)
    (fun hcan => hrest.rest (.write .ipcOut 1) rfl ⟨hrest.alive _, hcan⟩)
  obtain ⟨hp2pRest, hp2p⟩ := settled_of_rest h.p2p (hwindow .p2pOut)
    (fun hcan => hrest.rest (.forwardOut 1) rfl ⟨hrest.alive _, hipcRest, hcan⟩)
    (fun hcan => hrest.rest (.write .p2pOut 1) rfl ⟨hrest.alive _, hcan⟩)
  have hptyOut : s.output.ptyOut.waiting = [] := by
    by_contra hne
    exact hrest.rest .send rfl ⟨hrest.alive _, hp2pRest, hne⟩
  have hphase : s.output.phase = .reading := by
    cases hphase : s.output.phase with
    | reading => rfl
    | replying buf =>
      exfalso
      refine hrest.rest .reply rfl ⟨hrest.alive _, by rw [hphase]; rfl, fun _ => ?_⟩
      rw [Pipe.Room, hptyIn]
      decide
    | sending buf =>
      exfalso
      refine hrest.rest .queue rfl ⟨hrest.alive _, by rw [hphase]; rfl, fun _ => ?_⟩
      rw [Pipe.Room, hptyOut]
      decide
  have hpty : s.output.pty.waiting = [] := by
    by_contra hne
    exact hrest.rest (.readPty 1) rfl ⟨hrest.alive _, hphase, one_pos, by decide, List.length_pos_of_ne_nil hne⟩
  have hgot := s.output.pty.got_append_waiting
  have hqueued := s.output.ptyOut.got_append_waiting
  have hprinted := h.printed
  rw [hpty, List.append_nil] at hgot
  rw [hptyOut, List.append_nil] at hqueued
  rw [hphase, ReadPhase.hand, List.append_nil, hgot] at hprinted
  rw [h.bytes_shown, hipc, h.relayed, hp2p, h.sent, hqueued, List.flatMap_cons, hprinted]
  rfl

/-- In a session whose reader takes sizes between two frames only: where no task can go on and the shell has room for
input, everything has arrived. All that was typed is in the pseudoterminal, with the last size, and all that was printed
on the screen. The one other case is that the two tasks of the desktop wait for each other, each before a full channel. -/
theorem at_rest (hbanner : banner.length ≤ 65535) (hwindow : ∀ hop, 0 < limits.window hop)
    (h : ((terminalMachine limits banner cols rows).restrict BetweenFrames).Reachable s) (hrest : AtRest limits s)
    (hroom : s.input.pty.Room limits.ptyInput 1) :
    (∃ writes : List PtyInput, s.input.pty.sent = writes.flatMap PtyInput.bytes ∧
      writes.filterMap PtyInput.typed? = s.input.commands.filterMap TerminalCommand.typed? ∧
      s.input.sizes = (cols, rows) :: s.input.commands.filterMap TerminalCommand.size? ∧
      s.output.shown.flatMap ReaderEvent.bytes = banner ++ s.output.pty.sent) ∨
    s.input.noting.isSome ∧ resizeCapacity ≤ s.output.localResize.length ∧ s.output.ponging = true ∧
      controlCapacity ≤ s.input.control.length := by
  have hout := OutputOk.reachable hbanner h
  have hin : InputOk cols rows s.input := InputOk.reachable h.of_restrict
  have hdone := hin.done hrest hwindow hroom
  cases hnoting : s.input.noting with
  | none =>
    left
    have hcontrol : s.input.control = [] := by
      by_contra hne
      exact hrest.rest .control rfl ⟨⟨hrest.alive _, hnoting, hdone.idle⟩, hne⟩
    refine ⟨s.input.ptyIn.sent, hdone.written, ?_, ?_, ?_⟩
    · rw [hdone.heard, hin.inputs]
    · have hasked := hin.asked
      rw [hnoting, Option.toList_none, List.append_nil] at hasked
      rw [hdone.sized, hin.relayed, hdone.forwarded, ← hasked]
      rfl
    · refine hout.done hrest hwindow hdone.ptyIn ?_
      rw [hcontrol]
      decide
  | some size =>
    right
    have hfull : resizeCapacity ≤ s.output.localResize.length := by
      by_contra hlt
      exact hrest.rest .noteResize rfl ⟨hrest.alive _, by rw [hnoting]; rfl, hdone.idle, fun _ => by omega⟩
    have hponging : s.output.ponging = true := by
      by_contra hne
      refine hrest.rest .takeResize rfl ⟨hrest.alive _, by simpa using hne, List.ne_nil_of_length_pos ?_⟩
      exact lt_of_lt_of_le (by decide) hfull
    refine ⟨rfl, hfull, hponging, ?_⟩
    by_contra hlt
    exact hrest.rest .answer rfl ⟨hrest.alive _, hponging, fun _ => by omega⟩

namespace TerminalSample

def small : TerminalLimits := ⟨fun _ => 16, 8, 8⟩

def machine : Machine TerminalState TerminalLabel := terminalMachine small [72] 80 24

instance (s : TerminalState) (l : TerminalLabel) : Decidable (machine.enabled s l) :=
  inferInstanceAs (Decidable (s.Enabled small l))

/-- The first size and the banner arrive. -/
def opening : List TerminalLabel :=
  [.write .p2pIn 7, .hear 3, .hear 4, .write .p2pOut 4, .forwardOut 3, .forwardOut 1, .write .ipcOut 4, .receive 3, .receive 1]

/-- A letter is typed and the shell gets it. -/
def typing : List TerminalLabel :=
  [.command (.input [97]), .write .ipcIn 4, .forwardIn 3, .forwardIn 1, .write .p2pIn 4, .hear 3, .hear 1, .type, .take,
   .feed 1, .shellReads 1]

/-- The shell echoes it. -/
def echo : List TerminalLabel :=
  [.shellPrints [97], .readPty 1, .queue, .send, .write .p2pOut 4, .forwardOut 3, .forwardOut 1, .write .ipcOut 4,
   .receive 3, .receive 1]

/-- The window is resized. -/
def resizing : List TerminalLabel :=
  [.command (.resize 100 30), .noteResize, .write .ipcIn 7, .forwardIn 3, .forwardIn 4, .write .p2pIn 7, .hear 3, .hear 4,
   .takeResize]

def steps : List TerminalLabel := opening ++ typing ++ echo ++ resizing

def delivered : TerminalState := machine.after (.initial [72] 80 24) steps

theorem reachable_delivered : (machine.restrict BetweenFrames).Reachable delivered := by
  have hstart : (machine.restrict BetweenFrames).Reachable (.initial [72] 80 24) := .of_start rfl
  have hafter := hstart.after steps (by decide +kernel)
  rwa [Machine.after_restrict] at hafter

theorem typed_in_order_delivered : delivered.input.pty.sent = [97] ∧
    ((∃ writes : List PtyInput, delivered.input.pty.sent <+: writes.flatMap PtyInput.bytes ∧
      writes.filterMap PtyInput.typed? <+: delivered.input.commands.filterMap TerminalCommand.typed?) ∧
    delivered.input.sizes <+: (80, 24) :: delivered.input.commands.filterMap TerminalCommand.size?) :=
  ⟨by decide +kernel, typed_in_order reachable_delivered.of_restrict⟩

theorem shown_in_order_delivered : delivered.output.shown.flatMap ReaderEvent.bytes = [72, 97] ∧
    delivered.output.shown.flatMap ReaderEvent.bytes <+: [72] ++ delivered.output.pty.sent :=
  ⟨by decide +kernel, (shown_in_order (by decide) reachable_delivered).1⟩

theorem atRest_delivered : AtRest small delivered := by
  obtain ⟨hipcIn, hp2pIn, hp2pOut, hipcOut⟩ : delivered.input.ipc.rest = [] ∧ delivered.input.p2p.rest = [] ∧
    delivered.output.p2p.rest = [] ∧ delivered.output.ipc.rest = [] := by decide +kernel
  obtain ⟨hwIpcIn, hwP2pIn, hwP2pOut, hwIpcOut⟩ : delivered.input.ipc.pipe.waiting = [] ∧
    delivered.input.p2p.pipe.waiting = [] ∧ delivered.output.p2p.pipe.waiting = [] ∧
    delivered.output.ipc.pipe.waiting = [] := by decide +kernel
  have hnoReceive : ∀ {k : FrameLink} {n : Nat}, k.pipe.waiting = [] → ¬ k.CanReceive shellFraming n := by
    rintro k n hk ⟨hpos, hle, -⟩
    rw [hk] at hle
    exact absurd hpos (by simpa using hle)
  have hnoWrite : ∀ {k : FrameLink} {window n : Nat}, k.rest = [] → ¬ k.CanWrite window n := by
    rintro k window n hk ⟨hpos, hle, -⟩
    rw [hk] at hle
    exact absurd hpos (by simpa using hle)
  constructor
  · intro t
    cases t <;> decide +kernel
  · intro l hl hen
    cases l with
    | command c => cases hl
    | shellReads n => cases hl
    | shellPrints bytes => cases hl
    | tick => cases hl
    | stop t => cases hl
    | write hop n =>
      cases hop with
      | ipcIn => exact hnoWrite hipcIn hen.2
      | p2pIn => exact hnoWrite hp2pIn hen.2
      | p2pOut => exact hnoWrite hp2pOut hen.2
      | ipcOut => exact hnoWrite hipcOut hen.2
    | forwardIn n => exact hnoReceive hwIpcIn hen.2.2
    | forwardOut n => exact hnoReceive hwP2pOut hen.2.2
    | hear n => exact hnoReceive hwP2pIn hen.2.2
    | receive n => exact hnoReceive hwIpcOut hen.2.2
    | feed n =>
      have hwriting : delivered.input.writing = [] := by decide +kernel
      have hle := hen.2.2.1
      rw [hwriting] at hle
      exact absurd hen.2.1 (by simpa using hle)
    | readPty n =>
      have hpty : delivered.output.pty.waiting = [] := by decide +kernel
      have hle := hen.2.2.2.2
      rw [hpty] at hle
      exact absurd hen.2.2.1 (by simpa using hle)
    | _ => exact absurd hen (by decide +kernel)

theorem at_rest_delivered : AtRest small delivered ∧ delivered.output.ponging = false ∧
    ∃ writes : List PtyInput, delivered.input.pty.sent = writes.flatMap PtyInput.bytes ∧
      writes.filterMap PtyInput.typed? = delivered.input.commands.filterMap TerminalCommand.typed? ∧
      delivered.input.sizes = (80, 24) :: delivered.input.commands.filterMap TerminalCommand.size? ∧
      delivered.output.shown.flatMap ReaderEvent.bytes = [72] ++ delivered.output.pty.sent := by
  have hponging : delivered.output.ponging = false := by decide +kernel
  refine ⟨atRest_delivered, hponging, ?_⟩
  rcases at_rest (by decide) (fun _ => show 0 < 16 by decide) reachable_delivered atRest_delivered (by decide +kernel) with
    hall | ⟨-, -, hpong, -⟩
  · exact hall
  · rw [hponging] at hpong
    cases hpong

end TerminalSample

end Fortiq
