/-
A terminal session from the operator's window to the shell and back: the two tasks of the desktop (`run_with_stream` in
`fortiq-desktop/src/terminal/session.rs`), the two forwarders of the operator's service (`handle_terminal_client` in
`fortiq-service/src/ipc_server.rs`) and the tasks of `serve_pty` on the host (`fortiq-shell/src/lib.rs`), after the
handshakes. The tasks take turns in any order and streams carry any number of bytes at a time. The pseudoterminal is two
bounded buffers, and the shell behind it does what it likes; a task may stop at any time, by an error, a revoked session
or an abort.
-/
import Fortiq.Lib.Framing
import Fortiq.Lib.Machine
import Fortiq.Shell.Pty
import Fortiq.Terminal.Performer

namespace Fortiq

/-! ## Frames read piece by piece -/

namespace ShellFrame

/-- The bytes that `read_from` asks for before it looks at them. -/
def extent : List UInt8 → Nat
  | tag :: high :: low :: _ =>
    let len := (fromBeBytes high low).toNat
    if tag = tagData then 3 + len else if tag = tagResize ∧ len = 4 then 7 else 3
  | _ => 3

/-- `read_from` when it has got these bytes. -/
def parse (held : List UInt8) : Parse ShellFrame IoError :=
  if held.length < extent held then .need (extent held - held.length)
  else
    match decode held with
    | .ok (some (frame, _)) => .item frame
    | .ok none => .bad .earlyEof
    | .error e => .bad e

instance : DecidablePred Fits
  | data bytes => inferInstanceAs (Decidable (bytes.length ≤ 65535))
  | resize _ _ => inferInstanceAs (Decidable True)
  | ping => inferInstanceAs (Decidable True)
  | pong => inferInstanceAs (Decidable True)

variable {frame : ShellFrame}

theorem length_packet : ∀ frame : ShellFrame, 3 ≤ frame.packet.length
  | data bytes => by simp [packet, toBeBytes_eq]
  | resize cols rows => by simp [packet, toBeBytes_eq]
  | ping => le_rfl
  | pong => le_rfl

/-- The header tells how long the packet is. -/
theorem extent_packet (h : frame.Fits) {p : List UInt8} (hp : p <+: frame.packet) (hlen : 3 ≤ p.length) :
    extent p = frame.packet.length := by
  obtain ⟨tag, high, low, l, rfl⟩ : ∃ tag high low l, p = tag :: high :: low :: l := by
    match p, hlen with
    | tag :: high :: low :: l, _ => exact ⟨tag, high, low, l, rfl⟩
  cases frame with
  | data bytes =>
    have hb : bytes.length ≤ 65535 := h
    rw [packet, toBeBytes_eq] at hp ⊢
    simp only [List.cons_append, List.nil_append, List.cons_prefix_cons] at hp
    obtain ⟨rfl, rfl, rfl, -⟩ := hp
    have hlen : (fromBeBytes (UInt8.ofNat (bytes.length.toUInt16.toNat / 256))
        (UInt8.ofNat bytes.length.toUInt16.toNat)).toNat = bytes.length := by
      rw [fromBeBytes_toBeBytes, Nat.toUInt16_eq, UInt16.toNat_ofNat']
      omega
    simp only [extent, hlen, if_true, List.cons_append, List.nil_append, List.length_cons]
    omega
  | resize cols rows =>
    rw [packet] at hp ⊢
    simp only [List.cons_prefix_cons] at hp
    obtain ⟨rfl, rfl, rfl, -⟩ := hp
    rfl
  | ping =>
    simp only [packet, List.cons_prefix_cons] at hp
    obtain ⟨rfl, rfl, rfl, -⟩ := hp
    rfl
  | pong =>
    simp only [packet, List.cons_prefix_cons] at hp
    obtain ⟨rfl, rfl, rfl, -⟩ := hp
    rfl

theorem parse_packet (h : frame.Fits) : parse frame.packet = .item frame := by
  have hext := extent_packet h (List.prefix_refl _) frame.length_packet
  have hdecode := decode_packet h []
  rw [List.append_nil] at hdecode
  rw [parse, if_neg (by omega), hdecode]

theorem parse_part (h : frame.Fits) {p : List UInt8} (hp : p <+: frame.packet) (hne : p ≠ frame.packet) :
    ∃ n, parse p = .need n ∧ 0 < n ∧ p.length + n ≤ frame.packet.length := by
  have hlen : p.length < frame.packet.length := by
    refine lt_of_le_of_ne hp.length_le fun heq => hne ?_
    exact hp.eq_of_length heq
  by_cases hheader : 3 ≤ p.length
  · have hext := extent_packet h hp hheader
    refine ⟨extent p - p.length, ?_, ?_, ?_⟩
    · rw [parse, if_pos (by omega)]
    · omega
    · omega
  · -- still inside the header
    have hext : extent p = 3 := by
      match p, hheader with
      | [], _ => rfl
      | [_], _ => rfl
      | [_, _], _ => rfl
      | _ :: _ :: _ :: l, hheader => simp at hheader
    have hpacket := frame.length_packet
    refine ⟨3 - p.length, ?_, ?_, ?_⟩
    · rw [parse, hext, if_pos (by omega)]
    · omega
    · omega

end ShellFrame

/-- Frames on a stream, as `write_to` writes and `read_from` reads them. -/
def shellFraming : Framing ShellFrame UInt8 IoError where
  packet := ShellFrame.packet
  parse := ShellFrame.parse
  Fits := ShellFrame.Fits
  packet_ne_nil := fun {frame} _ => List.ne_nil_of_length_pos (by have := frame.length_packet; omega)
  parse_packet := ShellFrame.parse_packet
  parse_part := fun h hp hne => ShellFrame.parse_part h hp hne

/-- A stream of frames with its two tasks. -/
abbrev FrameLink := Link ShellFrame UInt8

/-! ## The session -/

inductive TerminalCommand where
  | input (bytes : List UInt8)
  | resize (cols rows : UInt16)
  | close
deriving DecidableEq, Repr

inductive TerminalTask where
  /-- The tasks of the desktop. -/
  | writer
  | reader
  /-- The tasks of the operator's service. -/
  | forwardIn
  | forwardOut
  /-- The loop over the frames of the operator in `serve_pty`, and the tasks beside it. -/
  | frameLoop
  | writeTask
  | readTask
  | sendTask
  | keepaliveTask
deriving DecidableEq, Repr

/-- The streams from the desktop to the host and back. -/
inductive TerminalHop where
  | ipcIn
  | p2pIn
  | p2pOut
  | ipcOut
deriving DecidableEq, Repr

/-- The bytes of a frame that are for the screen. -/
def payload : ShellFrame → List UInt8
  | .data bytes => bytes
  | _ => []

/-- What goes into the pseudoterminal: data of the operator, or the answer to a question for the cursor. -/
inductive PtyInput where
  | typed (bytes : List UInt8)
  | reply
deriving DecidableEq, Repr

def PtyInput.bytes : PtyInput → List UInt8
  | .typed bytes => bytes
  | .reply => Pty.cursorReply

def PtyInput.typed? : PtyInput → Option (List UInt8)
  | .typed bytes => some bytes
  | .reply => none

/-- Where the loop over the operator's frames stands: in a read, or waiting for a channel. -/
inductive LoopPhase where
  | reading
  | typing (bytes : List UInt8)
  | ponging
deriving DecidableEq, Repr

def LoopPhase.typing? : LoopPhase → Option (List UInt8)
  | .typing bytes => some bytes
  | _ => none

/-- Where the reader of the pseudoterminal stands: in a read, or waiting for one of the two channels. -/
inductive ReadPhase where
  | reading
  | replying (buf : List UInt8)
  | sending (buf : List UInt8)
deriving DecidableEq, Repr

/-- What the reader has in its hand. -/
def ReadPhase.hand : ReadPhase → List UInt8
  | .reading => []
  | .replying buf => buf
  | .sending buf => buf

def ReadPhase.replying? : ReadPhase → Option (List UInt8)
  | .replying buf => some buf
  | _ => none

def ReadPhase.sending? : ReadPhase → Option (List UInt8)
  | .sending buf => some buf
  | _ => none

def controlCapacity : Nat := 32
def resizeCapacity : Nat := 16
def ptyInCapacity : Nat := 128
def ptyOutCapacity : Nat := 128

/-- The windows of the streams and the buffers of the pseudoterminal. -/
structure TerminalLimits where
  window : TerminalHop → Nat
  ptyInput : Nat
  ptyOutput : Nat

/-- From the keyboard to the shell. -/
structure InputSide where
  /-- The commands the writer has taken. -/
  commands : List TerminalCommand
  /-- A size the writer has to tell the reader first. -/
  noting : Option (UInt16 × UInt16)
  control : List ShellFrame
  ipc : FrameLink
  p2p : FrameLink
  loop : LoopPhase
  /-- The sizes the pseudoterminal has been given. -/
  sizes : List (UInt16 × UInt16)
  ptyIn : Pipe PtyInput
  /-- What is left of the bytes that are being written into the pseudoterminal. -/
  writing : List UInt8
  pty : Pipe UInt8

/-- From the shell to the screen. -/
structure OutputSide where
  pty : Pipe UInt8
  phase : ReadPhase
  ptyOut : Pipe ShellFrame
  p2p : FrameLink
  ipc : FrameLink
  /-- The reader waits to hand a pong to the writer. -/
  ponging : Bool
  localResize : List (UInt16 × UInt16)
  shown : List ReaderEvent

structure TerminalState where
  alive : TerminalTask → Bool
  input : InputSide
  output : OutputSide

inductive TerminalLabel where
  /-- The writer takes a command, or a frame the reader has handed over. -/
  | command (c : TerminalCommand)
  | control
  | noteResize
  /-- Bytes of the frame that is being written. -/
  | write (hop : TerminalHop) (n : Nat)
  /-- Bytes that arrive at a forwarder. -/
  | forwardIn (n : Nat)
  | forwardOut (n : Nat)
  /-- Bytes that arrive at the loop, and what it does with a frame. -/
  | hear (n : Nat)
  | type
  | pong
  /-- The writer of the pseudoterminal. -/
  | take
  | feed (n : Nat)
  /-- The shell. -/
  | shellReads (n : Nat)
  | shellPrints (bytes : List UInt8)
  /-- The reader of the pseudoterminal. -/
  | readPty (n : Nat)
  | reply
  | queue
  | tick
  | send
  /-- Bytes that arrive at the desktop. -/
  | receive (n : Nat)
  | takeResize
  | answer
  | stop (t : TerminalTask)
deriving DecidableEq, Repr

namespace TerminalState

open ShellFrame

def stop (s : TerminalState) (t : TerminalTask) : TerminalState := { s with alive := Function.update s.alive t false }

/-- The writer takes a command. -/
def command (s : TerminalState) (c : TerminalCommand) : TerminalState :=
  let i := { s.input with commands := s.input.commands ++ [c] }
  match c with
  | .input bytes =>
    if (data bytes).Fits then { s with input := { i with ipc := i.ipc.accept shellFraming (data bytes) } }
    else { s with input := i }.stop .writer
  | .resize cols rows => { s with input := { i with noting := some (cols, rows) } }
  | .close => { s with input := i }.stop .writer

def control (s : TerminalState) : TerminalState :=
  match s.input.control with
  | [] => s
  | frame :: frames =>
    { s with input := { s.input with control := frames, ipc := s.input.ipc.accept shellFraming frame } }

/-- The writer tells the reader, if there is one, and then the host. -/
def noteResize (s : TerminalState) : TerminalState :=
  match s.input.noting with
  | none => s
  | some (cols, rows) =>
    let localResize := if s.alive .reader then s.output.localResize ++ [(cols, rows)] else s.output.localResize
    { s with
      input := { s.input with noting := none, ipc := s.input.ipc.accept shellFraming (resize cols rows) }
      output := { s.output with localResize } }

def write (s : TerminalState) (n : Nat) : TerminalHop → TerminalState
  | .ipcIn => { s with input := { s.input with ipc := s.input.ipc.write n } }
  | .p2pIn => { s with input := { s.input with p2p := s.input.p2p.write n } }
  | .p2pOut => { s with output := { s.output with p2p := s.output.p2p.write n } }
  | .ipcOut => { s with output := { s.output with ipc := s.output.ipc.write n } }

/-- A task whose read has failed ends. -/
def endsIf (failed : Bool) (t : TerminalTask) (s : TerminalState) : TerminalState := if failed then s.stop t else s

def forwardIn (s : TerminalState) (n : Nat) : TerminalState :=
  let p2p := (s.input.ipc.completes shellFraming n).elim s.input.p2p (s.input.p2p.accept shellFraming)
  { s with input := { s.input with ipc := s.input.ipc.receive shellFraming n, p2p } }.endsIf
    (s.input.ipc.fails shellFraming n) .forwardIn

def forwardOut (s : TerminalState) (n : Nat) : TerminalState :=
  let ipc := (s.output.p2p.completes shellFraming n).elim s.output.ipc (s.output.ipc.accept shellFraming)
  { s with output := { s.output with p2p := s.output.p2p.receive shellFraming n, ipc } }.endsIf
    (s.output.p2p.fails shellFraming n) .forwardOut

/-- What the loop goes on with after a frame. -/
def afterFrame : ShellFrame → LoopPhase
  | .data bytes => .typing bytes
  | .ping => .ponging
  | .resize _ _ | .pong => .reading

/-- The size in a frame. -/
def sizeOf? : ShellFrame → Option (UInt16 × UInt16)
  | .resize cols rows => some (cols, rows)
  | _ => none

def hear (s : TerminalState) (n : Nat) : TerminalState :=
  let frame := s.input.p2p.completes shellFraming n
  { s with input := { s.input with
      p2p := s.input.p2p.receive shellFraming n
      loop := frame.elim .reading afterFrame
      sizes := s.input.sizes ++ (frame.bind sizeOf?).toList } }.endsIf (s.input.p2p.fails shellFraming n) .frameLoop

def type (s : TerminalState) : TerminalState :=
  match s.input.loop with
  | .typing bytes =>
    if s.alive .writeTask then
      { s with input := { s.input with loop := .reading, ptyIn := s.input.ptyIn.push [.typed bytes] } }
    else s.stop .frameLoop
  | _ => s

def pong (s : TerminalState) : TerminalState :=
  let ptyOut := if s.alive .sendTask then s.output.ptyOut.push [.pong] else s.output.ptyOut
  { s with input := { s.input with loop := .reading }, output := { s.output with ptyOut } }

def take (s : TerminalState) : TerminalState :=
  match s.input.ptyIn.waiting with
  | [] => s
  | x :: _ => { s with input := { s.input with ptyIn := s.input.ptyIn.pull 1, writing := x.bytes } }

def feed (s : TerminalState) (n : Nat) : TerminalState :=
  { s with input := { s.input with
      pty := s.input.pty.push (s.input.writing.take n)
      writing := s.input.writing.drop n } }

def readPty (s : TerminalState) (n : Nat) : TerminalState :=
  let buf := s.output.pty.next n
  let asked := (Occurrences.windows 4 buf).any (· == Pty.cursorQuery)
  { s with output := { s.output with
      pty := s.output.pty.pull n
      phase := if asked then .replying buf else .sending buf } }

def reply (s : TerminalState) : TerminalState :=
  match s.output.phase with
  | .replying buf =>
    let ptyIn := if s.alive .writeTask then s.input.ptyIn.push [.reply] else s.input.ptyIn
    { s with input := { s.input with ptyIn }, output := { s.output with phase := .sending buf } }
  | _ => s

def queue (s : TerminalState) : TerminalState :=
  match s.output.phase with
  | .sending buf =>
    if s.alive .sendTask then
      { s with output := { s.output with phase := .reading, ptyOut := s.output.ptyOut.push [.data buf] } }
    else s.stop .readTask
  | _ => s

def tick (s : TerminalState) : TerminalState :=
  if s.alive .sendTask then { s with output := { s.output with ptyOut := s.output.ptyOut.push [.ping] } }
  else s.stop .keepaliveTask

def send (s : TerminalState) : TerminalState :=
  match s.output.ptyOut.waiting with
  | [] => s
  | frame :: _ =>
    let o := { s.output with ptyOut := s.output.ptyOut.pull 1 }
    if frame.Fits then { s with output := { o with p2p := o.p2p.accept shellFraming frame } }
    else { s with output := o }.stop .sendTask

def receive (s : TerminalState) (n : Nat) : TerminalState :=
  let frame := s.output.ipc.completes shellFraming n
  { s with output := { s.output with
      ipc := s.output.ipc.receive shellFraming n
      ponging := frame == some ShellFrame.ping
      shown := s.output.shown ++ (frame.map ReaderEvent.frame).toList } }.endsIf (s.output.ipc.fails shellFraming n) .reader

/-- A size from the writer: the read that goes on beside it is given up. -/
def takeResize (s : TerminalState) : TerminalState :=
  match s.output.localResize with
  | [] => s
  | (cols, rows) :: sizes =>
    { s with output := { s.output with
        localResize := sizes
        ipc := s.output.ipc.cancel
        shown := s.output.shown ++ [.localResize cols rows] } }

def answer (s : TerminalState) : TerminalState :=
  let control := if s.alive .writer then s.input.control ++ [.pong] else s.input.control
  { s with input := { s.input with control }, output := { s.output with ponging := false } }

def step (s : TerminalState) : TerminalLabel → TerminalState
  | .command c => s.command c
  | .control => s.control
  | .noteResize => s.noteResize
  | .write hop n => s.write n hop
  | .forwardIn n => s.forwardIn n
  | .forwardOut n => s.forwardOut n
  | .hear n => s.hear n
  | .type => s.type
  | .pong => s.pong
  | .take => s.take
  | .feed n => s.feed n
  | .shellReads n => { s with input := { s.input with pty := s.input.pty.pull n } }
  | .shellPrints bytes => { s with output := { s.output with pty := s.output.pty.push bytes } }
  | .readPty n => s.readPty n
  | .reply => s.reply
  | .queue => s.queue
  | .tick => s.tick
  | .send => s.send
  | .receive n => s.receive n
  | .takeResize => s.takeResize
  | .answer => s.answer
  | .stop t => s.stop t

def writerOf : TerminalHop → TerminalTask
  | .ipcIn => .writer
  | .p2pIn => .forwardIn
  | .p2pOut => .sendTask
  | .ipcOut => .forwardOut

def linkAt (s : TerminalState) : TerminalHop → FrameLink
  | .ipcIn => s.input.ipc
  | .p2pIn => s.input.p2p
  | .p2pOut => s.output.p2p
  | .ipcOut => s.output.ipc

/-- The writer waits for a command or a frame. -/
def WriterIdle (s : TerminalState) : Prop :=
  s.alive .writer = true ∧ s.input.noting = none ∧ s.input.ipc.rest = []

/-- A channel takes what is sent into it while it has room; where its receiver is gone, the call returns at once. -/
def Takes (s : TerminalState) (receiver : TerminalTask) (room : Prop) : Prop := s.alive receiver = true → room

def Enabled (limits : TerminalLimits) (s : TerminalState) : TerminalLabel → Prop
  | .command _ => s.WriterIdle
  | .control => s.WriterIdle ∧ s.input.control ≠ []
  | .noteResize => s.alive .writer = true ∧ s.input.noting.isSome ∧ s.input.ipc.rest = [] ∧
      s.Takes .reader (s.output.localResize.length < resizeCapacity)
  | .write hop n => s.alive (writerOf hop) = true ∧ (s.linkAt hop).CanWrite (limits.window hop) n
  | .forwardIn n => s.alive .forwardIn = true ∧ s.input.p2p.rest = [] ∧ s.input.ipc.CanReceive shellFraming n
  | .forwardOut n => s.alive .forwardOut = true ∧ s.output.ipc.rest = [] ∧ s.output.p2p.CanReceive shellFraming n
  | .hear n => s.alive .frameLoop = true ∧ s.input.loop = .reading ∧ s.input.p2p.CanReceive shellFraming n
  | .type => s.alive .frameLoop = true ∧ s.input.loop.typing?.isSome ∧
      s.Takes .writeTask (s.input.ptyIn.Room ptyInCapacity 1)
  | .pong => s.alive .frameLoop = true ∧ s.input.loop = .ponging ∧ s.Takes .sendTask (s.output.ptyOut.Room ptyOutCapacity 1)
  | .take => s.alive .writeTask = true ∧ s.input.writing = [] ∧ s.input.ptyIn.waiting ≠ []
  | .feed n => s.alive .writeTask = true ∧ 0 < n ∧ n ≤ s.input.writing.length ∧ s.input.pty.Room limits.ptyInput n
  | .shellReads n => 0 < n ∧ n ≤ s.input.pty.waiting.length
  | .shellPrints bytes => bytes ≠ [] ∧ s.output.pty.Room limits.ptyOutput bytes.length
  | .readPty n => s.alive .readTask = true ∧ s.output.phase = .reading ∧ 0 < n ∧ n ≤ 4096 ∧ n ≤ s.output.pty.waiting.length
  | .reply => s.alive .readTask = true ∧ s.output.phase.replying?.isSome ∧
      s.Takes .writeTask (s.input.ptyIn.Room ptyInCapacity 1)
  | .queue => s.alive .readTask = true ∧ s.output.phase.sending?.isSome ∧
      s.Takes .sendTask (s.output.ptyOut.Room ptyOutCapacity 1)
  | .tick => s.alive .keepaliveTask = true ∧ s.Takes .sendTask (s.output.ptyOut.Room ptyOutCapacity 1)
  | .send => s.alive .sendTask = true ∧ s.output.p2p.rest = [] ∧ s.output.ptyOut.waiting ≠ []
  | .receive n => s.alive .reader = true ∧ s.output.ponging = false ∧ s.output.ipc.CanReceive shellFraming n
  | .takeResize => s.alive .reader = true ∧ s.output.ponging = false ∧ s.output.localResize ≠ []
  | .answer => s.alive .reader = true ∧ s.output.ponging = true ∧ s.Takes .writer (s.input.control.length < controlCapacity)
  | .stop _ => True

instance (s : TerminalState) : Decidable s.WriterIdle := inferInstanceAs (Decidable (_ ∧ _ ∧ _))

instance (s : TerminalState) (receiver : TerminalTask) (room : Prop) [Decidable room] : Decidable (s.Takes receiver room) :=
  inferInstanceAs (Decidable (_ → _))

instance (limits : TerminalLimits) (s : TerminalState) : ∀ l, Decidable (s.Enabled limits l)
  | .command _ => inferInstanceAs (Decidable s.WriterIdle)
  | .control => inferInstanceAs (Decidable (_ ∧ _))
  | .noteResize => inferInstanceAs (Decidable (_ ∧ _ ∧ _ ∧ _))
  | .write _ _ => inferInstanceAs (Decidable (_ ∧ _))
  | .forwardIn _ => inferInstanceAs (Decidable (_ ∧ _ ∧ _))
  | .forwardOut _ => inferInstanceAs (Decidable (_ ∧ _ ∧ _))
  | .hear _ => inferInstanceAs (Decidable (_ ∧ _ ∧ _))
  | .type => inferInstanceAs (Decidable (_ ∧ _ ∧ _))
  | .pong => inferInstanceAs (Decidable (_ ∧ _ ∧ _))
  | .take => inferInstanceAs (Decidable (_ ∧ _ ∧ _))
  | .feed _ => inferInstanceAs (Decidable (_ ∧ _ ∧ _ ∧ _))
  | .shellReads _ => inferInstanceAs (Decidable (_ ∧ _))
  | .shellPrints _ => inferInstanceAs (Decidable (_ ∧ _))
  | .readPty _ => inferInstanceAs (Decidable (_ ∧ _ ∧ _ ∧ _ ∧ _))
  | .reply => inferInstanceAs (Decidable (_ ∧ _ ∧ _))
  | .queue => inferInstanceAs (Decidable (_ ∧ _ ∧ _))
  | .tick => inferInstanceAs (Decidable (_ ∧ _))
  | .send => inferInstanceAs (Decidable (_ ∧ _ ∧ _))
  | .receive _ => inferInstanceAs (Decidable (_ ∧ _ ∧ _))
  | .takeResize => inferInstanceAs (Decidable (_ ∧ _ ∧ _))
  | .answer => inferInstanceAs (Decidable (_ ∧ _ ∧ _))
  | .stop _ => inferInstanceAs (Decidable True)

/-- The session when the tasks start: the service has the first size to write, and the host its banner. -/
def initial (banner : List UInt8) (cols rows : UInt16) : TerminalState where
  alive := fun _ => true
  input := ⟨[], none, [], .empty, .starting shellFraming (resize cols rows), .reading, [], .empty, [], .empty⟩
  output := ⟨.empty, .reading, .empty, .starting shellFraming (data banner), .empty, false, [], []⟩

end TerminalState

def terminalMachine (limits : TerminalLimits) (banner : List UInt8) (cols rows : UInt16) :
    Machine TerminalState TerminalLabel where
  start := fun s => s = .initial banner cols rows
  enabled := fun s l => s.Enabled limits l
  step := fun s l => s.step l

instance (limits : TerminalLimits) (banner : List UInt8) (cols rows : UInt16) (s : TerminalState) (l : TerminalLabel) :
    Decidable ((terminalMachine limits banner cols rows).enabled s l) := inferInstanceAs (Decidable (s.Enabled limits l))

end Fortiq
