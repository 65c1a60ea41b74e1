/-
What a remote shell does to the screen (`TerminalPerformer` in `fortiq-desktop/src/terminal/parser.rs`) and the loop
that feeds it (`run_with_stream` in `session.rs`). The parser of escape sequences is external: it turns bytes into
calls of the performer. Every call is a sequence of operations of the screen.
-/
import Fortiq.Shell.Frame
import Fortiq.Terminal.Screen

namespace Fortiq

open Checked

/-! ## The performer -/

/-- The parameters of a sequence, as their first values: the others are not looked at. -/
abbrev Params := List UInt16

/-- The calls the parser makes. -/
inductive VteAction where
  | print (c : Char)
  | execute (byte : UInt8)
  /-- `hook`, `put`, `unhook` and `osc_dispatch`, which do nothing. -/
  | ignored
  | csiDispatch (params : Params) (intermediates : List UInt8) (action : Char)
  | escDispatch (byte : UInt8)

namespace TerminalPerformer

open TerminalScreen

def foreground : UInt16 → Option UInt32
  | 30 => some 0xFF000000
  | 31 => some 0xFFE5484D
  | 32 => some 0xFF16A36D
  | 33 => some 0xFFEAA612
  | 34 => some 0xFF0B84FF
  | 35 => some 0xFFA05CE0
  | 36 => some 0xFF17B897
  | 37 => some 0xFFCCCCCC
  | 39 => some 0xFFCCCCCC
  | 90 => some 0xFF707070
  | 91 => some 0xFFFF6369
  | 92 => some 0xFF2CD996
  | 93 => some 0xFFFFC53D
  | 94 => some 0xFF52A8FF
  | 95 => some 0xFFBF7AF0
  | 96 => some 0xFF35E0BD
  | 97 => some 0xFFFFFFFF
  | _ => none

def background : UInt16 → Option UInt32
  | 40 => some 0xFF121212
  | 41 => some 0xFF701A1E
  | 42 => some 0xFF0D5E3E
  | 43 => some 0xFF7D570A
  | 44 => some 0xFF064789
  | 45 => some 0xFF532F73
  | 46 => some 0xFF0D5C4C
  | 47 => some 0xFF4A4A4A
  | 49 => some 0xFF121212
  | 100 => some 0xFF2B2B2B
  | 101 => some 0xFF8E2126
  | 102 => some 0xFF127B52
  | 103 => some 0xFFA3720C
  | 104 => some 0xFF0A58A8
  | 105 => some 0xFF6C3D96
  | 106 => some 0xFF127863
  | 107 => some 0xFF6E6E6E
  | _ => none

/-- One code of `handle_sgr`. -/
def sgr (code : UInt16) (style : Style) : Style :=
  match code with
  | 0 => ⟨defaultFg, defaultBg, false, false, false⟩
  | 1 => { style with bold := true }
  | 3 => { style with italic := true }
  | 4 => { style with underline := true }
  | 22 => { style with bold := false }
  | 23 => { style with italic := false }
  | 24 => { style with underline := false }
  | _ =>
    match foreground code, background code with
    | some fg, _ => { style with fg }
    | none, some bg => { style with bg }
    | none, none => style

def handleSgr (params : Params) (s : TerminalScreen) : TerminalScreen :=
  params.foldl (fun s code => s.withStyle (sgr code s.style)) s

def print (b : Build) (c : Char) (s : TerminalScreen) : Option TerminalScreen := s.putChar b c

def execute (b : Build) (byte : UInt8) (s : TerminalScreen) : Option TerminalScreen :=
  match byte with
  | 0x0a => s.newLine b
  | 0x0d => some s.carriageReturn
  | 0x08 => s.backspace b
  | 0x09 => s.tab b
  | _ => some s

/-- The first parameter of a motion: at least one, and one where it is missing. -/
def count (params : Params) : UInt16 := max (params.head?.getD 1) 1

/-- One mode that is set. -/
def setMode (mode : UInt16) (s : TerminalScreen) : TerminalScreen :=
  match mode with
  | 25 => { s with cursorVisible := true }
  | 1049 => ({ s with useAlternate := true } : TerminalScreen).clearScreen
  | _ => s

/-- One mode that is reset. -/
def resetMode (mode : UInt16) (s : TerminalScreen) : TerminalScreen :=
  match mode with
  | 25 => { s with cursorVisible := false }
  | 1049 => { s with useAlternate := false }
  | _ => s

def csiDispatch (b : Build) (params : Params) (intermediates : List UInt8) (action : Char) (s : TerminalScreen) :
    Option TerminalScreen :=
  let isPrivate := intermediates.contains 0x3f
  match action with
  | 'A' => do
    let d ← negI16 b (count params).toInt16
    s.moveCursor b d 0
  | 'B' => s.moveCursor b (count params).toInt16 0
  | 'C' => s.moveCursor b 0 (count params).toInt16
  | 'D' => do
    let d ← negI16 b (count params).toInt16
    s.moveCursor b 0 d
  | 'H' | 'f' =>
    let row := saturatingSub (count params) 1
    let col := saturatingSub (count params.tail) 1
    some (s.setCursorPos row col)
  | 'J' => some (s.clearDisplay (params.head?.map UInt16.toUInt8 |>.getD 0))
  | 'K' => some (s.clearLine (params.head?.map UInt16.toUInt8 |>.getD 0))
  | 'm' => some (handleSgr params s)
  | 'h' => some (if isPrivate then params.foldl (fun s mode => setMode mode s) s else s)
  | 'l' => some (if isPrivate then params.foldl (fun s mode => resetMode mode s) s else s)
  | 's' => some s.saveCursor
  | 'u' => some s.restoreCursor
  | _ => some s

def escDispatch (byte : UInt8) (s : TerminalScreen) : TerminalScreen :=
  match byte with
  | 0x37 => s.saveCursor
  | 0x38 => s.restoreCursor
  | 0x63 => s.clearScreen
  | _ => s

def perform (b : Build) : VteAction → TerminalScreen → Option TerminalScreen
  | .print c, s => print b c s
  | .execute byte, s => execute b byte s
  | .ignored, s => some s
  | .csiDispatch params intermediates action, s => csiDispatch b params intermediates action s
  | .escDispatch byte, s => some (escDispatch byte s)

/-- The calls for some bytes, up to one that stops the program. -/
def performAll (b : Build) (actions : List VteAction) (s : TerminalScreen) : Option TerminalScreen :=
  actions.foldlM (fun s action => perform b action s) s

/-! ## Calls are operations -/

section Reachable

variable {b : Build} {s s' : TerminalScreen}

theorem foldl_reachable {f : TerminalScreen → UInt16 → TerminalScreen}
    (hf : ∀ (code : UInt16) (s : TerminalScreen), (screenMachine b).Reachable s → (screenMachine b).Reachable (f s code)) :
    ∀ (params : Params) {s : TerminalScreen}, (screenMachine b).Reachable s →
      (screenMachine b).Reachable (params.foldl f s)
  | [], _, hs => hs
  | code :: params, s, hs => foldl_reachable hf params (hf code s hs)

theorem setMode_reachable (mode : UInt16) (s : TerminalScreen) (hs : (screenMachine b).Reachable s) :
    (screenMachine b).Reachable (setMode mode s) := by
  unfold setMode
  split
  · exact ScreenOp.reachable (.showCursor true) hs rfl
  · exact ScreenOp.reachable .clearScreen (ScreenOp.reachable (.useAlternate true) hs rfl) rfl
  · exact hs

theorem resetMode_reachable (mode : UInt16) (s : TerminalScreen) (hs : (screenMachine b).Reachable s) :
    (screenMachine b).Reachable (resetMode mode s) := by
  unfold resetMode
  split
  · exact ScreenOp.reachable (.showCursor false) hs rfl
  · exact ScreenOp.reachable (.useAlternate false) hs rfl
  · exact hs

theorem csiDispatch_reachable {params : Params} {intermediates : List UInt8} {action : Char}
    (hs : (screenMachine b).Reachable s) (h : csiDispatch b params intermediates action s = some s') :
    (screenMachine b).Reachable s' := by
  unfold csiDispatch at h
  split at h
  · obtain ⟨d, -, h⟩ := Option.bind_eq_some_iff.1 h
    exact ScreenOp.reachable (.moveCursor d 0) hs h
  · exact ScreenOp.reachable (.moveCursor (count params).toInt16 0) hs h
  · exact ScreenOp.reachable (.moveCursor 0 (count params).toInt16) hs h
  · obtain ⟨d, -, h⟩ := Option.bind_eq_some_iff.1 h
    exact ScreenOp.reachable (.moveCursor 0 d) hs h
  · exact ScreenOp.reachable (.setCursorPos ..) hs h
  · exact ScreenOp.reachable (.setCursorPos ..) hs h
  · exact ScreenOp.reachable (.clearDisplay _) hs h
  · exact ScreenOp.reachable (.clearLine _) hs h
  · cases h
    exact foldl_reachable (fun code s hs => ScreenOp.reachable (.setStyle (sgr code s.style)) hs rfl) params hs
  · cases h
    split
    · exact foldl_reachable setMode_reachable params hs
    · exact hs
  · cases h
    split
    · exact foldl_reachable resetMode_reachable params hs
    · exact hs
  · exact ScreenOp.reachable .saveCursor hs h
  · exact ScreenOp.reachable .restoreCursor hs h
  · cases h; exact hs

theorem execute_reachable {byte : UInt8} (hs : (screenMachine b).Reachable s) (h : execute b byte s = some s') :
    (screenMachine b).Reachable s' := by
  unfold execute at h
  split at h
  · exact ScreenOp.reachable .newLine hs h
  · exact ScreenOp.reachable .carriageReturn hs h
  · exact ScreenOp.reachable .backspace hs h
  · exact ScreenOp.reachable .tab hs h
  · cases h; exact hs

/-- A call of the performer leaves a screen that its operations can leave. -/
theorem perform_reachable {action : VteAction} (hs : (screenMachine b).Reachable s)
    (h : perform b action s = some s') : (screenMachine b).Reachable s' := by
  cases action with
  | print c => exact ScreenOp.reachable (.putChar c) hs h
  | execute byte => exact execute_reachable hs h
  | ignored => cases h; exact hs
  | csiDispatch params intermediates action => exact csiDispatch_reachable hs h
  | escDispatch byte =>
    cases h
    unfold escDispatch
    split
    · exact ScreenOp.reachable .saveCursor hs rfl
    · exact ScreenOp.reachable .restoreCursor hs rfl
    · exact ScreenOp.reachable .clearScreen hs rfl
    · exact hs

theorem performAll_reachable : ∀ {actions : List VteAction} {s : TerminalScreen}, (screenMachine b).Reachable s →
    performAll b actions s = some s' → (screenMachine b).Reachable s'
  | [], _, hs, h => by cases h; exact hs
  | action :: actions, s, hs, h => by
    rw [performAll, List.foldlM_cons] at h
    obtain ⟨s₁, h₁, h⟩ := Option.bind_eq_some_iff.1 h
    exact performAll_reachable (perform_reachable hs h₁) h

end Reachable

end TerminalPerformer

/-! ## The reader of a session -/

/-- The parser of escape sequences: what it remembers of the bytes so far, and the calls it makes for more. -/
structure VteParser (σ : Type) where
  new : σ
  advance : σ → List UInt8 → σ × List VteAction

inductive ReaderEvent where
  /-- The window has been resized. -/
  | localResize (cols rows : UInt16)
  /-- A frame has come from the remote side. -/
  | frame (frame : ShellFrame)

structure ReaderState (σ : Type) where
  screen : TerminalScreen
  parser : σ
  /-- What is handed to the writer. -/
  sent : List ShellFrame

section Session

variable {σ : Type} (vte : VteParser σ) (b : Build)

/-- One turn of the reader loop; the text of the screen that follows it is left out. -/
def ReaderState.step (st : ReaderState σ) : ReaderEvent → Option (ReaderState σ)
  | .localResize cols rows => some { st with screen := st.screen.resize cols rows }
  | .frame (.data bytes) => do
    let (parser, actions) := vte.advance st.parser bytes
    let screen ← TerminalPerformer.performAll b actions st.screen
    return { st with screen, parser }
  | .frame .ping => some { st with sent := st.sent ++ [.pong] }
  | .frame .pong => some st
  | .frame (.resize cols rows) => some { st with screen := st.screen.resize cols rows }

/-- The reader of a session with a screen of any size, for frames and resizes in any order. -/
def readerMachine : Machine (ReaderState σ) ReaderEvent :=
  .ofPartial (fun st => ∃ cols rows, st = ⟨TerminalScreen.new cols rows, vte.new, []⟩) fun st event => st.step vte b event

variable {vte b}

theorem ReaderState.step_reachable {st st' : ReaderState σ} {event : ReaderEvent}
    (hs : (screenMachine b).Reachable st.screen) (h : st.step vte b event = some st') :
    (screenMachine b).Reachable st'.screen := by
  unfold ReaderState.step at h
  split at h
  · cases h; exact ScreenOp.reachable (.resize _ _) hs rfl
  · obtain ⟨screen, hperform, h⟩ := Option.bind_eq_some_iff.1 h
    cases h
    exact TerminalPerformer.performAll_reachable hs hperform
  · cases h; exact hs
  · cases h; exact hs
  · cases h; exact ScreenOp.reachable (.resize _ _) hs rfl

/-- Whatever the remote side sends and however the window is resized, the screen is one its operations can leave. -/
theorem reader_reachable {st : ReaderState σ} (h : (readerMachine vte b).Reachable st) :
    (screenMachine b).Reachable st.screen := by
  refine h.partial_invariant (I := fun st => (screenMachine b).Reachable st.screen) ?_ ?_
  · rintro st ⟨cols, rows, rfl⟩
    exact .of_start ⟨cols, rows, rfl⟩
  · intro st event st' hstep hs
    exact st.step_reachable hs hstep

end Session

end Fortiq
