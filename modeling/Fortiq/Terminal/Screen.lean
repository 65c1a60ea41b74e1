/-
The screen of the desktop's terminal (`fortiq-desktop/src/terminal/screen.rs`): two buffers of cells, a cursor that
may stand one column behind the last, the attributes of what is printed next, and a saved cursor. Each operation
returns the screen it leaves, or nothing where the program stops; which overflows stop it depends on the build.
The rendering as plain text is left out.
-/
import Fortiq.Lib.Checked
import Fortiq.Lib.Grid
import Fortiq.Lib.Machine

namespace Fortiq

open Checked

structure TerminalCell where
  c : Char
  fg : UInt32
  bg : UInt32
  bold : Bool
  italic : Bool
  underline : Bool
deriving DecidableEq, Repr

/-- Light grey. -/
def defaultFg : UInt32 := 0xFFCCCCCC

/-- Dark. -/
def defaultBg : UInt32 := 0xFF121212

def TerminalCell.default : TerminalCell := ⟨' ', defaultFg, defaultBg, false, false, false⟩

structure TerminalScreen where
  cols : UInt16
  rows : UInt16
  cursorRow : UInt16
  cursorCol : UInt16
  cursorVisible : Bool
  useAlternate : Bool
  curFg : UInt32
  curBg : UInt32
  curBold : Bool
  curItalic : Bool
  curUnderline : Bool
  primaryBuffer : List (List TerminalCell)
  alternateBuffer : List (List TerminalCell)
  savedCursor : UInt16 × UInt16
deriving DecidableEq, Repr

namespace TerminalScreen

def new (cols rows : UInt16) : TerminalScreen where
  cols := cols
  rows := rows
  cursorRow := 0
  cursorCol := 0
  cursorVisible := true
  useAlternate := false
  curFg := defaultFg
  curBg := defaultBg
  curBold := false
  curItalic := false
  curUnderline := false
  primaryBuffer := Grid.blank .default rows.toNat cols.toNat
  alternateBuffer := Grid.blank .default rows.toNat cols.toNat
  savedCursor := (0, 0)

def resize (cols rows : UInt16) (s : TerminalScreen) : TerminalScreen :=
  if cols = 0 ∨ rows = 0 then s
  else
    { s with
      cols := cols
      rows := rows
      primaryBuffer := Grid.resize .default rows.toNat cols.toNat s.primaryBuffer
      alternateBuffer := Grid.resize .default rows.toNat cols.toNat s.alternateBuffer
      cursorRow := if s.cursorRow ≥ rows then saturatingSub rows 1 else s.cursorRow
      cursorCol := if s.cursorCol ≥ cols then saturatingSub cols 1 else s.cursorCol }

def activeBuffer (s : TerminalScreen) : List (List TerminalCell) :=
  if s.useAlternate then s.alternateBuffer else s.primaryBuffer

/-- Change the active buffer (`active_buffer_mut`). -/
def modifyActive (f : List (List TerminalCell) → List (List TerminalCell)) (s : TerminalScreen) : TerminalScreen :=
  if s.useAlternate then { s with alternateBuffer := f s.alternateBuffer }
  else { s with primaryBuffer := f s.primaryBuffer }

def scrollUp (count : Nat) (s : TerminalScreen) : TerminalScreen :=
  s.modifyActive fun buf => (Grid.scroll .default s.cols.toNat)^[count] buf

def newLine (b : Build) (s : TerminalScreen) : Option TerminalScreen := do
  let s := { s with cursorCol := 0 }
  let next ← addU16 b s.cursorRow 1
  if next ≥ s.rows then return s.scrollUp 1
  else do
    let row ← addU16 b s.cursorRow 1
    return { s with cursorRow := row }

/-- The cell that is printed for a character. -/
def cell (s : TerminalScreen) (c : Char) : TerminalCell :=
  { c, fg := s.curFg, bg := s.curBg, bold := s.curBold, italic := s.curItalic, underline := s.curUnderline }

/-- Behind the last column the cursor first goes to a new line. -/
def wrapLine (b : Build) (s : TerminalScreen) : Option TerminalScreen :=
  if s.cursorCol ≥ s.cols then s.newLine b else some s

def putChar (b : Build) (c : Char) (s : TerminalScreen) : Option TerminalScreen := do
  let s ← s.wrapLine b
  let s := s.modifyActive (Grid.put (s.cell c) s.cursorRow.toNat s.cursorCol.toNat)
  let col ← addU16 b s.cursorCol 1
  return { s with cursorCol := min col s.cols }

def carriageReturn (s : TerminalScreen) : TerminalScreen := { s with cursorCol := 0 }

def backspace (b : Build) (s : TerminalScreen) : Option TerminalScreen :=
  if s.cursorCol > 0 then do
    let col ← subU16 b s.cursorCol 1
    return { s with cursorCol := col }
  else some s

def tab (b : Build) (s : TerminalScreen) : Option TerminalScreen := do
  let stop ← addU16 b (s.cursorCol / 8) 1
  let nextTab ← mulU16 b stop 8
  return { s with cursorCol := min nextTab (saturatingSub s.cols 1) }

def clearScreen (s : TerminalScreen) : TerminalScreen :=
  { s.modifyActive (List.map (Grid.fill .default)) with cursorRow := 0, cursorCol := 0 }

def clearLine (mode : UInt8) (s : TerminalScreen) : TerminalScreen :=
  let r := s.cursorRow.toNat
  let c := s.cursorCol.toNat
  if r ≥ s.activeBuffer.length then s
  else if mode = 0 then s.modifyActive fun buf => buf.modify r (Grid.fillFrom c .default)
  else if mode = 1 then s.modifyActive fun buf => buf.modify r (Grid.fillTo (c + 1) .default)
  else if mode = 2 then s.modifyActive fun buf => buf.modify r (Grid.fill .default)
  else s

def clearDisplay (mode : UInt8) (s : TerminalScreen) : TerminalScreen :=
  let r := s.cursorRow.toNat
  let c := s.cursorCol.toNat
  if mode = 0 then
    s.modifyActive fun buf =>
      let buf := if r < buf.length then buf.modify r (Grid.fillFrom c .default) else buf
      buf.take (r + 1) ++ (buf.drop (r + 1)).map (Grid.fill .default)
  else if mode = 1 then
    s.modifyActive fun buf =>
      let buf := (buf.take r).map (Grid.fill .default) ++ buf.drop r
      if r < buf.length then buf.modify r (Grid.fillTo (c + 1) .default) else buf
  else if mode = 2 ∨ mode = 3 then s.modifyActive (List.map (Grid.fill .default))
  else s

def setCursorPos (row col : UInt16) (s : TerminalScreen) : TerminalScreen :=
  { s with cursorRow := min row (saturatingSub s.rows 1), cursorCol := min col (saturatingSub s.cols 1) }

def moveCursor (b : Build) (dRow dCol : Int16) (s : TerminalScreen) : Option TerminalScreen := do
  let row ← addI16 b s.cursorRow.toInt16 dRow
  let newRow ← clamp row 0 (saturatingSub s.rows 1).toInt16
  let col ← addI16 b s.cursorCol.toInt16 dCol
  let newCol ← clamp col 0 (saturatingSub s.cols 1).toInt16
  return { s with cursorRow := newRow.toUInt16, cursorCol := newCol.toUInt16 }

def saveCursor (s : TerminalScreen) : TerminalScreen := { s with savedCursor := (s.cursorRow, s.cursorCol) }

def restoreCursor (s : TerminalScreen) : TerminalScreen := s.setCursorPos s.savedCursor.1 s.savedCursor.2

/-- The attributes of what is printed next. -/
structure Style where
  fg : UInt32
  bg : UInt32
  bold : Bool
  italic : Bool
  underline : Bool
deriving DecidableEq, Repr

def style (s : TerminalScreen) : Style := ⟨s.curFg, s.curBg, s.curBold, s.curItalic, s.curUnderline⟩

def withStyle (style : Style) (s : TerminalScreen) : TerminalScreen :=
  { s with
    curFg := style.fg
    curBg := style.bg
    curBold := style.bold
    curItalic := style.italic
    curUnderline := style.underline }

end TerminalScreen

/-! ## Operations -/

/-- Everything that is done to a screen: its operations, and the fields that are set from outside. -/
inductive ScreenOp where
  | putChar (c : Char)
  | newLine
  | carriageReturn
  | backspace
  | tab
  | scrollUp (count : Nat)
  | clearScreen
  | clearLine (mode : UInt8)
  | clearDisplay (mode : UInt8)
  | setCursorPos (row col : UInt16)
  | moveCursor (dRow dCol : Int16)
  | saveCursor
  | restoreCursor
  | useAlternate (on : Bool)
  | showCursor (on : Bool)
  | setStyle (style : TerminalScreen.Style)
  | resize (cols rows : UInt16)

open TerminalScreen in
def ScreenOp.run (b : Build) : ScreenOp → TerminalScreen → Option TerminalScreen
  | putChar c, s => s.putChar b c
  | newLine, s => s.newLine b
  | carriageReturn, s => some s.carriageReturn
  | backspace, s => s.backspace b
  | tab, s => s.tab b
  | scrollUp count, s => some (s.scrollUp count)
  | clearScreen, s => some s.clearScreen
  | clearLine mode, s => some (s.clearLine mode)
  | clearDisplay mode, s => some (s.clearDisplay mode)
  | setCursorPos row col, s => some (s.setCursorPos row col)
  | moveCursor dRow dCol, s => s.moveCursor b dRow dCol
  | saveCursor, s => some s.saveCursor
  | restoreCursor, s => some s.restoreCursor
  | useAlternate on, s => some { s with useAlternate := on }
  | showCursor on, s => some { s with cursorVisible := on }
  | setStyle style, s => some (s.withStyle style)
  | resize cols rows, s => some (s.resize cols rows)

/-- A screen of any size, under operations in any order; an operation that stops the program is the last. -/
def screenMachine (b : Build) : Machine TerminalScreen ScreenOp :=
  .ofPartial (fun s => ∃ cols rows, s = TerminalScreen.new cols rows) fun s op => op.run b s

theorem ScreenOp.reachable {b : Build} (op : ScreenOp) {s s' : TerminalScreen} (hs : (screenMachine b).Reachable s)
    (h : op.run b s = some s') : (screenMachine b).Reachable s' :=
  Machine.Reachable.partial_step hs h

end Fortiq
