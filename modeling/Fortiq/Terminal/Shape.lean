/-
The shape of a screen: both buffers have its rows and columns, and the cursor stands in a row of it and at most one
column behind the last. Every operation keeps it, in either build, so that a character that is printed has a cell.
-/
import Fortiq.Terminal.Performer

namespace Fortiq.TerminalScreen

open Checked

structure Shape (s : TerminalScreen) : Prop where
  primary : Grid.Shaped s.rows.toNat s.cols.toNat s.primaryBuffer
  alternate : Grid.Shaped s.rows.toNat s.cols.toNat s.alternateBuffer
  row : s.cursorRow.toNat ≤ s.rows.toNat - 1
  col : s.cursorCol.toNat ≤ s.cols.toNat

variable {b : Build} {s s' : TerminalScreen}

theorem shape_new (cols rows : UInt16) : (new cols rows).Shape where
  primary := Grid.shaped_blank ..
  alternate := Grid.shaped_blank ..
  row := Nat.zero_le _
  col := Nat.zero_le _

/-! ## The active buffer -/

section Active

variable (f : List (List TerminalCell) → List (List TerminalCell)) (s : TerminalScreen)

@[simp] theorem modifyActive_cols : (s.modifyActive f).cols = s.cols := by unfold modifyActive; split <;> rfl

@[simp] theorem modifyActive_cursorRow : (s.modifyActive f).cursorRow = s.cursorRow := by
  unfold modifyActive; split <;> rfl

@[simp] theorem modifyActive_cursorCol : (s.modifyActive f).cursorCol = s.cursorCol := by
  unfold modifyActive; split <;> rfl

@[simp] theorem activeBuffer_modifyActive : (s.modifyActive f).activeBuffer = f s.activeBuffer := by
  unfold modifyActive
  split
  · rename_i h
    simp only [activeBuffer, h, if_true]
  · rename_i h
    rw [activeBuffer, activeBuffer, if_neg h, if_neg h]

end Active

theorem Shape.active (h : s.Shape) : Grid.Shaped s.rows.toNat s.cols.toNat s.activeBuffer := by
  unfold activeBuffer
  split
  · exact h.alternate
  · exact h.primary

theorem Shape.modifyActive {f : List (List TerminalCell) → List (List TerminalCell)} (h : s.Shape)
    (hf : ∀ buf, Grid.Shaped s.rows.toNat s.cols.toNat buf → Grid.Shaped s.rows.toNat s.cols.toNat (f buf)) :
    (s.modifyActive f).Shape := by
  unfold TerminalScreen.modifyActive
  split
  · exact ⟨h.primary, hf _ h.alternate, h.row, h.col⟩
  · exact ⟨hf _ h.primary, h.alternate, h.row, h.col⟩

/-- The cursor may be put anywhere within the screen. -/
theorem Shape.withCursor (h : s.Shape) {row col : UInt16} (hrow : row.toNat ≤ s.rows.toNat - 1)
    (hcol : col.toNat ≤ s.cols.toNat) : ({ s with cursorRow := row, cursorCol := col } : TerminalScreen).Shape :=
  ⟨h.primary, h.alternate, hrow, hcol⟩

/-! ## The operations -/

theorem Shape.setCursorPos (h : s.Shape) (row col : UInt16) : (s.setCursorPos row col).Shape := by
  refine h.withCursor ?_ ?_
  · rw [toNat_min, toNat_saturatingSub]; exact Nat.min_le_right ..
  · rw [toNat_min, toNat_saturatingSub, UInt16.toNat_one]; omega

theorem Shape.resize (h : s.Shape) (cols rows : UInt16) : (s.resize cols rows).Shape := by
  unfold TerminalScreen.resize
  split
  · exact h
  · refine ⟨Grid.shaped_resize .., Grid.shaped_resize .., ?_, ?_⟩
    · simp only
      split
      · rw [toNat_saturatingSub]; exact Nat.le_refl _
      · rename_i hlt
        have := mt UInt16.le_iff_toNat_le.2 hlt
        omega
    · simp only
      split
      · rw [toNat_saturatingSub]; exact Nat.sub_le ..
      · rename_i hlt
        have := mt UInt16.le_iff_toNat_le.2 hlt
        omega

theorem Shape.scrollUp (h : s.Shape) (count : Nat) : (s.scrollUp count).Shape := by
  refine h.modifyActive fun buf hbuf => ?_
  induction count generalizing buf with
  | zero => exact hbuf
  | succ n ih => exact ih _ (hbuf.scroll _)

/-- A new line is always possible: the next row does not overflow, as the cursor is in a row of the screen. -/
theorem Shape.newLine (h : s.Shape) (b : Build) : ∃ s', s.newLine b = some s' ∧ s'.Shape ∧ s'.cursorCol = 0 ∧
    s'.rows = s.rows ∧ s'.cols = s.cols ∧ ∀ c, s'.cell c = s.cell c := by
  have hrow := h.row
  have hrows := s.rows.toNat_lt
  obtain ⟨hadd, hnext⟩ := addU16_of_lt (b := b) (x := s.cursorRow) (y := 1) (by rw [UInt16.toNat_one]; omega)
  rw [UInt16.toNat_one] at hnext
  have h₀ : ({ s with cursorCol := 0 } : TerminalScreen).Shape := h.withCursor h.row (Nat.zero_le _)
  unfold TerminalScreen.newLine
  simp only [hadd, Option.bind_eq_bind, Option.bind_some]
  split
  · refine ⟨_, rfl, h₀.scrollUp 1, ?_, ?_, ?_, fun c => ?_⟩
    all_goals unfold TerminalScreen.scrollUp TerminalScreen.modifyActive; split <;> rfl
  · rename_i hlt
    have := mt UInt16.le_iff_toNat_le.2 hlt
    exact ⟨_, rfl, h₀.withCursor (show (s.cursorRow + 1).toNat ≤ s.rows.toNat - 1 by omega) h₀.col, rfl, rfl, rfl,
      fun _ => rfl⟩

theorem Shape.wrapLine (h : s.Shape) (b : Build) : ∃ s', s.wrapLine b = some s' ∧ s'.Shape ∧
    (1 ≤ s'.cols.toNat → s'.cursorCol.toNat < s'.cols.toNat) ∧ s'.rows = s.rows ∧ s'.cols = s.cols ∧
    ∀ c, s'.cell c = s.cell c := by
  unfold TerminalScreen.wrapLine
  split
  · obtain ⟨s', hs', h', hzero, hrest⟩ := h.newLine b
    exact ⟨s', hs', h', fun hpos => by rw [hzero]; exact hpos, hrest⟩
  · rename_i hlt
    exact ⟨s, rfl, h, fun _ => Nat.lt_of_not_le (mt UInt16.le_iff_toNat_le.2 hlt), rfl, rfl, fun _ => rfl⟩

/-- A character is always printed, and where the screen has a cell it is stored left of the new place of the cursor. -/
theorem Shape.putChar (h : s.Shape) (b : Build) (c : Char) : ∃ s', s.putChar b c = some s' ∧ s'.Shape ∧
    (1 ≤ s.rows.toNat → 1 ≤ s.cols.toNat → 1 ≤ s'.cursorCol.toNat ∧
      Grid.cellAt s'.activeBuffer s'.cursorRow.toNat (s'.cursorCol.toNat - 1) = some (s.cell c)) := by
  obtain ⟨s₁, hs₁, h₁, hcol, hrows, hcols, hcell⟩ := h.wrapLine b
  have hlt := s₁.cols.toNat_lt
  have hle := h₁.col
  obtain ⟨hadd, hnext⟩ := addU16_of_lt (b := b) (x := s₁.cursorCol) (y := 1) (by rw [UInt16.toNat_one]; omega)
  rw [UInt16.toNat_one] at hnext
  have hput := h₁.modifyActive (f := Grid.put (s₁.cell c) s₁.cursorRow.toNat s₁.cursorCol.toNat)
    fun buf hbuf => hbuf.put ..
  have hmin : (min (s₁.cursorCol + 1) s₁.cols).toNat = min (s₁.cursorCol.toNat + 1) s₁.cols.toNat := by
    rw [toNat_min, hnext]
  have hcursor : (min (s₁.cursorCol + 1) s₁.cols).toNat ≤
      (s₁.modifyActive (Grid.put (s₁.cell c) s₁.cursorRow.toNat s₁.cursorCol.toNat)).cols.toNat := by
    rw [hmin, modifyActive_cols]
    exact Nat.min_le_right ..
  refine ⟨_, ?_, hput.withCursor hput.row hcursor, fun hr hc => ?_⟩
  · rw [TerminalScreen.putChar, hs₁]
    simp only [Option.bind_eq_bind, Option.bind_some, modifyActive_cursorCol, modifyActive_cols, hadd]
    rfl
  · rw [← hrows] at hr
    rw [← hcols] at hc
    have hrow := h₁.row
    simp only [hmin, Nat.min_eq_left (hcol hc), modifyActive_cursorRow]
    refine ⟨Nat.succ_pos _, ?_⟩
    rw [← hcell c]
    exact (congrArg (Grid.cellAt · _ _) (activeBuffer_modifyActive _ s₁)).trans
      (h₁.active.cellAt_put _ (by omega) (hcol hc))

theorem Shape.backspace (h : s.Shape) (hs : s.backspace b = some s') : s'.Shape := by
  unfold TerminalScreen.backspace at hs
  split at hs
  · rename_i hpos
    obtain ⟨col, hsub, hs⟩ := Option.bind_eq_some_iff.1 hs
    cases hs
    obtain rfl := eq_of_check hsub
    have hone : (1 : UInt16) ≤ s.cursorCol := UInt16.le_iff_toNat_le.2 (UInt16.lt_iff_toNat_lt.1 hpos)
    have hcol := h.col
    refine h.withCursor h.row ?_
    rw [UInt16.toNat_sub_of_le _ _ hone]
    omega
  · cases hs; exact h

theorem Shape.tab (h : s.Shape) (hs : s.tab b = some s') : s'.Shape := by
  obtain ⟨stop, -, hs⟩ := Option.bind_eq_some_iff.1 hs
  obtain ⟨nextTab, -, hs⟩ := Option.bind_eq_some_iff.1 hs
  cases hs
  refine h.withCursor h.row ?_
  rw [toNat_min, toNat_saturatingSub, UInt16.toNat_one]
  omega

theorem Shape.clearScreen (h : s.Shape) : s.clearScreen.Shape :=
  (h.modifyActive fun _ hbuf => hbuf.map (Grid.length_fill _)).withCursor (Nat.zero_le _) (Nat.zero_le _)

theorem Shape.clearLine (h : s.Shape) (mode : UInt8) : (s.clearLine mode).Shape := by
  unfold TerminalScreen.clearLine
  simp only
  split_ifs
  · exact h
  · exact h.modifyActive fun _ hbuf => hbuf.modify (Grid.length_fillFrom _ _) _
  · exact h.modifyActive fun _ hbuf => hbuf.modify (Grid.length_fillTo _ _) _
  · exact h.modifyActive fun _ hbuf => hbuf.modify (Grid.length_fill _) _
  · exact h

theorem Shape.clearDisplay (h : s.Shape) (mode : UInt8) : (s.clearDisplay mode).Shape := by
  unfold TerminalScreen.clearDisplay
  simp only
  split_ifs
  · refine h.modifyActive fun buf hbuf => Grid.Shaped.map_drop (Grid.length_fill _) ?_ _
    split
    · exact hbuf.modify (Grid.length_fillFrom _ _) _
    · exact hbuf
  · refine h.modifyActive fun buf hbuf => ?_
    have htop := hbuf.map_take (Grid.length_fill TerminalCell.default) s.cursorRow.toNat
    split
    · exact htop.modify (Grid.length_fillTo _ _) _
    · exact htop
  · exact h.modifyActive fun _ hbuf => hbuf.map (Grid.length_fill _)
  · exact h

/-- Both clamps are to bounds of the screen, so what is cast back is not negative. -/
theorem Shape.moveCursor {dRow dCol : Int16} (h : s.Shape) (hs : s.moveCursor b dRow dCol = some s') : s'.Shape := by
  obtain ⟨row, -, hs⟩ := Option.bind_eq_some_iff.1 hs
  obtain ⟨newRow, hrow, hs⟩ := Option.bind_eq_some_iff.1 hs
  obtain ⟨col, -, hs⟩ := Option.bind_eq_some_iff.1 hs
  obtain ⟨newCol, hcol, hs⟩ := Option.bind_eq_some_iff.1 hs
  cases hs
  have hrow := (clamp_zero hrow).2
  have hcol := (clamp_zero hcol).2
  rw [toNat_saturatingSub, UInt16.toNat_one] at hrow hcol
  exact h.withCursor (by omega) (by omega)

/-- Every operation keeps the shape of the screen. -/
theorem Shape.run (h : s.Shape) {op : ScreenOp} (hs : op.run b s = some s') : s'.Shape := by
  cases op with
  | putChar c =>
    obtain ⟨s₁, hs₁, h₁, -⟩ := h.putChar b c
    obtain rfl := Option.some.inj (hs₁.symm.trans hs)
    exact h₁
  | newLine =>
    obtain ⟨s₁, hs₁, h₁, -⟩ := h.newLine b
    obtain rfl := Option.some.inj (hs₁.symm.trans hs)
    exact h₁
  | backspace => exact h.backspace hs
  | tab => exact h.tab hs
  | moveCursor => exact h.moveCursor hs
  | carriageReturn => cases hs; exact h.withCursor h.row (Nat.zero_le _)
  | scrollUp => cases hs; exact h.scrollUp _
  | clearScreen => cases hs; exact h.clearScreen
  | clearLine => cases hs; exact h.clearLine _
  | clearDisplay => cases hs; exact h.clearDisplay _
  | setCursorPos => cases hs; exact h.setCursorPos ..
  | restoreCursor => cases hs; exact h.setCursorPos ..
  | resize => cases hs; exact h.resize ..
  | saveCursor | useAlternate | showCursor | setStyle => cases hs; exact ⟨h.primary, h.alternate, h.row, h.col⟩

theorem shape_of_reachable (h : (screenMachine b).Reachable s) : s.Shape := by
  refine h.partial_invariant (I := Shape) ?_ fun s op s' hs h => h.run hs
  rintro s ⟨cols, rows, rfl⟩
  exact shape_new cols rows

/-- Whatever is done to a screen of any size, its buffers keep its rows and columns, the cursor stays within it, and a
character that is printed on it is stored if it has a cell at all. So it is for whatever a session reads. -/
theorem terminal_screen_shape {σ : Type} (vte : VteParser σ) :
    (∀ s, (screenMachine .release).Reachable s → s.Shape ∧
      ∀ c, 1 ≤ s.rows.toNat → 1 ≤ s.cols.toNat → ∃ s', s.putChar .release c = some s' ∧ 1 ≤ s'.cursorCol.toNat ∧
        Grid.cellAt s'.activeBuffer s'.cursorRow.toNat (s'.cursorCol.toNat - 1) = some (s.cell c)) ∧
    ∀ st, (readerMachine vte .release).Reachable st → st.screen.Shape := by
  refine ⟨fun s hs => ?_, fun st hst => shape_of_reachable (reader_reachable hst)⟩
  have h := shape_of_reachable hs
  refine ⟨h, fun c hr hc => ?_⟩
  obtain ⟨s', hs', -, hstored⟩ := h.putChar .release c
  exact ⟨s', hs', hstored hr hc⟩

/-- A parser for text without control sequences. -/
def plainVte : VteParser Unit := ⟨(), fun _ bytes => ((), bytes.map fun byte => .print (Char.ofNat byte.toNat))⟩

/-- The theorem at a screen of a single cell whose cursor stands behind it, and at a session on a line of two cells that
has read three characters. -/
theorem terminal_screen_shape_single :
    (∃ s, (screenMachine .release).Reachable s ∧ s.cursorCol = 1 ∧
      ∃ s', s.putChar .release 'b' = some s' ∧ 1 ≤ s'.cursorCol.toNat ∧
        Grid.cellAt s'.activeBuffer s'.cursorRow.toNat (s'.cursorCol.toNat - 1) = some (s.cell 'b')) ∧
    ∃ st, (readerMachine plainVte .release).Reachable st ∧ (st.screen.cursorRow, st.screen.cursorCol) = (0, 1) ∧
      st.screen.Shape := by
  have hnew : (screenMachine .release).Reachable (new 1 1) := .of_start ⟨1, 1, rfl⟩
  obtain ⟨s, hs⟩ : ∃ s, (new 1 1).putChar .release 'a' = some s := Option.isSome_iff_exists.1 (by decide +kernel)
  have hreach := ScreenOp.reachable (.putChar 'a') hnew hs
  have hcell : ((new 1 1).putChar .release 'a').map (fun s => (s.cursorCol, s.rows, s.cols)) = some (1, 1, 1) := by
    decide +kernel
  rw [hs, Option.map_some, Option.some.injEq, Prod.mk.injEq, Prod.mk.injEq] at hcell
  obtain ⟨hcol, hrows, hcols⟩ := hcell
  -- the line is full after two characters, and the third is on a new one
  let line : ReaderState Unit := ⟨new 2 1, (), []⟩
  have hline : (readerMachine plainVte .release).Reachable line := .of_start ⟨2, 1, rfl⟩
  have hcursor : (line.step plainVte .release (.frame (.data [97, 98, 99]))).map
      (fun st => (st.screen.cursorRow, st.screen.cursorCol)) = some (0, 1) := by decide +kernel
  obtain ⟨st, hst, hat⟩ := Option.map_eq_some_iff.1 hcursor
  have hread : (readerMachine plainVte .release).Reachable st := hline.partial_step hst
  refine ⟨⟨s, hreach, hcol, ((terminal_screen_shape plainVte).1 s hreach).2 'b' ?_ ?_⟩,
    st, hread, hat, (terminal_screen_shape plainVte).2 st hread⟩
  · rw [hrows]; decide
  · rw [hcols]; decide

end Fortiq.TerminalScreen
