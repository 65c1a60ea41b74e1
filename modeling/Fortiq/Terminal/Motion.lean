/-
The relative motions of the cursor (`CSI A`, `B`, `C` and `D`) and the tabulator, in exact integers. A parameter is
sixteen bits without a sign, the motion is done in sixteen bits with one, and so are the bounds it is clamped to: the
cursor moves as the parameter says, without overflow or panic, exactly under the conditions found here.
-/
import Fortiq.Terminal.Shape

namespace Fortiq

open Checked

namespace TerminalScreen

variable {s : TerminalScreen}

/-- Where a motion that no build stops in leaves the cursor. -/
theorem moveCursor_all_iff {dRow dCol : Int16} {P : Int → Int → Prop} :
    (∃ s', (∀ b, s.moveCursor b dRow dCol = some s') ∧ P s'.cursorRow.toNat s'.cursorCol.toNat) ↔
      (-32768 ≤ s.cursorRow.toInt16.toInt + dRow.toInt ∧ s.cursorRow.toInt16.toInt + dRow.toInt < 32768) ∧
      (-32768 ≤ s.cursorCol.toInt16.toInt + dCol.toInt ∧ s.cursorCol.toInt16.toInt + dCol.toInt < 32768) ∧
      s.rows.toNat - 1 < 32768 ∧ s.cols.toNat - 1 < 32768 ∧
      P (max 0 (min (s.cursorRow.toInt16.toInt + dRow.toInt) (s.rows.toNat - 1 : Nat)))
        (max 0 (min (s.cursorCol.toInt16.toInt + dCol.toInt) (s.cols.toNat - 1 : Nat))) := by
  have hbound : ∀ x : UInt16, (saturatingSub x 1).toNat = x.toNat - 1 := fun x => by
    rw [toNat_saturatingSub, UInt16.toNat_one]
  simp only [moveCursor, addI16, Option.bind_eq_bind]
  constructor
  · rintro ⟨s', h, hP⟩
    obtain ⟨hrow, h⟩ := check_bind_all.1 h
    obtain ⟨newRow, hnewRow, -⟩ := Option.bind_eq_some_iff.1 (h .debug)
    simp only [hnewRow, Option.bind_some] at h
    obtain ⟨hcol, h⟩ := check_bind_all.1 h
    obtain ⟨newCol, hnewCol, hs'⟩ := Option.bind_eq_some_iff.1 (h .debug)
    cases hs'
    obtain ⟨hrows, hrow'⟩ := clamp_zero hnewRow
    obtain ⟨hcols, hcol'⟩ := clamp_zero hnewCol
    rw [hbound] at hrows hcols hrow' hcol'
    rw [toInt_add_of_fits hrow] at hrow'
    rw [toInt_add_of_fits hcol] at hcol'
    simp only [hrow', hcol'] at hP
    exact ⟨hrow, hcol, hrows, hcols, hP⟩
  · rintro ⟨hrow, hcol, hrows, hcols, hP⟩
    rw [← hbound] at hrows hcols
    obtain ⟨newRow, hnewRow⟩ := clamp_zero_isSome (x := s.cursorRow.toInt16 + dRow) hrows
    obtain ⟨newCol, hnewCol⟩ := clamp_zero_isSome (x := s.cursorCol.toInt16 + dCol) hcols
    refine ⟨{ s with cursorRow := newRow.toUInt16, cursorCol := newCol.toUInt16 },
      check_bind_all.2 ⟨hrow, fun b => ?_⟩, ?_⟩
    · rw [hnewRow, Option.bind_some, check_of_fits hcol, Option.bind_some, hnewCol]
      rfl
    · have hrow' := (clamp_zero hnewRow).2
      have hcol' := (clamp_zero hnewCol).2
      rw [hbound, toInt_add_of_fits hrow] at hrow'
      rw [hbound, toInt_add_of_fits hcol] at hcol'
      simp only [hrow', hcol']
      exact hP

section Bounds

variable (hrows : 1 ≤ s.rows.toNat) (hcols : 1 ≤ s.cols.toNat)

include hrows hcols

/-- A motion up or down: the bounds are the right way round on screens of at most 32768 rows and columns, and on these
the row of the cursor is cast to itself. -/
theorem moveRow_all_iff (h : s.Shape) {d : Int16} {P : Int → Prop} :
    (∃ s', (∀ b, s.moveCursor b d 0 = some s') ∧ P s'.cursorRow.toNat) ↔
      s.rows.toNat ≤ 32768 ∧ s.cols.toNat ≤ 32768 ∧
      (-32768 ≤ s.cursorRow.toNat + d.toInt ∧ s.cursorRow.toNat + d.toInt < 32768) ∧
      P (max 0 (min (s.cursorRow.toNat + d.toInt) (s.rows.toNat - 1))) := by
  have hrow := h.row
  have hzero : (0 : Int16).toInt = 0 := rfl
  have hlo := s.cursorCol.toInt16.le_toInt
  have hhi := s.cursorCol.toInt16.toInt_lt
  rw [moveCursor_all_iff (P := fun row _ => P row), hzero, add_zero, toInt_toInt16, Int.natCast_sub hrows]
  by_cases hR : s.rows.toNat ≤ 32768
  · rw [if_pos (by omega : s.cursorRow.toNat < 32768)]
    have hcols' : s.cols.toNat - 1 < 32768 ↔ s.cols.toNat ≤ 32768 := by omega
    have hrows' : s.rows.toNat - 1 < 32768 := by omega
    have hfits : -32768 ≤ s.cursorCol.toInt16.toInt ∧ s.cursorCol.toInt16.toInt < 32768 := by omega
    simp only [hR, hrows', hcols', hfits, true_and, Nat.cast_one, and_self]
    exact and_left_comm
  · exact iff_of_false (fun hn => by omega) fun hn => hR hn.1

/-- A motion to the left or right; the column behind the last of 32768 is cast to a negative number. -/
theorem moveCol_all_iff {d : Int16} {P : Int → Prop} :
    (∃ s', (∀ b, s.moveCursor b 0 d = some s') ∧ P s'.cursorCol.toNat) ↔
      s.rows.toNat ≤ 32768 ∧ s.cols.toNat ≤ 32768 ∧
      (-32768 ≤ s.cursorCol.toInt16.toInt + d.toInt ∧ s.cursorCol.toInt16.toInt + d.toInt < 32768) ∧
      P (max 0 (min (s.cursorCol.toInt16.toInt + d.toInt) (s.cols.toNat - 1))) := by
  have hzero : (0 : Int16).toInt = 0 := rfl
  have hlo := s.cursorRow.toInt16.le_toInt
  have hhi := s.cursorRow.toInt16.toInt_lt
  have hfits : -32768 ≤ s.cursorRow.toInt16.toInt ∧ s.cursorRow.toInt16.toInt < 32768 := by omega
  have hrows' : s.rows.toNat - 1 < 32768 ↔ s.rows.toNat ≤ 32768 := by omega
  have hcols' : s.cols.toNat - 1 < 32768 ↔ s.cols.toNat ≤ 32768 := by omega
  rw [moveCursor_all_iff (P := fun _ col => P col), hzero, add_zero, Int.natCast_sub hcols, hrows', hcols']
  simp only [hfits, true_and, Nat.cast_one, and_self]
  rw [and_left_comm, and_left_comm (b := s.cols.toNat ≤ 32768)]

end Bounds

/-- The tabulator overflows only in the last eight columns of the widest screens. -/
theorem tab_all_iff : (∃ s', ∀ b, s.tab b = some s') ↔ s.cursorCol.toNat < 65528 := by
  have hstop : (s.cursorCol / 8).toNat = s.cursorCol.toNat / 8 := UInt16.toNat_div _ _
  have hcol := s.cursorCol.toNat_lt
  have hone : (1 : UInt16).toNat = 1 := rfl
  have height : (8 : UInt16).toNat = 8 := rfl
  obtain ⟨-, hnext⟩ := addU16_of_lt (b := .debug) (x := s.cursorCol / 8) (y := 1) (by omega)
  simp only [tab, addU16, mulU16, Option.bind_eq_bind, check_bind_all, hnext, hstop, hone, height]
  constructor
  · rintro ⟨s', -, hfits, -⟩
    omega
  · intro h
    exact ⟨_, by omega, by omega, fun _ => rfl⟩

end TerminalScreen

/-! ## The sequences -/

namespace TerminalPerformer

variable {s : TerminalScreen} {n : UInt16}

theorem toNat_count (n : UInt16) (params : Params) : (count (n :: params)).toNat = max n.toNat 1 := by
  rw [count, toNat_max]
  rfl

/-- A motion by the negated parameter, which no build stops in. -/
theorem neg_moves_iff {x : Int16} {Q : TerminalScreen → Prop} {move : Build → Int16 → Option TerminalScreen} :
    (∃ s', (∀ b, (negI16 b x).bind (move b) = some s') ∧ Q s') ↔
      x.toInt ≠ -32768 ∧ ∃ s', (∀ b, move b (-x) = some s') ∧ Q s' := by
  simp only [negI16, check_bind_all, and_assoc, exists_and_left]

/-- The cursor moves as the parameter `n` says, in exact integers and in every build, exactly if the screen has at most
32768 rows and columns and, for each direction, the numbers in play are small enough or their errors cancel out. The
tabulator is safe left of column 65528. -/
theorem csi_motion_saturates_iff {b₀ : Build} (hs : (screenMachine b₀).Reachable s) (hrows : 1 ≤ s.rows.toNat)
    (hcols : 1 ≤ s.cols.toNat) (n : UInt16) (params : Params) (intermediates : List UInt8) :
    let r := s.cursorRow.toNat
    let c := s.cursorCol.toNat
    let rows := s.rows.toNat
    let cols := s.cols.toNat
    let m := max n.toNat 1
    let csi := fun b action => csiDispatch b (n :: params) intermediates action s
    ((∃ s', (∀ b, csi b 'A' = some s') ∧ (s'.cursorRow.toNat : Int) = max ((r : Int) - m) 0) ↔
      rows ≤ 32768 ∧ cols ≤ 32768 ∧ (n.toNat ≤ 32767 ∨ rows = 1 ∧ n.toNat ≠ 32768)) ∧
    ((∃ s', (∀ b, csi b 'B' = some s') ∧ (s'.cursorRow.toNat : Int) = min ((r : Int) + m) (rows - 1)) ↔
      rows ≤ 32768 ∧ cols ≤ 32768 ∧ (n.toNat ≤ 32767 ∧ r + m ≤ 32767 ∨ n.toNat ≥ 32768 ∧ rows = 1)) ∧
    ((∃ s', (∀ b, csi b 'C' = some s') ∧ (s'.cursorCol.toNat : Int) = min ((c : Int) + m) (cols - 1)) ↔
      rows ≤ 32768 ∧ cols ≤ 32768 ∧ (n.toNat ≤ 32767 ∧ c + m ≤ 32767 ∨
        n.toNat ≥ 32768 ∧ c ≤ 32767 ∧ (cols = 1 ∨ c = cols ∧ n.toNat = 65535))) ∧
    ((∃ s', (∀ b, csi b 'D' = some s') ∧ (s'.cursorCol.toNat : Int) = max (min ((c : Int) - m) (cols - 1)) 0) ↔
      rows ≤ 32768 ∧ cols ≤ 32768 ∧ (n.toNat ≤ 32767 ∧ c ≤ 32767 ∨ n.toNat > 32768 ∧ c = 32768 ∨
        n.toNat > 32768 ∧ cols = 1 ∧ c + (65536 - n.toNat) ≤ 32767)) ∧
    ((∃ s', ∀ b, s.tab b = some s') ↔ c < 65528) := by
  have h := TerminalScreen.shape_of_reachable hs
  have hr := h.row
  have hc := h.col
  have hn := n.toNat_lt
  have hcol := toInt_toInt16 s.cursorCol
  have hcount := toInt_toInt16 (count (n :: params))
  rw [toNat_count] at hcount
  intro r c rows cols m csi
  refine ⟨?_, ?_, ?_, ?_, TerminalScreen.tab_all_iff⟩
  · refine (neg_moves_iff (Q := fun s' => (s'.cursorRow.toNat : Int) = max ((r : Int) - m) 0)).trans ?_
    rw [TerminalScreen.moveRow_all_iff hrows hcols h (P := fun row => row = max ((r : Int) - m) 0), and_left_comm,
      and_left_comm (b := s.cols.toNat ≤ 32768)]
    refine and_congr_right fun hR => and_congr_right fun _ => (and_congr_right fun hne => by rw [toInt_neg_of_ne hne]).trans ?_
    clear hcol hc
    split at hcount <;> omega
  · refine (TerminalScreen.moveRow_all_iff hrows hcols h (P := fun row => row = min ((r : Int) + m) (rows - 1))).trans ?_
    refine and_congr_right fun hR => and_congr_right fun _ => ?_
    clear hcol hc
    split at hcount <;> omega
  · refine (TerminalScreen.moveCol_all_iff hrows hcols (P := fun col => col = min ((c : Int) + m) (cols - 1))).trans ?_
    refine and_congr_right fun _ => and_congr_right fun hC => ?_
    clear hr
    split at hcol <;> split at hcount <;> omega
  · refine (neg_moves_iff (Q := fun s' => (s'.cursorCol.toNat : Int) = max (min ((c : Int) - m) (cols - 1)) 0)).trans ?_
    rw [TerminalScreen.moveCol_all_iff hrows hcols (P := fun col => col = max (min ((c : Int) - m) (cols - 1)) 0),
      and_left_comm, and_left_comm (b := s.cols.toNat ≤ 32768)]
    refine and_congr_right fun _ => and_congr_right fun hC => (and_congr_right fun hne => by rw [toInt_neg_of_ne hne]).trans ?_
    clear hr
    split at hcol <;> split at hcount <;> omega

/-- The theorem at an ordinary screen and parameter: three rows down from the first. -/
theorem csi_down_three : ∃ s', (∀ b, csiDispatch b [3] [] 'B' (.new 80 24) = some s') ∧ (s'.cursorRow.toNat : Int) = 3 := by
  have hs : (screenMachine .release).Reachable (.new 80 24) := .of_start ⟨80, 24, rfl⟩
  exact (csi_motion_saturates_iff hs (by decide) (by decide) 3 [] []).2.1.2 (by decide)

/-- On a screen of 24 rows, a debug build stops in a motion up by 32768 rows, and a motion down by 65535 rows ends one
row up. On a screen of 40000 rows every motion stops the program. -/
theorem csi_motion_failures :
    csiDispatch .debug [32768] [] 'A' (.new 80 24) = none ∧
    (∀ b, (csiDispatch b [65535] [] 'B' ((TerminalScreen.new 80 24).setCursorPos 5 0)).map TerminalScreen.cursorRow =
      some 4) ∧
    ∀ b, csiDispatch b [1] [] 'B' (.new 80 40000) = none := by
  refine ⟨by decide +kernel, fun b => ?_, fun b => ?_⟩ <;> cases b <;> decide +kernel

end TerminalPerformer

end Fortiq
