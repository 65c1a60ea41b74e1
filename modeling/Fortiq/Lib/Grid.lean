/-
Grids of cells as lists of rows: blank ones, and the operations that write, blank or shift cells, or change the size.
All but the last keep the number of rows and columns.
-/
import Mathlib.Data.List.Basic
import Mathlib.Tactic

namespace Grid

variable {α : Type}

/-- So many rows of so many cells. -/
def Shaped (rows cols : Nat) (buf : List (List α)) : Prop := buf.length = rows ∧ ∀ row ∈ buf, row.length = cols

/-! ## Rows -/

/-- `Vec::resize`. -/
def resizeRow (n : Nat) (x : α) (l : List α) : List α := l.take n ++ List.replicate (n - l.length) x

/-- `slice::fill`. -/
def fill (x : α) (l : List α) : List α := l.map fun _ => x

/-- All but the first `n` items replaced. -/
def fillFrom (n : Nat) (x : α) (l : List α) : List α := l.take n ++ fill x (l.drop n)

/-- The first `n` items replaced. -/
def fillTo (n : Nat) (x : α) (l : List α) : List α := fill x (l.take n) ++ l.drop n

@[simp] theorem length_resizeRow (n : Nat) (x : α) (l : List α) : (resizeRow n x l).length = n := by
  rw [resizeRow, List.length_append, List.length_take, List.length_replicate]
  omega

@[simp] theorem length_fill (x : α) (l : List α) : (fill x l).length = l.length := List.length_map ..

@[simp] theorem length_fillFrom (n : Nat) (x : α) (l : List α) : (fillFrom n x l).length = l.length := by
  rw [fillFrom, List.length_append, length_fill, List.length_take, List.length_drop]
  omega

@[simp] theorem length_fillTo (n : Nat) (x : α) (l : List α) : (fillTo n x l).length = l.length := by
  rw [fillTo, List.length_append, length_fill, List.length_take, List.length_drop]
  omega

/-! ## Grids -/

def blank (x : α) (rows cols : Nat) : List (List α) := List.replicate rows (List.replicate cols x)

def resize (x : α) (rows cols : Nat) (buf : List (List α)) : List (List α) :=
  (resizeRow rows (List.replicate cols x) buf).map (resizeRow cols x)

/-- The first row goes, a blank one comes at the end; an empty grid stays. -/
def scroll (x : α) (cols : Nat) : List (List α) → List (List α)
  | [] => []
  | _ :: buf => buf ++ [List.replicate cols x]

/-- The cell at a place, if there is one. -/
def cellAt (buf : List (List α)) (r c : Nat) : Option α := buf[r]?.bind fun row => row[c]?

/-- Write a cell; outside of the grid nothing is written. -/
def put (x : α) (r c : Nat) (buf : List (List α)) : List (List α) :=
  if r < buf.length ∧ c < (buf.getD r []).length then buf.modify r fun row => row.set c x else buf

section Shaped

variable {rows cols : Nat} {buf : List (List α)}

theorem shaped_blank (x : α) (rows cols : Nat) : Shaped rows cols (blank x rows cols) := by
  refine ⟨List.length_replicate .., fun row hrow => ?_⟩
  rw [List.eq_of_mem_replicate hrow, List.length_replicate]

theorem shaped_resize (x : α) (rows cols : Nat) (buf : List (List α)) : Shaped rows cols (resize x rows cols buf) := by
  refine ⟨by rw [resize, List.length_map, length_resizeRow], fun row hrow => ?_⟩
  obtain ⟨row, -, rfl⟩ := List.mem_map.1 hrow
  exact length_resizeRow ..

/-- Only the lengths of the rows count. -/
theorem Shaped.of_lengths {buf' : List (List α)} (h : Shaped rows cols buf)
    (heq : buf'.map List.length = buf.map List.length) : Shaped rows cols buf' := by
  constructor
  · have hlen := congrArg List.length heq
    rw [List.length_map, List.length_map] at hlen
    rw [hlen, h.1]
  · intro row hrow
    have hmem : row.length ∈ buf.map List.length := heq ▸ List.mem_map_of_mem hrow
    obtain ⟨row', hrow', hlen⟩ := List.mem_map.1 hmem
    rw [← hlen, h.2 row' hrow']

section Rows

variable {f : List α → List α} (hf : ∀ row, (f row).length = row.length)

include hf

theorem lengths_map (buf : List (List α)) : (buf.map f).map List.length = buf.map List.length := by
  rw [List.map_map]
  exact List.map_congr_left fun row _ => hf row

theorem Shaped.map (h : Shaped rows cols buf) : Shaped rows cols (buf.map f) :=
  h.of_lengths (lengths_map hf buf)

theorem Shaped.map_drop (h : Shaped rows cols buf) (n : Nat) : Shaped rows cols (buf.take n ++ (buf.drop n).map f) :=
  h.of_lengths (by rw [List.map_append, lengths_map hf, ← List.map_append, List.take_append_drop])

theorem Shaped.map_take (h : Shaped rows cols buf) (n : Nat) : Shaped rows cols ((buf.take n).map f ++ buf.drop n) :=
  h.of_lengths (by rw [List.map_append, lengths_map hf, ← List.map_append, List.take_append_drop])

theorem Shaped.modify (h : Shaped rows cols buf) (r : Nat) : Shaped rows cols (buf.modify r f) := by
  refine h.of_lengths (List.ext_getElem (by simp) fun i _ _ => ?_)
  rw [List.getElem_map, List.getElem_map, List.getElem_modify]
  split
  · exact hf _
  · rfl

end Rows

theorem Shaped.scroll (h : Shaped rows cols buf) (x : α) : Shaped rows cols (scroll x cols buf) := by
  cases buf with
  | nil => exact h
  | cons row buf =>
    refine ⟨by rw [Grid.scroll, List.length_append]; exact h.1, fun row hrow => ?_⟩
    rcases List.mem_append.1 hrow with hrow | hrow
    · exact h.2 row (List.mem_cons_of_mem _ hrow)
    · rw [List.mem_singleton.1 hrow, List.length_replicate]

theorem Shaped.put (h : Shaped rows cols buf) (x : α) (r c : Nat) : Shaped rows cols (put x r c buf) := by
  unfold Grid.put
  split
  · exact h.modify (fun row => List.length_set) r
  · exact h

/-- A cell within the grid is written. -/
theorem Shaped.cellAt_put (h : Shaped rows cols buf) (x : α) {r c : Nat} (hr : r < rows) (hc : c < cols) :
    cellAt (Grid.put x r c buf) r c = some x := by
  have hlen : r < buf.length := by rw [h.1]; exact hr
  have hrow : (buf.getD r []).length = cols := by
    rw [List.getD_eq_getElem?_getD, List.getElem?_eq_getElem hlen]
    exact h.2 _ (List.getElem_mem _)
  rw [Grid.put, if_pos ⟨hlen, by rw [hrow]; exact hc⟩, cellAt]
  rw [List.getElem?_modify, List.getElem?_eq_getElem hlen]
  have hc' : c < (buf[r]).length := by rw [h.2 _ (List.getElem_mem _)]; exact hc
  simp [hc']

end Shaped

end Grid
