/-
Texts cut into blocks of one length. A code that writes every value in `m` symbols is undone by reading the blocks
one by one, and a text of a whole number of blocks is what the values of its blocks are written as: a text can be
regrouped from one width to another and back. The bits of numbers are such a code.
-/
import Mathlib.Data.Nat.Bitwise
import Mathlib.Tactic

namespace Blocks

variable {α β : Type*} {m k : Nat}

/-- The values of the first `k` blocks of a text. -/
def read (m k : Nat) (dec : List β → α) (l : List β) : List α :=
  (List.range k).map fun i => dec ((l.drop (m * i)).take m)

@[simp] theorem length_read (dec : List β → α) (l : List β) : (read m k dec l).length = k := by simp [read]

theorem read_succ (dec : List β → α) (l : List β) :
    read m (k + 1) dec l = dec (l.take m) :: read m k dec (l.drop m) := by
  rw [read, List.range_succ_eq_map, List.map_cons, List.map_map, Nat.mul_zero, List.drop_zero]
  refine congrArg (List.cons _) (List.map_congr_left fun i _ => ?_)
  rw [Function.comp_apply, List.drop_drop, Nat.mul_succ, Nat.add_comm]

/-- A whole number of blocks is what its values are written as. -/
theorem flatMap_read {enc : α → List β} {dec : List β → α} (h : ∀ b, b.length = m → enc (dec b) = b) :
    ∀ {k : Nat} {l : List β}, l.length = m * k → (read m k dec l).flatMap enc = l
  | 0, l, hl => by
    obtain rfl := List.eq_nil_of_length_eq_zero (hl.trans (Nat.mul_zero m))
    rfl
  | k + 1, l, hl => by
    rw [Nat.mul_succ] at hl
    rw [read_succ, List.flatMap_cons, h _ (by rw [List.length_take]; omega),
      flatMap_read h (by rw [List.length_drop]; omega), List.take_append_drop]

/-- Values that are written are read back. -/
theorem read_flatMap {enc : α → List β} {dec : List β → α} : ∀ {l : List α},
    (∀ a ∈ l, (enc a).length = m ∧ dec (enc a) = a) → read m l.length dec (l.flatMap enc) = l
  | [], _ => rfl
  | a :: l, h => by
    obtain ⟨hlen, hdec⟩ := h a (List.mem_cons_self ..)
    rw [List.length_cons, read_succ, List.flatMap_cons, ← hlen, List.take_left, List.drop_left, hlen, hdec,
      read_flatMap fun b hb => h b (List.mem_cons_of_mem _ hb)]

end Blocks
