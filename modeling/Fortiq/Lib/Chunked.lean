/-
Sources that deliver their items in chunks of any size, and the loop that reads an exact number of items from one.
What the loop returns depends on the items to come alone, not on the chunks they come in.
-/
import Mathlib.Data.List.Basic

namespace Chunked

/-- What one arrival brings: at least one item. -/
abbrev Chunk (α : Type) := { l : List α // l ≠ [] }

section Items

variable {α : Type}

/-- The items of some chunks, in order. -/
def items : List (Chunk α) → List α
  | [] => []
  | c :: chunks => c.1 ++ items chunks

@[simp] theorem items_cons (c : Chunk α) (chunks : List (Chunk α)) : items (c :: chunks) = c.1 ++ items chunks := rfl

/-- The items one by one. -/
def singles (l : List α) : List (Chunk α) := l.map fun a => ⟨[a], List.cons_ne_nil a []⟩

@[simp] theorem items_singles (l : List α) : items (singles l) = l := by
  induction l with
  | nil => rfl
  | cons a l ih => exact congrArg (a :: ·) ih

end Items

/-- The chunks to come, and the error behind them where the source does not simply end. -/
structure Source (α ε : Type) where
  chunks : List (Chunk α)
  stop : Option ε

namespace Source

variable {α ε : Type}

theorem drop_ne_nil {l : List α} {n : Nat} (h : n < l.length) : l.drop n ≠ [] :=
  fun hnil => absurd (List.drop_eq_nil_iff.1 hnil) (Nat.not_le.2 h)

/-- The loop behind `readExact`. Each turn is one read: it takes what the first chunk has, up to what is still
wanted; at the end of the source nothing comes. -/
def fill (eof : ε) : Nat → List (Chunk α) → Except ε (List α) × List (Chunk α)
  | 0, chunks => (.ok [], chunks)
  | _ + 1, [] => (.error eof, [])
  | n + 1, c :: chunks =>
    if h : n + 1 < c.1.length then (.ok (c.1.take (n + 1)), ⟨c.1.drop (n + 1), drop_ne_nil h⟩ :: chunks)
    else
      match fill eof (n + 1 - c.1.length) chunks with
      | (.ok l, left) => (.ok (c.1 ++ l), left)
      | (.error e, left) => (.error e, left)

/-- Read exactly `n` items; fewer are an error, `eof` where the source simply ends. -/
def readExact (eof : ε) (n : Nat) (s : Source α ε) : Except ε (List α) × Source α ε :=
  let r := fill (s.stop.getD eof) n s.chunks
  (r.1, { s with chunks := r.2 })

theorem fill_ok (eof : ε) : ∀ {n : Nat} {chunks : List (Chunk α)}, n ≤ (items chunks).length →
    ∃ left, fill eof n chunks = (.ok ((items chunks).take n), left) ∧ items left = (items chunks).drop n
  | 0, chunks, _ => ⟨chunks, by cases chunks <;> rfl, rfl⟩
  | n + 1, c :: chunks, h => by
    rw [items_cons, List.length_append] at h
    unfold fill
    split
    · rename_i hlt
      refine ⟨⟨c.1.drop (n + 1), drop_ne_nil hlt⟩ :: chunks, ?_, ?_⟩
      · rw [items_cons, List.take_append_of_le_length (Nat.le_of_lt hlt)]
      · rw [items_cons, items_cons, List.drop_append_of_le_length (Nat.le_of_lt hlt)]
    · rename_i hge
      have hrest : n + 1 - c.1.length ≤ (items chunks).length := by omega
      obtain ⟨left, hfill, hleft⟩ := fill_ok eof hrest
      refine ⟨left, ?_, ?_⟩
      · have hwhole : c.1.take (n + 1) = c.1 := List.take_of_length_le (by omega)
        rw [hfill, items_cons, List.take_append, hwhole]
      · have hwhole : c.1.drop (n + 1) = [] := List.drop_of_length_le (by omega)
        rw [hleft, items_cons, List.drop_append, hwhole, List.nil_append]

theorem fill_short (eof : ε) : ∀ {n : Nat} {chunks : List (Chunk α)}, (items chunks).length < n →
    fill eof n chunks = (.error eof, [])
  | n + 1, [], _ => rfl
  | n + 1, c :: chunks, h => by
    rw [items_cons, List.length_append] at h
    rw [fill, dif_neg (by omega), fill_short eof (by omega)]

variable (eof : ε) {n : Nat}

theorem readExact_ok {s : Source α ε} (h : n ≤ (items s.chunks).length) :
    ∃ left, s.readExact eof n = (.ok ((items s.chunks).take n), { s with chunks := left }) ∧
      items left = (items s.chunks).drop n := by
  obtain ⟨left, hfill, hleft⟩ := fill_ok (s.stop.getD eof) h
  exact ⟨left, by rw [readExact, hfill], hleft⟩

theorem readExact_short {s : Source α ε} (h : (items s.chunks).length < n) :
    s.readExact eof n = (.error (s.stop.getD eof), { s with chunks := [] }) := by
  rw [readExact, fill_short _ h]

end Source

end Chunked
