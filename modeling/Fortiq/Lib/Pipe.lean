/-
A one-way stream between a writer and a reader: what has been written, and how much of it has been read. The reader has
a part of what was written, in order and without gaps; a window bounds what is on its way.
-/
import Mathlib.Data.List.Basic
import Mathlib.Tactic

structure Pipe (β : Type) where
  sent : List β
  taken : Nat
  le : taken ≤ sent.length

namespace Pipe

variable {β : Type}

def empty : Pipe β := ⟨[], 0, le_rfl⟩

/-- What the reader has got. -/
def got (p : Pipe β) : List β := p.sent.take p.taken

/-- What is on its way. -/
def waiting (p : Pipe β) : List β := p.sent.drop p.taken

def push (p : Pipe β) (content : List β) : Pipe β :=
  ⟨p.sent ++ content, p.taken, by rw [List.length_append]; have := p.le; omega⟩

/-- The next items that arrive, no more than wanted. -/
def next (p : Pipe β) (n : Nat) : List β := p.waiting.take n

def pull (p : Pipe β) (n : Nat) : Pipe β := ⟨p.sent, min (p.taken + n) p.sent.length, min_le_right _ _⟩

/-- The window has room for so many more. -/
def Room (window : Nat) (p : Pipe β) (n : Nat) : Prop := p.waiting.length + n ≤ window

instance (window : Nat) (p : Pipe β) (n : Nat) : Decidable (p.Room window n) :=
  inferInstanceAs (Decidable (_ ≤ _))

variable {p : Pipe β} {content : List β} {n : Nat}

@[simp] theorem sent_push (p : Pipe β) (content : List β) : (p.push content).sent = p.sent ++ content := rfl

@[simp] theorem sent_pull (p : Pipe β) (n : Nat) : (p.pull n).sent = p.sent := rfl

theorem got_append_waiting (p : Pipe β) : p.got ++ p.waiting = p.sent := List.take_append_drop _ _

theorem got_prefix (p : Pipe β) : p.got <+: p.sent := List.take_prefix _ _

theorem length_waiting (p : Pipe β) : p.waiting.length = p.sent.length - p.taken := List.length_drop

/-- Writing does not change what has been read. -/
@[simp] theorem got_push (p : Pipe β) (content : List β) : (p.push content).got = p.got :=
  List.take_append_of_le_length p.le

theorem got_pull (p : Pipe β) (n : Nat) : (p.pull n).got = p.got ++ p.next n := by
  have htake : p.sent.take (min (p.taken + n) p.sent.length) = p.sent.take (p.taken + n) := by
    rw [← List.take_take, List.take_length]
  show p.sent.take (min (p.taken + n) p.sent.length) = p.sent.take p.taken ++ (p.sent.drop p.taken).take n
  rw [htake, List.take_add]

@[simp] theorem waiting_empty : (empty : Pipe β).waiting = [] := rfl

@[simp] theorem waiting_push (p : Pipe β) (content : List β) : (p.push content).waiting = p.waiting ++ content :=
  List.drop_append_of_le_length p.le

theorem waiting_pull (h : n ≤ p.waiting.length) : (p.pull n).waiting = p.waiting.drop n := by
  have hle := p.le
  rw [length_waiting] at h
  have htaken : min (p.taken + n) p.sent.length = p.taken + n := by omega
  show p.sent.drop (min (p.taken + n) p.sent.length) = (p.sent.drop p.taken).drop n
  rw [htaken, List.drop_drop]

theorem pull_pull (p : Pipe β) (m n : Nat) : (p.pull m).pull n = p.pull (m + n) := by
  have hle := p.le
  have htaken : min (min (p.taken + m) p.sent.length + n) p.sent.length = min (p.taken + (m + n)) p.sent.length := by omega
  simp only [pull, htaken]

theorem length_next (h : n ≤ p.waiting.length) : (p.next n).length = n := by
  rw [next, List.length_take]
  exact min_eq_left h

end Pipe
