/-
CBOR with definite lengths as a grammar over bytes. A head gives a major type and a number, in its first byte or in the
one, two, four or eight bytes after it; the two say what follows the head. Items contain items, to a depth that is
bounded.
-/
import Mathlib.Data.List.Basic
import Mathlib.Tactic

namespace Cbor

/-! ## Texts one after another -/

section Sequence

variable {β : Type} {P : List β → Prop} {k : Nat} {a l : List β}

/-- `k` texts of a language. -/
inductive Sequence (P : List β → Prop) : Nat → List β → Prop
  | nil : Sequence P 0 []
  | cons {k : Nat} {a l : List β} (head : P a) (tail : Sequence P k l) : Sequence P (k + 1) (a ++ l)

theorem Sequence.one (h : P a) : Sequence P 1 a := by
  simpa only [List.append_nil] using Sequence.cons h .nil

theorem Sequence.count_le_length (hne : ∀ a, P a → a ≠ []) (h : Sequence P k l) : k ≤ l.length := by
  induction h with
  | nil => exact le_rfl
  | cons ha _ ih =>
    have := List.length_pos_of_ne_nil (hne _ ha)
    rw [List.length_append]
    omega

/-- A text that begins with `a` and goes on with `b`, somewhere in a longer one. -/
theorem append_prefix_drop {b : List β} {c : Nat} :
    a ++ b <+: l.drop c ↔ a <+: l.drop c ∧ b <+: l.drop (c + a.length) := by
  constructor
  · rintro ⟨x, hx⟩
    refine ⟨⟨b ++ x, by rw [← hx, List.append_assoc]⟩, x, ?_⟩
    rw [← List.drop_drop, ← hx, List.append_assoc, List.drop_left]
  · rintro ⟨⟨y, hy⟩, x, hx⟩
    rw [← List.drop_drop, ← hy, List.drop_left] at hx
    exact ⟨x, by rw [List.append_assoc, hx, hy]⟩

theorem prefix_drop_length {c : Nat} (hc : c ≤ l.length) (h : a <+: l.drop c) : c + a.length ≤ l.length := by
  have := h.length_le
  rw [List.length_drop] at this
  omega

end Sequence

/-! ## Items -/

/-- The number that bytes write in base 256, the first byte the most significant. -/
def beValue (l : List UInt8) : Nat := l.foldl (fun n b => n * 256 + b.toNat) 0

/-- The bytes after the first byte of a head whose additional information is `info`, and the number they give. -/
inductive Extra (info : Nat) : List UInt8 → Nat → Prop
  | short (h : info < 24) : Extra info [] info
  | long {j : Nat} {l : List UInt8} (hj : j < 4) (h : info = 24 + j) (hl : l.length = 2 ^ j) : Extra info l (beValue l)

/-- What follows a head with this major type and number, where `P` are the items inside. -/
inductive Content (P : List UInt8 → Prop) : Nat → Nat → List UInt8 → Prop
  | unsigned {val : Nat} : Content P 0 val []
  | negative {val : Nat} : Content P 1 val []
  | bytes {l : List UInt8} : Content P 2 l.length l
  | text {l : List UInt8} : Content P 3 l.length l
  | array {val : Nat} {l : List UInt8} (h : Sequence P val l) : Content P 4 val l
  | map {val : Nat} {l : List UInt8} (h : Sequence P (2 * val) l) : Content P 5 val l
  | tag {val : Nat} {l : List UInt8} (h : P l) : Content P 6 val l
  | simple {val : Nat} : Content P 7 val []

/-- One item: the three upper bits of the first byte are the major type, the others the additional information. -/
inductive Node (P : List UInt8 → Prop) : List UInt8 → Prop
  | mk {b : UInt8} {extra body : List UInt8} {val : Nat} (head : Extra (b.toNat % 32) extra val)
      (content : Content P (b.toNat / 32) val body) : Node P (b :: (extra ++ body))

/-- The items that have at most `n` levels, the outermost one counted. -/
def Item : Nat → List UInt8 → Prop
  | 0 => fun _ => False
  | n + 1 => Node (Item n)

theorem Item.ne_nil : ∀ {n : Nat} {a : List UInt8}, Item n a → a ≠ []
  | _ + 1, _, .mk _ _ => List.cons_ne_nil _ _

end Cbor
