/-
Encodings that mark their own end: from a text that begins with the encoding of a value, the value and the rest of
the text can be read off. Fixed widths and length prefixes do, so a record written field by field is read back field
by field; and texts that begin differently are different.
-/
import Mathlib.Data.Set.Function
import Mathlib.Tactic

variable {α β : Type}

/-- A text beginning with the encoding of a value in `S` determines the value and the rest. -/
def DelimitsOn (S : Set α) (enc : α → List β) : Prop :=
  ∀ a ∈ S, ∀ b ∈ S, ∀ x y, enc a ++ x = enc b ++ y → a = b ∧ x = y

namespace DelimitsOn

variable {S : Set α} {enc : α → List β}

/-- Values of one width, told apart by their encodings. -/
theorem of_length {n : Nat} (hlen : ∀ a, (enc a).length = n) (hinj : Set.InjOn enc S) : DelimitsOn S enc := by
  intro a ha b hb x y h
  obtain ⟨hab, hxy⟩ := List.append_inj h (by rw [hlen, hlen])
  exact ⟨hinj ha hb hab, hxy⟩

theorem injOn (h : DelimitsOn S enc) : Set.InjOn enc S := fun _ ha _ hb hab =>
  (h _ ha _ hb [] [] (by rw [hab])).1

/-- A list after its length. -/
theorem length_first {N : Nat} {num : Nat → List β} (h : DelimitsOn {n | n < N} num) :
    DelimitsOn {l : List β | l.length < N} (fun l => num l.length ++ l) := by
  intro a ha b hb x y hab
  simp only [List.append_assoc] at hab
  obtain ⟨hlen, hrest⟩ := h _ ha _ hb _ _ hab
  exact List.append_inj hrest hlen

end DelimitsOn

/-- Of two beginnings of one text, one begins with the other. -/
theorem begins_of_append_eq {p q x y : List β} (h : p ++ x = q ++ y) : p <+: q ∨ q <+: p :=
  List.prefix_or_prefix_of_prefix (List.prefix_append p x) (h ▸ List.prefix_append q y)

/-- Numbers of at most `k` digits are told apart by their digits. -/
theorem eq_of_digits {b : Nat} (hb : 0 < b) : ∀ {k n m : Nat}, n < b ^ k → m < b ^ k →
    (∀ i < k, n / b ^ i % b = m / b ^ i % b) → n = m
  | 0, n, m, hn, hm, _ => by simp at hn hm; omega
  | k + 1, n, m, hn, hm, h => by
    -- the last digit and the number before it
    have hlast : n % b = m % b := by simpa using h 0 (by omega)
    have hinit : n / b = m / b := by
      refine eq_of_digits hb (k := k) (Nat.div_lt_of_lt_mul ?_) (Nat.div_lt_of_lt_mul ?_) fun i hi => ?_
      · rwa [mul_comm, ← pow_succ]
      · rwa [mul_comm, ← pow_succ]
      · simpa [Nat.div_div_eq_div_mul, ← pow_succ'] using h (i + 1) (by omega)
    rw [← Nat.div_add_mod n b, ← Nat.div_add_mod m b, hlast, hinit]
