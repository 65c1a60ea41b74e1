/-
Occurrences of a pattern in a text, and in a text that comes in parts: those within the parts, and those that lie
across a boundary between parts.
-/
import Mathlib.Data.List.Infix
import Mathlib.Tactic

namespace Occurrences

variable {α : Type*} [DecidableEq α] {p : List α}

/-- The slices of `n` items of a text, in order (`slice::windows`; `n` is positive). -/
def windows (n : Nat) : List α → List (List α)
  | [] => []
  | a :: l => if n ≤ (a :: l).length then (a :: l).take n :: windows n l else []

/-- The number of places of a text at which the pattern stands. -/
def occurrences (p : List α) : List α → Nat
  | [] => 0
  | a :: l => (if p <+: a :: l then 1 else 0) + occurrences p l

/-- The pattern stands across the boundary between two texts. -/
def Straddles (p l m : List α) : Prop := ∃ a b, a ≠ [] ∧ b ≠ [] ∧ p = a ++ b ∧ a <:+ l ∧ b <+: m

/-- The pattern stands across a boundary between two parts of a text. -/
def SplitAcross (p : List α) (parts : List (List α)) : Prop :=
  ∃ pre post, parts = pre ++ post ∧ Straddles p pre.flatten post.flatten

/-! ## Windows -/

theorem occurrences_eq_zero_of_short (p : List α) : ∀ {l : List α}, l.length < p.length → occurrences p l = 0
  | [], _ => rfl
  | a :: l, h => by
    rw [occurrences, if_neg fun hp => absurd hp.length_le (Nat.not_le.2 h),
      occurrences_eq_zero_of_short p (Nat.lt_of_succ_lt h)]

/-- The pattern occurs in a text as often as it is one of its windows. -/
theorem count_windows (p : List α) : ∀ l : List α, (windows p.length l).count p = occurrences p l
  | [] => rfl
  | a :: l => by
    unfold windows
    split
    · have hfirst : ((a :: l).take p.length == p) = true ↔ p <+: a :: l := by
        rw [beq_iff_eq, eq_comm, List.prefix_iff_eq_take]
      rw [List.count_cons, count_windows p l, occurrences, Nat.add_comm]
      simp only [hfirst]
    · rename_i hlt
      exact (occurrences_eq_zero_of_short p (Nat.not_le.1 hlt)).symm

theorem any_windows (p l : List α) : (windows p.length l).any (· == p) = true ↔ 0 < occurrences p l := by
  rw [← count_windows, List.count_pos_iff, List.any_eq_true]
  simp only [beq_iff_eq, exists_eq_right]

/-! ## Texts in parts -/

/-- The number of places of `l` at which the pattern stands and ends only in `m`. -/
def straddling (p : List α) : List α → List α → Nat
  | [], _ => 0
  | a :: l, m => (if p <+: a :: l ++ m ∧ ¬ p <+: a :: l then 1 else 0) + straddling p l m

theorem occurrences_append (p : List α) : ∀ l m : List α,
    occurrences p (l ++ m) = occurrences p l + straddling p l m + occurrences p m
  | [], m => by simp [occurrences, straddling]
  | a :: l, m => by
    have hmono : p <+: a :: l → p <+: a :: l ++ m := fun h => h.trans (List.prefix_append _ _)
    rw [List.cons_append, occurrences, occurrences_append p l m, occurrences, straddling, ← List.cons_append]
    by_cases h₁ : p <+: a :: l
    · simp only [h₁, hmono h₁, not_true, and_false, if_true, if_false]; omega
    · by_cases h₂ : p <+: a :: l ++ m
      · simp only [h₁, h₂, not_false_iff, and_true, if_true, if_false]; omega
      · simp only [h₁, h₂, false_and, if_false]; omega

omit [DecidableEq α] in
/-- The pattern stands at the start of `l ++ m` and ends in `m`. -/
theorem prefix_append_not_prefix_iff {l m : List α} :
    (p <+: l ++ m ∧ ¬ p <+: l) ↔ ∃ b, b ≠ [] ∧ p = l ++ b ∧ b <+: m := by
  constructor
  · rintro ⟨h, hn⟩
    rcases List.prefix_or_prefix_of_prefix h (List.prefix_append l m) with hp | ⟨b, rfl⟩
    · exact absurd hp hn
    · refine ⟨b, ?_, rfl, (List.prefix_append_right_inj l).1 h⟩
      rintro rfl
      exact hn (by simp)
  · rintro ⟨b, hb, rfl, hm⟩
    refine ⟨(List.prefix_append_right_inj l).2 hm, fun hle => hb ?_⟩
    have hlen := hle.length_le
    rw [List.length_append] at hlen
    exact List.eq_nil_of_length_eq_zero (by omega)

theorem straddling_pos_iff (p : List α) : ∀ l m : List α, 0 < straddling p l m ↔ Straddles p l m
  | [], m => by
    refine ⟨nofun, ?_⟩
    rintro ⟨a, b, ha, -, -, hsuf, -⟩
    exact absurd (List.suffix_nil.1 hsuf) ha
  | c :: l, m => by
    have hstart : (0 < if p <+: c :: l ++ m ∧ ¬ p <+: c :: l then 1 else 0) ↔
        ∃ b, b ≠ [] ∧ p = c :: l ++ b ∧ b <+: m := by
      rw [← prefix_append_not_prefix_iff]
      split
      · exact iff_of_true Nat.one_pos ‹_›
      · exact iff_of_false (Nat.lt_irrefl 0) ‹_›
    rw [straddling, Nat.add_pos_iff_pos_or_pos, straddling_pos_iff p l m, hstart]
    constructor
    · rintro (⟨b, hb, hp, hpre⟩ | ⟨a, b, ha, hb, hp, hsuf, hpre⟩)
      · exact ⟨c :: l, b, List.cons_ne_nil _ _, hb, hp, List.suffix_refl _, hpre⟩
      · exact ⟨a, b, ha, hb, hp, List.suffix_cons_iff.2 (.inr hsuf), hpre⟩
    · rintro ⟨a, b, ha, hb, hp, hsuf, hpre⟩
      rcases List.suffix_cons_iff.1 hsuf with rfl | hsuf
      · exact .inl ⟨b, hb, hp, hpre⟩
      · exact .inr ⟨a, b, ha, hb, hp, hsuf, hpre⟩

omit [DecidableEq α] in
/-- What stands across a boundary starts in the first part and ends behind it, or lies in the parts behind it. -/
theorem splitAcross_cons {c : List α} {parts : List (List α)} :
    SplitAcross p (c :: parts) ↔ Straddles p c parts.flatten ∨ SplitAcross p parts := by
  constructor
  · rintro ⟨pre, post, hparts, a, b, ha, hb, hp, hsuf, hpre⟩
    rcases List.cons_eq_append_iff.1 hparts with ⟨rfl, -⟩ | ⟨pre', rfl, rfl⟩
    · exact absurd (List.suffix_nil.1 hsuf) ha
    · rw [List.flatten_cons] at hsuf
      rcases List.suffix_or_suffix_of_suffix hsuf (List.suffix_append c pre'.flatten) with hin | ⟨a', rfl⟩
      · exact .inr ⟨pre', post, rfl, a, b, ha, hb, hp, hin, hpre⟩
      · by_cases ha' : a' = []
        · subst ha'
          exact .inr ⟨pre', post, rfl, pre'.flatten, b, by simpa using ha, hb, by simpa using hp, List.suffix_refl _, hpre⟩
        · refine .inl ⟨a', pre'.flatten ++ b, ha', by simp [hb], by rw [hp, List.append_assoc], ?_, ?_⟩
          · obtain ⟨x, hx⟩ := hsuf
            exact ⟨x, List.append_cancel_right (by rw [List.append_assoc]; exact hx)⟩
          · rw [List.flatten_append]
            exact (List.prefix_append_right_inj _).2 hpre
  · rintro (⟨a, b, ha, hb, hp, hsuf, hpre⟩ | ⟨pre, post, rfl, a, b, ha, hb, hp, hsuf, hpre⟩)
    · exact ⟨[c], parts, rfl, a, b, ha, hb, hp, by simpa using hsuf, hpre⟩
    · refine ⟨c :: pre, post, rfl, a, b, ha, hb, hp, ?_, hpre⟩
      rw [List.flatten_cons]
      exact hsuf.trans (List.suffix_append _ _)

/-- The occurrences in a text are those in its parts exactly if none stands across a boundary; otherwise they are more. -/
theorem sum_occurrences (p : List α) : ∀ parts : List (List α),
    (parts.map (occurrences p)).sum ≤ occurrences p parts.flatten ∧
      ((parts.map (occurrences p)).sum = occurrences p parts.flatten ↔ ¬ SplitAcross p parts)
  | [] => by
    refine ⟨le_rfl, iff_of_true rfl ?_⟩
    rintro ⟨pre, post, hparts, a, b, ha, -, -, hsuf, -⟩
    obtain ⟨rfl, -⟩ := List.append_eq_nil_iff.1 hparts.symm
    exact ha (List.suffix_nil.1 hsuf)
  | c :: parts => by
    obtain ⟨hle, heq⟩ := sum_occurrences p parts
    rw [List.map_cons, List.sum_cons, List.flatten_cons, occurrences_append, splitAcross_cons, not_or, ← heq,
      ← straddling_pos_iff]
    constructor <;> omega

end Occurrences
