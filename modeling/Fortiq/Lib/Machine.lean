/-
State machines with labelled steps. What a step does is a function of the state and the label, and which steps
are possible is a guard; everything the outside decides (a message, a clock reading, a failing write) is part of
the label, so that a property of all runs is a property of all interleavings. What every step keeps holds in
every reachable state.
-/
import Mathlib.Logic.Relation
import Mathlib.Tactic

structure Machine (σ α : Type) where
  /-- The states a run starts in. -/
  start : σ → Prop
  /-- The label is possible in the state. -/
  enabled : σ → α → Prop
  step : σ → α → σ

namespace Machine

variable {σ α : Type} {M : Machine σ α} {s t : σ}

/-- A run from one state to another. -/
inductive Run (M : Machine σ α) (s : σ) : σ → Prop
  | refl : Run M s s
  | tail {t : σ} (h : Run M s t) (a : α) (ha : M.enabled t a) : Run M s (M.step t a)

/-- The states of all runs. -/
def Reachable (M : Machine σ α) (s : σ) : Prop := ∃ s₀, M.start s₀ ∧ M.Run s₀ s

theorem Reachable.of_start (h : M.start s) : M.Reachable s := ⟨s, h, .refl⟩

theorem Reachable.step (h : M.Reachable s) {a : α} (ha : M.enabled s a) : M.Reachable (M.step s a) := by
  obtain ⟨s₀, h₀, hr⟩ := h
  exact ⟨s₀, h₀, hr.tail a ha⟩

/-- What every step keeps, a run keeps. -/
theorem Run.keeps {I : σ → Prop} (hstep : ∀ s a, M.enabled s a → I s → I (M.step s a)) (hr : M.Run s t) (h : I s) : I t := by
  induction hr with
  | refl => exact h
  | tail _ a ha ih => exact hstep _ a ha ih

/-- What holds at the start and every step keeps, holds in every reachable state. -/
theorem Reachable.invariant {I : σ → Prop} (hstart : ∀ s, M.start s → I s)
    (hstep : ∀ s a, M.enabled s a → I s → I (M.step s a)) (h : M.Reachable s) : I s := by
  obtain ⟨s₀, h₀, hr⟩ := h
  exact hr.keeps hstep (hstart s₀ h₀)

/-- The state after a list of steps. -/
def after (M : Machine σ α) : σ → List α → σ
  | s, [] => s
  | s, a :: l => M.after (M.step s a) l

/-- Each step of the list is possible where it is taken. -/
def Allows (M : Machine σ α) : σ → List α → Prop
  | _, [] => True
  | s, a :: l => M.enabled s a ∧ M.Allows (M.step s a) l

instance decidableAllows [∀ s a, Decidable (M.enabled s a)] : ∀ (s : σ) (l : List α), Decidable (M.Allows s l)
  | _, [] => inferInstanceAs (Decidable True)
  | s, a :: l =>
    have : Decidable (M.Allows (M.step s a) l) := decidableAllows (M.step s a) l
    inferInstanceAs (Decidable (M.enabled s a ∧ M.Allows (M.step s a) l))

theorem Run.after {s₀ : σ} : ∀ {s : σ} (l : List α), M.Run s₀ s → M.Allows s l → M.Run s₀ (M.after s l)
  | _, [], h, _ => h
  | _, a :: l, h, hl => Run.after l (h.tail a hl.1) hl.2

theorem Reachable.after (l : List α) (h : M.Reachable s) (hl : M.Allows s l) : M.Reachable (M.after s l) := by
  obtain ⟨s₀, h₀, hr⟩ := h
  exact ⟨s₀, h₀, hr.after l hl⟩

/-- Steps that use up a part of a measure, among others that leave it, are no more than the measure. -/
theorem countP_le {I : σ → Prop} (measure : σ → Nat) (moves : α → Bool)
    (hstep : ∀ s a, M.enabled s a → I s → I (M.step s a) ∧ measure (M.step s a) + (moves a).toNat ≤ measure s) :
    ∀ {s : σ} (l : List α), I s → M.Allows s l → l.countP moves + measure (M.after s l) ≤ measure s
  | _, [], _, _ => by simp [after]
  | s, a :: l, hs, hl => by
    obtain ⟨hI, hle⟩ := hstep s a hl.1 hs
    have ih := countP_le measure moves hstep l hI hl.2
    have hcount : (a :: l).countP moves = l.countP moves + (moves a).toNat := by
      rw [List.countP_cons]
      cases moves a <;> rfl
    rw [hcount, after]
    omega

/-- The machine whose steps all meet a condition. -/
def restrict (M : Machine σ α) (C : σ → α → Prop) : Machine σ α :=
  { M with enabled := fun s a => M.enabled s a ∧ C s a }

instance {C : σ → α → Prop} [∀ s a, Decidable (M.enabled s a)] [∀ s a, Decidable (C s a)] (s : σ) (a : α) :
    Decidable ((M.restrict C).enabled s a) := inferInstanceAs (Decidable (M.enabled s a ∧ C s a))

theorem Reachable.of_restrict {C : σ → α → Prop} (h : (M.restrict C).Reachable s) : M.Reachable s := by
  obtain ⟨s₀, h₀, hr⟩ := h
  refine ⟨s₀, h₀, ?_⟩
  induction hr with
  | refl => exact .refl
  | tail _ a ha ih => exact ih.tail a ha.1

theorem after_restrict {C : σ → α → Prop} : ∀ (s : σ) (l : List α), (M.restrict C).after s l = M.after s l
  | _, [] => rfl
  | s, a :: l => after_restrict (M.step s a) l

/-! ## Partial steps -/

section Partial

variable {start : σ → Prop} {next : σ → α → Option σ} {s' : σ} {a : α}

/-- The machine of a partial function: a label is possible where it leads somewhere. -/
def ofPartial (start : σ → Prop) (next : σ → α → Option σ) : Machine σ α where
  start := start
  enabled := fun s a => (next s a).isSome
  step := fun s a => (next s a).getD s

theorem ofPartial_step (h : next s a = some s') : (ofPartial start next).step s a = s' := by
  show (next s a).getD s = s'
  rw [h, Option.getD_some]

theorem Reachable.partial_step (hs : (ofPartial start next).Reachable s) (h : next s a = some s') :
    (ofPartial start next).Reachable s' := by
  rw [← ofPartial_step h]
  exact hs.step (show (next s a).isSome by rw [h]; rfl)

theorem Reachable.partial_invariant {I : σ → Prop} (hstart : ∀ s, start s → I s)
    (hnext : ∀ s a s', next s a = some s' → I s → I s') (h : (ofPartial start next).Reachable s) : I s := by
  refine h.invariant hstart fun s a ha hI => ?_
  obtain ⟨s', hs'⟩ := Option.isSome_iff_exists.1 ha
  rw [ofPartial_step hs']
  exact hnext s a s' hs' hI

end Partial

end Machine
