/-
Sixteen-bit arithmetic as a compiled program does it. Where a result does not fit, a debug build stops and a release
build wraps; what a debug build returns is the exact result, and a release build returns the same.
-/
import Mathlib.Data.Int.Basic
import Mathlib.Tactic

namespace Checked

inductive Build where
  | debug
  | release
deriving DecidableEq, Repr

/-- A result that is exact if it fits. -/
def Build.check {α : Type} (b : Build) (fits : Prop) [Decidable fits] (x : α) : Option α :=
  match b with
  | .debug => if fits then some x else none
  | .release => some x

section Check

variable {α : Type} {b : Build} {fits : Prop} [Decidable fits] {x y : α}

theorem check_of_fits (h : fits) : b.check fits x = some x := by
  cases b with
  | debug => exact if_pos h
  | release => rfl

theorem eq_of_check (h : b.check fits x = some y) : y = x := by
  cases b with
  | debug => simp only [Build.check] at h; split at h <;> cases h; rfl
  | release => exact (Option.some.inj h).symm

/-- Every build returns the result exactly if it fits. -/
theorem check_bind_all {β : Type} {g : Build → α → Option β} {z : β} :
    (∀ b : Build, (b.check fits x).bind (g b) = some z) ↔ fits ∧ ∀ b, g b x = some z := by
  constructor
  · intro h
    have hfits : fits := by
      by_contra hn
      have hdebug := h .debug
      rw [Build.check, if_neg hn] at hdebug
      cases hdebug
    refine ⟨hfits, fun b => ?_⟩
    have hb := h b
    rwa [check_of_fits hfits] at hb
  · rintro ⟨hfits, h⟩ b
    rw [check_of_fits hfits]
    exact h b

end Check

/-! ## Operations -/

def addU16 (b : Build) (x y : UInt16) : Option UInt16 := b.check (x.toNat + y.toNat < 65536) (x + y)

def subU16 (b : Build) (x y : UInt16) : Option UInt16 := b.check (y.toNat ≤ x.toNat) (x - y)

def mulU16 (b : Build) (x y : UInt16) : Option UInt16 := b.check (x.toNat * y.toNat < 65536) (x * y)

def addI16 (b : Build) (x y : Int16) : Option Int16 :=
  b.check (-32768 ≤ x.toInt + y.toInt ∧ x.toInt + y.toInt < 32768) (x + y)

def negI16 (b : Build) (x : Int16) : Option Int16 := b.check (x.toInt ≠ -32768) (-x)

/-- `u16::saturating_sub`. -/
def saturatingSub (x y : UInt16) : UInt16 := if y.toNat ≤ x.toNat then x - y else 0

/-- `Ord::clamp`, which stops in every build where the bounds are the wrong way round. -/
def clamp (x lo hi : Int16) : Option Int16 :=
  if lo ≤ hi then some (if x < lo then lo else if x > hi then hi else x) else none

/-! ## Their values -/

theorem toNat_saturatingSub (x y : UInt16) : (saturatingSub x y).toNat = x.toNat - y.toNat := by
  unfold saturatingSub
  split
  · rename_i h
    exact UInt16.toNat_sub_of_le _ _ (UInt16.le_iff_toNat_le.2 h)
  · rename_i h
    have hlt := Nat.not_le.1 h
    simp only [UInt16.toNat_zero]
    omega

theorem toNat_min (x y : UInt16) : (min x y).toNat = min x.toNat y.toNat := by
  have hmin : min x y = if x ≤ y then x else y := rfl
  rw [hmin]
  split
  · rename_i h
    rw [Nat.min_eq_left (UInt16.le_iff_toNat_le.1 h)]
  · rename_i h
    rw [Nat.min_eq_right (Nat.le_of_not_le fun hle => h (UInt16.le_iff_toNat_le.2 hle))]

theorem toNat_max (x y : UInt16) : (max x y).toNat = max x.toNat y.toNat := by
  have hmax : max x y = if x ≤ y then y else x := rfl
  rw [hmax]
  split
  · rename_i h
    rw [Nat.max_eq_right (UInt16.le_iff_toNat_le.1 h)]
  · rename_i h
    rw [Nat.max_eq_left (Nat.le_of_not_le fun hle => h (UInt16.le_iff_toNat_le.2 hle))]

/-- A sum that fits is returned in either build. -/
theorem addU16_of_lt {b : Build} {x y : UInt16} (h : x.toNat + y.toNat < 65536) :
    addU16 b x y = some (x + y) ∧ (x + y).toNat = x.toNat + y.toNat :=
  ⟨check_of_fits h, by rw [UInt16.toNat_add]; exact Nat.mod_eq_of_lt h⟩

/-- `as i16`. -/
theorem toInt_toInt16 (x : UInt16) :
    x.toInt16.toInt = if x.toNat < 32768 then (x.toNat : Int) else (x.toNat : Int) - 65536 := by
  have h : x.toInt16.toInt = x.toBitVec.toInt := rfl
  rw [h, BitVec.toInt_eq_toNat_cond]
  have hn : x.toBitVec.toNat = x.toNat := rfl
  rw [hn]
  split <;> split <;> omega

/-- `as u16` of what is not negative. -/
theorem toNat_toUInt16 {x : Int16} (h : 0 ≤ x.toInt) : (x.toUInt16.toNat : Int) = x.toInt := by
  have hcast := toInt_toInt16 x.toUInt16
  have hlt := x.toUInt16.toNat_lt
  have hround : x.toUInt16.toInt16 = x := rfl
  rw [hround] at hcast
  split at hcast <;> omega

theorem toInt_add_of_fits {x y : Int16} (h : -32768 ≤ x.toInt + y.toInt ∧ x.toInt + y.toInt < 32768) :
    (x + y).toInt = x.toInt + y.toInt := by
  rw [Int16.toInt_add, Int.bmod_eq_of_le (by omega) (by omega)]

theorem toInt_neg_of_ne {x : Int16} (h : x.toInt ≠ -32768) : (-x).toInt = -x.toInt := by
  have hlo := x.le_toInt
  have hhi := x.toInt_lt
  rw [Int16.toInt_neg, Int.bmod_eq_of_le (by omega) (by omega)]

theorem clamp_eq_some {x lo hi z : Int16} :
    clamp x lo hi = some z ↔ lo.toInt ≤ hi.toInt ∧ z.toInt = max lo.toInt (min x.toInt hi.toInt) := by
  unfold clamp
  by_cases h : lo ≤ hi
  · have hle := Int16.le_iff_toInt_le.1 h
    rw [if_pos h, Option.some.injEq, eq_comm, ← Int16.toInt_inj, and_iff_right hle]
    suffices hval : (if x < lo then lo else if x > hi then hi else x).toInt = max lo.toInt (min x.toInt hi.toInt) by
      rw [hval]
    split
    · rename_i hx
      have := Int16.lt_iff_toInt_lt.1 hx
      omega
    · rename_i hx
      split
      · rename_i hy
        have := Int16.lt_iff_toInt_lt.1 hy
        omega
      · rename_i hy
        have h₁ := mt Int16.lt_iff_toInt_lt.2 hx
        have h₂ := mt Int16.lt_iff_toInt_lt.2 hy
        omega
  · rw [if_neg h]
    exact iff_of_false nofun fun hle => h (Int16.le_iff_toInt_le.2 hle.1)

/-- A clamp between zero and a number, cast back: what the cast of the number is decides. -/
theorem clamp_zero {x z : Int16} {hi : UInt16} (h : clamp x 0 hi.toInt16 = some z) :
    hi.toNat < 32768 ∧ (z.toUInt16.toNat : Int) = max 0 (min x.toInt hi.toNat) := by
  obtain ⟨hle, hz⟩ := clamp_eq_some.1 h
  have hzero : (0 : Int16).toInt = 0 := rfl
  rw [hzero] at hle hz
  have hcast := toNat_toUInt16 (x := z) (by omega)
  have hhi := toInt_toInt16 hi
  have hlt := hi.toNat_lt
  split at hhi <;> omega

theorem clamp_zero_isSome {x : Int16} {hi : UInt16} (h : hi.toNat < 32768) : ∃ z, clamp x 0 hi.toInt16 = some z := by
  have hhi := toInt_toInt16 hi
  rw [if_pos h] at hhi
  have hle : (0 : Int16) ≤ hi.toInt16 := Int16.le_iff_toInt_le.2 (by rw [hhi]; exact Int.natCast_nonneg _)
  exact ⟨_, if_pos hle⟩

end Checked
