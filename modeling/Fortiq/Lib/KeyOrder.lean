/-
Lists ordered by a key: the sort of a list by an injective key, which depends on the members only
and commutes with filters and with appending a last element; and ordered sets, lists strictly
increasing in their key, with the insertion that keeps an element already there.
-/
import Mathlib.Data.List.Sort
import Mathlib.Tactic

namespace KeyOrder

variable {α κ : Type*} [LinearOrder κ] (key : α → κ)

/-! ## Strictly increasing lists -/

/-- Strictly increasing in the key. -/
def Increasing (l : List α) : Prop := l.Pairwise fun a b => key a < key b

instance decidableIncreasing (l : List α) : Decidable (Increasing key l) :=
  inferInstanceAs (Decidable (l.Pairwise fun a b => key a < key b))

variable {key}

/-- An increasing list is determined by its members. -/
theorem Increasing.eq_of_mem_iff {l m : List α} (hl : Increasing key l) (hm : Increasing key m)
    (h : ∀ a, a ∈ l ↔ a ∈ m) : l = m := by
  have : Std.Antisymm fun a b : α => key a < key b := ⟨fun _ _ h1 h2 => absurd h1 (lt_asymm h2)⟩
  have : Std.Irrefl fun a b : α => key a < key b := ⟨fun _ => lt_irrefl _⟩
  exact List.Pairwise.eq_of_mem_iff hl hm h

theorem Increasing.filter {l : List α} (h : Increasing key l) (p : α → Bool) : Increasing key (l.filter p) :=
  List.Pairwise.filter p h

theorem Increasing.of_cons {a : α} {l : List α} (h : Increasing key (a :: l)) : Increasing key l :=
  (List.pairwise_cons.1 h).2

theorem Increasing.head_lt {a : α} {l : List α} (h : Increasing key (a :: l)) : ∀ b ∈ l, key a < key b :=
  (List.pairwise_cons.1 h).1

theorem Increasing.append {l m : List α} (hl : Increasing key l) (hm : Increasing key m)
    (h : ∀ a ∈ l, ∀ b ∈ m, key a < key b) : Increasing key (l ++ m) :=
  List.pairwise_append.2 ⟨hl, hm, h⟩

/-- The elements before a member of an increasing list are those with a smaller key. -/
theorem Increasing.mem_left_iff {l r : List α} {m : α} (h : Increasing key (l ++ m :: r)) {a : α}
    (ha : a ∈ l ++ m :: r) : a ∈ l ↔ key a < key m := by
  obtain ⟨-, hr, hlr⟩ := List.pairwise_append.1 h
  constructor
  · intro hal; exact hlr a hal m (List.mem_cons_self ..)
  · intro hlt
    rcases List.mem_append.1 ha with hal | har
    · exact hal
    · rcases List.mem_cons.1 har with rfl | har
      · exact absurd hlt (lt_irrefl _)
      · exact absurd hlt (lt_asymm ((show Increasing key (m :: r) from hr).head_lt a har))

/-! ## Sorting by the key -/

variable (key)

/-- The list sorted by the key. -/
def keySort (l : List α) : List α := l.insertionSort fun a b => key a ≤ key b

theorem keySort_perm (l : List α) : (keySort key l).Perm l := List.perm_insertionSort _ l

@[simp] theorem mem_keySort {l : List α} {a : α} : a ∈ keySort key l ↔ a ∈ l := (keySort_perm key l).mem_iff

@[simp] theorem length_keySort (l : List α) : (keySort key l).length = l.length := (keySort_perm key l).length_eq

theorem keySort_pairwise (l : List α) : (keySort key l).Pairwise fun a b => key a ≤ key b := by
  have : Std.Total fun a b : α => key a ≤ key b := ⟨fun a b => le_total (key a) (key b)⟩
  have : IsTrans α fun a b => key a ≤ key b := ⟨fun _ _ _ => le_trans⟩
  exact List.pairwise_insertionSort _ l

variable {key}

theorem keySort_increasing {l : List α} (h : (l.map key).Nodup) : Increasing key (keySort key l) := by
  have hn : ((keySort key l).map key).Nodup := ((keySort_perm key l).map key).nodup_iff.2 h
  have hne : (keySort key l).Pairwise fun a b => key a ≠ key b := List.pairwise_map.1 hn
  exact (List.Pairwise.and (keySort_pairwise key l) hne).imp fun ⟨h1, h2⟩ => lt_of_le_of_ne h1 h2

/-- An increasing list with the members of `l` is the sort of `l`. -/
theorem Increasing.eq_keySort {l m : List α} (hl : (l.map key).Nodup) (hm : Increasing key m)
    (h : ∀ a, a ∈ m ↔ a ∈ l) : m = keySort key l :=
  hm.eq_of_mem_iff (keySort_increasing hl) fun a => by rw [h, mem_keySort]

/-- The sort depends on the members only. -/
theorem keySort_congr {l m : List α} (hl : (l.map key).Nodup) (hm : (m.map key).Nodup) (h : ∀ a, a ∈ l ↔ a ∈ m) :
    keySort key l = keySort key m :=
  (keySort_increasing hl).eq_keySort hm fun a => by rw [mem_keySort, h]

/-- Of two elements the one with the smaller key stands first. -/
theorem pair_sublist_keySort {l : List α} (hn : (l.map key).Nodup) {a b : α} (ha : a ∈ l) (hb : b ∈ l)
    (hlt : key a < key b) : [a, b].Sublist (keySort key l) := by
  have hinc := keySort_increasing hn
  obtain ⟨s, t, hst⟩ := List.append_of_mem ((mem_keySort key).2 ha)
  have hbm : b ∈ s ++ a :: t := hst ▸ (mem_keySort key).2 hb
  rw [hst] at hinc ⊢
  have hbt : b ∈ t := by
    rcases List.mem_append.1 hbm with hbs | hbt
    · exact absurd ((hinc.mem_left_iff hbm).1 hbs) (lt_asymm hlt)
    · rcases List.mem_cons.1 hbt with rfl | hbt
      · exact absurd hlt (lt_irrefl _)
      · exact hbt
  exact ((List.singleton_sublist.2 hbt).cons_cons a).trans (List.sublist_append_right s _)

/-- A list whose elements are above all others is sorted after them. -/
theorem keySort_append {l m : List α} (hl : (l.map key).Nodup) (hm : (m.map key).Nodup)
    (h : ∀ a ∈ l, ∀ b ∈ m, key a < key b) : keySort key (l ++ m) = keySort key l ++ keySort key m := by
  have hinc : Increasing key (keySort key l ++ keySort key m) :=
    (keySort_increasing hl).append (keySort_increasing hm) fun a ha b hb =>
      h a ((mem_keySort key).1 ha) b ((mem_keySort key).1 hb)
  have hn : ((l ++ m).map key).Nodup := by
    rw [List.map_append, List.nodup_append]
    refine ⟨hl, hm, ?_⟩
    intro x hx y hy
    obtain ⟨a, ha, rfl⟩ := List.mem_map.1 hx
    obtain ⟨b, hb, rfl⟩ := List.mem_map.1 hy
    exact (h a ha b hb).ne
  exact (hinc.eq_keySort hn fun b => by simp).symm

theorem keySort_filter {l : List α} (hl : (l.map key).Nodup) (p : α → Bool) :
    keySort key (l.filter p) = (keySort key l).filter p := by
  have hn : ((l.filter p).map key).Nodup := hl.sublist (List.filter_sublist.map key)
  exact (((keySort_increasing hl).filter p).eq_keySort hn fun b => by simp [List.mem_filter]).symm

/-! ## Ordered insertion -/

variable (key)

/-- Insertion into an ordered set: an element whose key is present is kept as it is. -/
def insertKey (a : α) : List α → List α
  | [] => [a]
  | b :: l => if key a < key b then a :: b :: l else if key b < key a then b :: insertKey a l else b :: l

variable {key}

theorem mem_of_mem_insertKey {a x : α} : ∀ {l : List α}, x ∈ insertKey key a l → x = a ∨ x ∈ l
  | [], h => by simpa [insertKey] using h
  | b :: l, h => by
    unfold insertKey at h
    split at h
    · simpa using h
    · split at h
      · rcases List.mem_cons.1 h with rfl | h
        · exact .inr (List.mem_cons_self ..)
        · exact (mem_of_mem_insertKey h).imp_right (List.mem_cons_of_mem _)
      · exact .inr h

theorem mem_insertKey_of_mem {a x : α} : ∀ {l : List α}, x ∈ l → x ∈ insertKey key a l
  | b :: l, h => by
    unfold insertKey
    split
    · exact List.mem_cons_of_mem _ h
    · split
      · rcases List.mem_cons.1 h with rfl | h
        · exact List.mem_cons_self ..
        · exact List.mem_cons_of_mem _ (mem_insertKey_of_mem h)
      · exact h

theorem mem_insertKey_self {a : α} : ∀ {l : List α}, (∀ b ∈ l, key b = key a → b = a) → a ∈ insertKey key a l
  | [], _ => by simp [insertKey]
  | b :: l, h => by
    unfold insertKey
    split
    · exact List.mem_cons_self ..
    · rename_i h1
      split
      · exact List.mem_cons_of_mem _ (mem_insertKey_self fun c hc => h c (List.mem_cons_of_mem _ hc))
      · rename_i h2
        rw [h b (List.mem_cons_self ..) (le_antisymm (not_lt.1 h1) (not_lt.1 h2))]
        exact List.mem_cons_self ..

theorem insertKey_increasing {a : α} : ∀ {l : List α}, Increasing key l → Increasing key (insertKey key a l)
  | [], _ => List.pairwise_singleton _ _
  | b :: l, h => by
    unfold insertKey
    split
    · rename_i hab
      refine List.pairwise_cons.2 ⟨fun c hc => ?_, h⟩
      rcases List.mem_cons.1 hc with rfl | hc
      · exact hab
      · exact hab.trans (h.head_lt c hc)
    · split
      · rename_i hba
        refine List.pairwise_cons.2 ⟨fun c hc => ?_, insertKey_increasing h.of_cons⟩
        rcases mem_of_mem_insertKey hc with rfl | hc
        · exact hba
        · exact h.head_lt c hc
      · exact h

end KeyOrder

/-! ## Ordered sets of keys -/

/-- A finite set kept as the increasing list of its elements. -/
structure OrdSet (κ : Type*) [LinearOrder κ] where
  toList : List κ
  increasing : KeyOrder.Increasing id toList

namespace OrdSet

open KeyOrder

variable {κ : Type*} [LinearOrder κ]

instance : DecidableEq (OrdSet κ) := fun s t =>
  decidable_of_iff (s.toList = t.toList) ⟨fun h => by cases s; cases t; simpa using h, fun h => by rw [h]⟩

def empty : OrdSet κ := ⟨[], List.Pairwise.nil⟩

instance : Membership κ (OrdSet κ) := ⟨fun s a => a ∈ s.toList⟩

instance (a : κ) (s : OrdSet κ) : Decidable (a ∈ s) := inferInstanceAs (Decidable (a ∈ s.toList))

theorem mem_def {a : κ} {s : OrdSet κ} : a ∈ s ↔ a ∈ s.toList := Iff.rfl

def insert (s : OrdSet κ) (a : κ) : OrdSet κ := ⟨insertKey id a s.toList, insertKey_increasing s.increasing⟩

def remove (s : OrdSet κ) (a : κ) : OrdSet κ := ⟨s.toList.filter (· ≠ a), s.increasing.filter _⟩

@[simp] theorem notMem_empty (a : κ) : a ∉ (empty : OrdSet κ) := List.not_mem_nil

@[simp] theorem mem_insert {s : OrdSet κ} {a b : κ} : b ∈ s.insert a ↔ b = a ∨ b ∈ s := by
  constructor
  · exact mem_of_mem_insertKey
  · rintro (rfl | h)
    · exact mem_insertKey_self fun c _ hc => hc
    · exact mem_insertKey_of_mem h

@[simp] theorem mem_remove {s : OrdSet κ} {a b : κ} : b ∈ s.remove a ↔ b ∈ s ∧ b ≠ a := by
  simp [remove, mem_def]

theorem ext {s t : OrdSet κ} (h : ∀ a, a ∈ s ↔ a ∈ t) : s = t := by
  have := s.increasing.eq_of_mem_iff t.increasing h
  cases s; cases t; simpa using this

theorem mem_foldl_remove {b : κ} : ∀ (l : List κ) (s : OrdSet κ), b ∈ l.foldl remove s ↔ b ∈ s ∧ b ∉ l
  | [], s => by simp
  | a :: l, s => by
    rw [List.foldl_cons, mem_foldl_remove l, mem_remove, List.mem_cons]
    tauto

end OrdSet
