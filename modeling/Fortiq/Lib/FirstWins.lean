/-
Collecting the items of a log under their keys, where the first item of a key wins: later items of the same key are
passed over. What is collected under a key is the first item of the log with this key.
-/
import Mathlib.Data.List.Nodup
import Mathlib.Tactic

namespace FirstWins

variable {α κ : Type} [DecidableEq κ] (key : α → κ)

/-- An item with a new key is added at the end. -/
def add (l : List α) (x : α) : List α := if key x ∈ l.map key then l else l ++ [x]

/-- The items of a log, first come first kept. -/
def collect (l : List α) : List α := l.foldl (add key) []

variable {key} {l : List α} {x : α}

@[simp] theorem collect_nil : collect key ([] : List α) = [] := rfl

theorem collect_append_singleton (l : List α) (x : α) : collect key (l ++ [x]) = add key (collect key l) x := by
  rw [collect, List.foldl_append]
  rfl

theorem find_add (l : List α) (x : α) (k : κ) :
    (add key l x).find? (fun y => key y = k) =
      (l.find? fun y => key y = k).or (if key x = k then some x else none) := by
  unfold add
  split
  · rename_i hmem
    split
    · -- the key is there, so an item with it is found
      rename_i hk
      obtain ⟨y, hy, hyx⟩ := List.mem_map.1 hmem
      cases hfind : l.find? fun y => key y = k with
      | none => exact absurd (decide_eq_true (hyx.trans hk)) (List.find?_eq_none.1 hfind y hy)
      | some z => rfl
    · rw [Option.or_none]
  · rw [List.find?_append, List.find?_singleton]
    simp only [decide_eq_true_eq]

/-- Under each key the first item of the log is collected. -/
theorem find_collect (l : List α) (k : κ) :
    (collect key l).find? (fun y => key y = k) = l.find? fun y => key y = k := by
  induction l using List.reverseRecOn with
  | nil => rfl
  | append_singleton l x ih =>
    rw [collect_append_singleton, find_add, ih, List.find?_append, List.find?_singleton]
    simp only [decide_eq_true_eq]

theorem nodup_collect (l : List α) : ((collect key l).map key).Nodup := by
  induction l using List.reverseRecOn with
  | nil => exact List.nodup_nil
  | append_singleton l x ih =>
    rw [collect_append_singleton, add]
    split
    · exact ih
    · rename_i hx
      rw [List.map_append, List.map_singleton]
      exact List.nodup_append.2 ⟨ih, List.nodup_singleton _, fun a ha b hb hab => hx (by simp_all)⟩

/-- Where no key is twice, an item is what is found under its key. -/
theorem mem_iff_find (hn : (l.map key).Nodup) : x ∈ l ↔ (l.find? fun y => key y = key x) = some x := by
  refine ⟨fun hx => ?_, List.mem_of_find?_eq_some⟩
  cases hfind : l.find? fun y => key y = key x with
  | none => exact absurd (decide_eq_true rfl) (List.find?_eq_none.1 hfind x hx)
  | some y =>
    have hy := List.find?_some hfind
    exact congrArg some (List.inj_on_of_nodup_map hn (List.mem_of_find?_eq_some hfind) hx (of_decide_eq_true hy))

theorem mem_collect_iff : x ∈ collect key l ↔ (l.find? fun y => key y = key x) = some x := by
  rw [← find_collect, mem_iff_find (nodup_collect l)]

end FirstWins
