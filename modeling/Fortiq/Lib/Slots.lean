/-
Lists of running tasks in which each task has a name of its own: a step changes the task at one place or takes it
out, and every other task has another name.
-/
import Mathlib.Data.List.Basic
import Mathlib.Data.List.Nodup

namespace Slots

variable {α β : Type} {name : α → β} {l : List α} {i : Nat} {a b x : α}

/-- A changed task keeps its name. -/
theorem names_set (h : l[i]? = some a) (hb : name b = name a) : (l.set i b).map name = l.map name := by
  rw [List.map_set, hb]
  refine List.ext_getElem? fun j => ?_
  rw [List.getElem?_set]
  split
  · rename_i hij
    subst hij
    have hlt : i < (l.map name).length := by
      rw [List.length_map]; exact (List.getElem?_eq_some_iff.1 h).1
    rw [if_pos hlt, List.getElem?_map, h, Option.map_some]
  · rfl

/-- Two places with one name are one place. -/
theorem index_eq_of_name (hn : (l.map name).Nodup) {j : Nat} (hi : l[i]? = some a) (hj : l[j]? = some x)
    (h : name x = name a) : j = i := by
  have hli : (l.map name)[i]? = some (name a) := by rw [List.getElem?_map, hi, Option.map_some]
  have hlj : (l.map name)[j]? = some (name a) := by rw [List.getElem?_map, hj, Option.map_some, h]
  obtain ⟨hjl, hje⟩ := List.getElem?_eq_some_iff.1 hlj
  obtain ⟨hil, hie⟩ := List.getElem?_eq_some_iff.1 hli
  exact (hn.getElem_inj_iff).1 (hje.trans hie.symm)

/-- After a change the tasks are the changed one and those with other names. -/
theorem mem_set_cases (hn : (l.map name).Nodup) (h : l[i]? = some a) (hx : x ∈ l.set i b) :
    x = b ∨ x ∈ l ∧ name x ≠ name a := by
  obtain ⟨j, hj⟩ := List.mem_iff_getElem?.1 hx
  rw [List.getElem?_set] at hj
  split at hj
  · split at hj
    · exact .inl (Option.some.inj hj).symm
    · cases hj
  · rename_i hij
    exact .inr ⟨List.mem_of_getElem? hj, fun heq => hij (index_eq_of_name hn h hj heq).symm⟩

/-- What is left when a task is taken out has other names. -/
theorem mem_eraseIdx_cases (hn : (l.map name).Nodup) (h : l[i]? = some a) (hx : x ∈ l.eraseIdx i) :
    x ∈ l ∧ name x ≠ name a := by
  obtain ⟨j, hj, hjx⟩ := List.mem_eraseIdx_iff_getElem?.1 hx
  exact ⟨List.mem_of_mem_eraseIdx hx, fun heq => hj (index_eq_of_name hn h hjx heq)⟩

end Slots
