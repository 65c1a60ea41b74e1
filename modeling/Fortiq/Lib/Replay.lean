/-
Replaying a log: the entries of a finite set are folded in the order of their keys. The replay is a
function of the set alone; an entry above all others can be applied incrementally; and a view that
only some entries touch is the replay of those entries.
-/
import Fortiq.Lib.KeyOrder

namespace Replay

open KeyOrder

variable {α κ σ β : Type*} [LinearOrder κ] (key : α → κ) (apply : σ → α → σ) (init : σ)

/-- The fold of the entries in key order. -/
def replay (l : List α) : σ := (keySort key l).foldl apply init

variable {key apply init}

theorem replay_congr {l m : List α} (hl : (l.map key).Nodup) (hm : (m.map key).Nodup) (h : ∀ a, a ∈ l ↔ a ∈ m) :
    replay key apply init l = replay key apply init m := by
  rw [replay, replay, keySort_congr hl hm h]

/-- Entries above all others are folded into the replay of the others. -/
theorem replay_append {l m : List α} (hl : (l.map key).Nodup) (hm : (m.map key).Nodup)
    (h : ∀ a ∈ l, ∀ b ∈ m, key a < key b) :
    replay key apply init (l ++ m) = (keySort key m).foldl apply (replay key apply init l) := by
  rw [replay, keySort_append hl hm h, List.foldl_append]; rfl

/-- Incremental application: an entry above all others is applied to the replay of the others. -/
theorem replay_append_last {l : List α} {a : α} (hl : (l.map key).Nodup) (ha : ∀ b ∈ l, key b < key a) :
    replay key apply init (l ++ [a]) = apply (replay key apply init l) a :=
  replay_append hl (List.nodup_singleton _) fun b hb c hc => by rw [List.mem_singleton.1 hc]; exact ha b hb

/-! ## Views -/

section View

variable (view : σ → β) (p : α → Bool)

/-- A view that an entry outside `p` leaves alone, and whose next value depends on its own value
only, is folded from the entries in `p`. -/
theorem foldl_view (hframe : ∀ s a, p a = false → view (apply s a) = view s)
    (hlocal : ∀ s t a, view s = view t → view (apply s a) = view (apply t a)) :
    ∀ (l : List α) (s t : σ), view s = view t → view (l.foldl apply s) = view ((l.filter p).foldl apply t)
  | [], _, _, h => h
  | a :: l, s, t, h => by
    rw [List.foldl_cons, List.filter_cons]
    cases hp : p a with
    | true => exact foldl_view hframe hlocal l _ _ (hlocal s t a h)
    | false => exact foldl_view hframe hlocal l _ _ ((hframe s a hp).trans h)

omit [LinearOrder κ] in
theorem foldl_view_congr (hlocal : ∀ s t a, view s = view t → view (apply s a) = view (apply t a)) :
    ∀ (l : List α) (s t : σ), view s = view t → view (l.foldl apply s) = view (l.foldl apply t)
  | [], _, _, h => h
  | a :: l, s, t, h => foldl_view_congr hlocal l _ _ (hlocal s t a h)

theorem replay_view (hframe : ∀ s a, p a = false → view (apply s a) = view s)
    (hlocal : ∀ s t a, view s = view t → view (apply s a) = view (apply t a)) {l : List α} (hl : (l.map key).Nodup) :
    view (replay key apply init l) = view (replay key apply init (l.filter p)) := by
  rw [replay, replay, keySort_filter hl p]
  exact foldl_view view p hframe hlocal _ _ _ rfl

/-- Logs that agree on the entries in `p` agree on the view. -/
theorem replay_view_congr (hframe : ∀ s a, p a = false → view (apply s a) = view s)
    (hlocal : ∀ s t a, view s = view t → view (apply s a) = view (apply t a)) {l m : List α} (hl : (l.map key).Nodup)
    (hm : (m.map key).Nodup) (h : ∀ a, p a = true → (a ∈ l ↔ a ∈ m)) :
    view (replay key apply init l) = view (replay key apply init m) := by
  rw [replay_view view p hframe hlocal hl, replay_view view p hframe hlocal hm]
  refine congrArg view (replay_congr (hl.sublist (List.filter_sublist.map key))
    (hm.sublist (List.filter_sublist.map key)) fun a => ?_)
  rw [List.mem_filter, List.mem_filter]
  exact and_congr_left (h a)

/-- When the entries in `p` that `m` has beyond `l` sort after those of `l`, the view of `m` is the view of
`l` with these entries folded in. -/
theorem replay_view_append [DecidableEq α] (hframe : ∀ s a, p a = false → view (apply s a) = view s)
    (hlocal : ∀ s t a, view s = view t → view (apply s a) = view (apply t a)) {l m : List α} (hl : (l.map key).Nodup)
    (hm : (m.map key).Nodup) (hsub : ∀ a ∈ l, a ∈ m)
    (hlast : ∀ b ∈ m, b ∉ l → p b = true → ∀ a ∈ l, p a = true → key a < key b) :
    view (replay key apply init m) =
      view ((keySort key (m.filter fun b => b ∉ l ∧ p b = true)).foldl apply (replay key apply init l)) := by
  have hnew : ((m.filter fun b => b ∉ l ∧ p b = true).map key).Nodup := hm.sublist (List.filter_sublist.map key)
  have hold : ((l.filter p).map key).Nodup := hl.sublist (List.filter_sublist.map key)
  have hcross : ∀ a ∈ l.filter p, ∀ b ∈ m.filter (fun b => b ∉ l ∧ p b = true), key a < key b := by
    intro a ha b hb
    simp only [List.mem_filter, decide_eq_true_eq] at ha hb
    exact hlast b hb.1 hb.2.1 hb.2.2 a ha.1 ha.2
  have happ : ((l.filter p ++ m.filter fun b => b ∉ l ∧ p b = true).map key).Nodup := by
    rw [List.map_append, List.nodup_append]
    refine ⟨hold, hnew, ?_⟩
    intro x hx y hy
    obtain ⟨a, ha, rfl⟩ := List.mem_map.1 hx
    obtain ⟨b, hb, rfl⟩ := List.mem_map.1 hy
    exact (hcross a ha b hb).ne
  calc view (replay key apply init m)
      = view (replay key apply init (l.filter p ++ m.filter fun b => b ∉ l ∧ p b = true)) := by
        refine replay_view_congr view p hframe hlocal hm happ fun a ha => ?_
        by_cases hal : a ∈ l
        · simp [hal, ha, hsub a hal]
        · simp [hal, ha]
    _ = view ((keySort key (m.filter fun b => b ∉ l ∧ p b = true)).foldl apply (replay key apply init (l.filter p))) := by
        rw [replay_append hold hnew hcross]
    _ = view ((keySort key (m.filter fun b => b ∉ l ∧ p b = true)).foldl apply (replay key apply init l)) := by
        exact foldl_view_congr view hlocal _ _ _ (replay_view view p hframe hlocal hl).symm

end View

/-! ## The log as a set -/

section Log

variable (key apply init)

/-- The state a finite set of entries stands for. -/
noncomputable def stateOf (S : Finset α) : σ := replay key apply init S.toList

variable {key apply init}

theorem replay_eq_stateOf [DecidableEq α] {l : List α} (hl : (l.map key).Nodup) :
    replay key apply init l = stateOf key apply init l.toFinset := by
  refine replay_congr hl ?_ fun a => by simp
  have hp : l.toFinset.toList.Perm l := by
    rw [List.perm_ext_iff_of_nodup (Finset.nodup_toList _) (List.Nodup.of_map key hl)]
    simp
  exact (hp.map key).nodup_iff.2 hl

omit [LinearOrder κ] in
theorem nodup_toList_map {S : Finset α} (h : Set.InjOn key S) : (S.toList.map key).Nodup :=
  List.Nodup.map_on (fun _ ha _ hb hab => h (Finset.mem_toList.1 ha) (Finset.mem_toList.1 hb) hab) S.nodup_toList

end Log

/-! ## Replicas -/

section Replicas

variable (key apply init)

/-- A replica: a log without two entries of one key, and the view it shows, which is its replay. -/
structure Replica where
  log : Finset α
  keyed : Set.InjOn key (log : Set α)
  view : σ
  shows : view = stateOf key apply init log

variable {key apply init}

namespace Replica

variable {r r' : Replica key apply init}

/-- A replica only ever takes entries. -/
def Grows (r r' : Replica key apply init) : Prop := r.log ⊆ r'.log

/-- Convergence: replicas with the same log show the same view. -/
theorem view_eq (h : r.log = r'.log) : r.view = r'.view := by rw [r.shows, r'.shows, h]

/-- A property of views that more entries never undo stays. -/
theorem stays {P : σ → Prop}
    (hmono : ∀ S T : Finset α, Set.InjOn key (T : Set α) → S ⊆ T → P (stateOf key apply init S) → P (stateOf key apply init T))
    (h : Grows r r') (hp : P r.view) : P r'.view := by
  rw [r.shows] at hp
  rw [r'.shows]
  exact hmono _ _ r'.keyed h hp

end Replica

end Replicas

end Replay
