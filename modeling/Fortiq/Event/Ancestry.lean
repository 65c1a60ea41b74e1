/-
What a sequence of insertions leaves, whatever the order of the events, with parents that come late, never or twice,
and with events that are refused: an exact index of children, the childless events as heads, and clocks that grow from
every event to its descendants, so that none is its own ancestor. On such a graph the topological sort is the sort by
`(lamport, timestamp, id)`.
-/
import Fortiq.Event.Sync

namespace Fortiq

open KeyOrder

namespace EventGraph

variable {g : EventGraph} {a b e : Event}

/-! ## Ancestors -/

/-- The first event is a parent of the second, and both are in the graph. -/
structure IsParent (g : EventGraph) (a b : Event) : Prop where
  left : a ∈ g.events
  right : b ∈ g.events
  named : a.id ∈ b.parents

/-- A chain of parents leads from the second event to the first, through events of the graph. -/
def Ancestor (g : EventGraph) : Event → Event → Prop := Relation.TransGen g.IsParent

theorem Inv.lamport_lt_of_ancestor (h : g.Inv) (hab : g.Ancestor a b) : a.lamport < b.lamport := by
  induction hab with
  | single hp => exact h.mono _ hp.left _ hp.right hp.named
  | tail _ hp ih => exact UInt64.lt_trans ih (h.mono _ hp.left _ hp.right hp.named)

theorem Inv.not_ancestor_self (h : g.Inv) : ¬ g.Ancestor a a := fun ha =>
  UInt64.lt_irrefl _ (h.lamport_lt_of_ancestor ha)

theorem inv_insertAll {l : List Event} (hself : ∀ e ∈ l, e.id ∉ e.parents) : (EventGraph.new.insertAll l).Inv :=
  inv_new.insertAll l hself

/-- The representation of the graph. After any insertions, the children of an id are the events that name it as a
parent, as often as they do; the heads are the events that no event names; the clock grows along every edge, and no
event is its own ancestor; and an insertion that is refused or repeats an id leaves everything as it was. -/
theorem representation_invariant {l : List Event} (hself : ∀ e ∈ l, e.id ∉ e.parents) :
    (∀ p, (EventGraph.new.insertAll l).childrenOf p =
      (EventGraph.new.insertAll l).events.flatMap fun e => List.replicate (e.parents.count p) e.id) ∧
    (∀ i, i ∈ (EventGraph.new.insertAll l).heads.heads ↔ (∃ a ∈ (EventGraph.new.insertAll l).events, a.id = i) ∧
      ∀ e ∈ (EventGraph.new.insertAll l).events, i ∉ e.parents) ∧
    (∀ a b, (EventGraph.new.insertAll l).IsParent a b → a.lamport < b.lamport) ∧
    (∀ a, ¬ (EventGraph.new.insertAll l).Ancestor a a) ∧
    ∀ e, ((EventGraph.new.insertAll l).contains e.id = true ∨
        ∃ err, ((EventGraph.new.insertAll l).insert e).1 = .error err) →
      ((EventGraph.new.insertAll l).insert e).2 = EventGraph.new.insertAll l := by
  have hinv := inv_insertAll hself
  refine ⟨hinv.children, hinv.heads, fun a b hp => hinv.mono a hp.left b hp.right hp.named,
    fun a => hinv.not_ancestor_self, fun e he => ?_⟩
  rcases he with hc | ⟨err, herr⟩
  · rcases insert_cases (EventGraph.new.insertAll l) e with ⟨-, heq⟩ | ⟨hf, -⟩ | ⟨hf, -⟩
    · rw [heq]
    · rw [hc] at hf; cases hf
    · rw [hc] at hf; cases hf
  · exact insert_error herr

/-! ## The topological sort -/

theorem Inv.emitted_length (h : g.Inv) : g.index.emitted.length = g.events.length := by
  rw [Kahn.emitted, Kahn.loop_eq_keySort h.index_wf le_rfl]
  exact length_keySort _ _

/-- The topological sort is the key sort. After any insertions it returns each event of the graph once, in the order
of the keys, every parent before its child; the events left over by the loop are none; and graphs with the same events
have the same sort. -/
theorem topologicalSort_keySort {l : List Event} (hself : ∀ e ∈ l, e.id ∉ e.parents) :
    (EventGraph.new.insertAll l).topologicalSort = keySort Event.sortKey (EventGraph.new.insertAll l).events ∧
    (EventGraph.new.insertAll l).topologicalSort.Perm (EventGraph.new.insertAll l).events ∧
    (EventGraph.new.insertAll l).topologicalSort.Pairwise (fun a b => a.sortKey < b.sortKey) ∧
    (∀ p c, (EventGraph.new.insertAll l).IsParent p c → [p, c].Sublist (EventGraph.new.insertAll l).topologicalSort) ∧
    (EventGraph.new.insertAll l).index.emitted.length = (EventGraph.new.insertAll l).events.length ∧
    ∀ l', (∀ e ∈ l', e.id ∉ e.parents) →
      (∀ e, e ∈ (EventGraph.new.insertAll l).events ↔ e ∈ (EventGraph.new.insertAll l').events) →
      (EventGraph.new.insertAll l).topologicalSort = (EventGraph.new.insertAll l').topologicalSort := by
  have hinv := inv_insertAll hself
  have hsort := hinv.topologicalSort_eq
  refine ⟨hsort, hsort ▸ keySort_perm _ _, hsort ▸ keySort_increasing (nodup_sortKey _), fun p c hp => ?_,
    hinv.emitted_length, fun l' hself' hm => ?_⟩
  · rw [hsort]
    exact pair_sublist_keySort (nodup_sortKey _) hp.left hp.right (sortKey_lt (hinv.mono p hp.left c hp.right hp.named))
  · rw [hsort, (inv_insertAll hself').topologicalSort_eq]
    exact keySort_congr (nodup_sortKey _) (nodup_sortKey _) hm

section Sample

/-- A merge that names a parent twice and one that never comes, its parents, and an event whose clock stands still. -/
def tangle : List Event :=
  tableEvents (fun _ => alice.publicKey tagCrypto)
    [⟨[idAt 1, idAt 2, idAt 1, idAt 9], 30, 3, .ticket (.statusChanged "T-aaaaaaaa" .inProgress "alice" none)⟩,
     ⟨[idAt 2], 20, 2, .ticket (.chatMessageAdded "T-aaaaaaaa" "m1" "bob" "hello" 20)⟩,
     ⟨[], 10, 1, .ticket (.created "T-aaaaaaaa" "printer" "on fire" .high "alice")⟩,
     ⟨[idAt 0], 40, 3, .ticket (.chatMessageAdded "T-aaaaaaaa" "m2" "bob" "hi" 21)⟩]

theorem tangle_noSelf : ∀ e ∈ tangle, e.id ∉ e.parents := by decide +kernel

/-- The theorem at events that come children first: the last one is refused. -/
theorem topologicalSort_keySort_tangle :
    (EventGraph.new.insertAll tangle).events.length = 3 ∧
    (EventGraph.new.insertAll tangle).topologicalSort =
      keySort Event.sortKey (EventGraph.new.insertAll tangle).events ∧
    (EventGraph.new.insertAll tangle).topologicalSort.map Event.id = [idAt 2, idAt 1, idAt 0] :=
  ⟨by decide +kernel, (topologicalSort_keySort tangle_noSelf).1, by decide +kernel⟩

/-- The invariant at the same events: a child is listed as often as it names its parent. -/
theorem representation_invariant_tangle :
    (EventGraph.new.insertAll tangle).childrenOf (idAt 1) = [idAt 0, idAt 0] ∧
    (EventGraph.new.insertAll tangle).heads.toVec = [idAt 0] ∧
    ∀ a, ¬ (EventGraph.new.insertAll tangle).Ancestor a a :=
  ⟨by decide +kernel, by decide +kernel, (representation_invariant tangle_noSelf).2.2.2.1⟩

end Sample

end EventGraph

end Fortiq
