/-
Arrival orders. The graph checks an event against the parents and children it happens to have, so which of
two events that contradict each other is accepted depends on which comes first. Events along whose edges the
clock grows contradict nowhere: such a set is accepted whole in every order. Graphs with the same events have
the same heads and the same children up to order.
-/
import Fortiq.Event.Invariant

namespace Fortiq

/-- The two events contradict each other: one names the other as a parent and the clock does not grow. -/
def Contradict (a b : Event) : Prop :=
  (a.id ∈ b.parents ∧ b.lamport ≤ a.lamport) ∨ (b.id ∈ a.parents ∧ a.lamport ≤ b.lamport)

/-- The clock grows along every edge within the set. -/
def Consistent (S : Set Event) : Prop := ∀ p ∈ S, ∀ c ∈ S, p.id ∈ c.parents → p.lamport < c.lamport

theorem consistent_iff {S : Set Event} : Consistent S ↔ ∀ a ∈ S, ∀ b ∈ S, ¬ Contradict a b := by
  constructor
  · rintro h a ha b hb (⟨hp, hle⟩ | ⟨hp, hle⟩)
    · exact absurd (h a ha b hb hp) (UInt64.not_lt.2 hle)
    · exact absurd (h b hb a ha hp) (UInt64.not_lt.2 hle)
  · intro h p hp c hc hpc
    by_contra hlt
    exact h p hp c hc (.inl ⟨hpc, UInt64.not_lt.1 hlt⟩)

namespace EventGraph

variable {g g' : EventGraph} {U : Set Event}

theorem Inv.consistent (h : g.Inv) : Consistent {e | e ∈ g.events} := fun p hp c hc => h.mono p hp c hc

/-- A conflict is a contradiction with an event that is there. -/
theorem Inv.conflict_iff_contradict (h : g.Inv) {e : Event} : g.Conflict e ↔ ∃ a ∈ g.events, Contradict a e := by
  rw [h.conflict_iff]
  constructor
  · rintro (⟨a, ha, hp⟩ | ⟨a, ha, hp⟩)
    · exact ⟨a, ha, .inl hp⟩
    · exact ⟨a, ha, .inr hp⟩
  · rintro ⟨a, ha, hp | hp⟩
    · exact .inl ⟨a, ha, hp⟩
    · exact .inr ⟨a, ha, hp⟩

/-- The events after an insertion, where ids are ideal: the event joins unless it contradicts one that is there. -/
theorem Inv.mem_insert_iff (h : g.Inv) (hU : IdealIds U) (hg : ∀ a ∈ g.events, a ∈ U) {e : Event} (he : e ∈ U) {a : Event} :
    a ∈ (g.insert e).2.events ↔ a ∈ g.events ∨ (a = e ∧ ∀ b ∈ g.events, ¬ Contradict b e) := by
  rw [mem_insert, h.conflict_iff_contradict]
  simp only [not_exists, not_and]
  constructor
  · rintro (ha | ⟨rfl, -, hc⟩)
    · exact .inl ha
    · exact .inr ⟨rfl, hc⟩
  · rintro (ha | ⟨rfl, hc⟩)
    · exact .inl ha
    · cases hcon : g.contains a.id with
      | false => exact .inr ⟨rfl, rfl, hc⟩
      | true =>
        obtain ⟨b, hb, hid⟩ := contains_iff.1 hcon
        exact .inl (hU.inj b (hg b hb) a he hid ▸ hb)

/-- An event of a list is in the graph it leaves, or contradicts one that is. -/
theorem Inv.insertAll_mem_or (hU : IdealIds U) : ∀ (l : List Event) {g : EventGraph}, g.Inv → (∀ a ∈ g.events, a ∈ U) →
    (∀ a ∈ l, a ∈ U) → ∀ e ∈ l, e ∈ (g.insertAll l).events ∨ ∃ a ∈ (g.insertAll l).events, Contradict a e
  | x :: l, g, h, hg, hl, e, he => by
    have hx := hl x (List.mem_cons_self ..)
    have hg' : ∀ a ∈ (g.insert x).2.events, a ∈ U := by
      intro a ha
      rcases mem_insert.1 ha with ha | ⟨rfl, -⟩
      · exact hg a ha
      · exact hx
    rcases List.mem_cons.1 he with rfl | he
    · by_cases hc : ∃ b ∈ g.events, Contradict b e
      · obtain ⟨b, hb, hcon⟩ := hc
        exact .inr ⟨b, mem_insertAll_of_mem l _ (mem_insert.2 (.inl hb)), hcon⟩
      · refine .inl (mem_insertAll_of_mem l _ ((h.mem_insert_iff hU hg hx).2 (.inr ⟨rfl, ?_⟩)))
        simpa using hc
    · exact Inv.insertAll_mem_or hU l (h.insert (hU.noSelf x hx)) hg' (fun a ha => hl a (List.mem_cons_of_mem _ ha)) e he

/-- A consistent set is accepted whole, in every order. -/
theorem Inv.insertAll_consistent (hU : IdealIds U) (h : g.Inv) {l : List Event} (hg : ∀ a ∈ g.events, a ∈ U)
    (hl : ∀ a ∈ l, a ∈ U) (hc : Consistent {e | e ∈ g.events ∨ e ∈ l}) {e : Event} :
    e ∈ (g.insertAll l).events ↔ e ∈ g.events ∨ e ∈ l := by
  refine ⟨mem_of_mem_insertAll l g, ?_⟩
  rintro (he | he)
  · exact mem_insertAll_of_mem l g he
  · rcases h.insertAll_mem_or hU l hg hl e he with hin | ⟨a, ha, hcon⟩
    · exact hin
    · exact absurd hcon (consistent_iff.1 hc a (mem_of_mem_insertAll l g ha) e (.inr he))

/-- The first event of all is accepted. -/
theorem mem_insertAll_first (e : Event) (l : List Event) : e ∈ (EventGraph.new.insertAll (e :: l)).events := by
  refine mem_insertAll_of_mem l _ (mem_insert.2 (.inr ⟨rfl, rfl, ?_⟩))
  rintro (⟨a, ha, -⟩ | ⟨a, ha, -⟩) <;> cases ha

/-! ## Graphs with the same events -/

section Same

variable (h : g.Inv) (h' : g'.Inv) (hm : ∀ e, e ∈ g.events ↔ e ∈ g'.events)
include hm

theorem perm_of_mem_iff : g.events.Perm g'.events :=
  (List.perm_ext_iff_of_nodup (List.Nodup.of_map _ g.nodup) (List.Nodup.of_map _ g'.nodup)).2 hm

include h h'

theorem Inv.childrenOf_perm (p : ObjectId) : (g.childrenOf p).Perm (g'.childrenOf p) := by
  rw [h.children, h'.children]
  exact (perm_of_mem_iff hm).flatMap_right _

theorem Inv.heads_eq : g.heads = g'.heads := by
  have hset : g.heads.heads = g'.heads.heads := by
    refine OrdSet.ext fun i => ?_
    rw [h.heads, h'.heads]
    simp only [hm]
  cases hg : g.heads; cases hg' : g'.heads
  rw [hg, hg'] at hset
  exact congrArg Heads.mk hset

end Same

end EventGraph

end Fortiq
