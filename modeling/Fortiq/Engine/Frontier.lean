/-
The heads of a ticket. `ticket_heads` leaves out an event of the ticket when one of its children is about the same
ticket; what is on the frontier has no descendant about the ticket at all. The two agree as long as an event with such
a descendant has such a child. An engine names the global heads as parents, so that the events of one ticket are
linked through those of others, and then they do not.
-/
import Fortiq.Engine.TicketSync
import Fortiq.Event.Ancestry

namespace Fortiq

open KeyOrder

namespace EventGraph

variable {g : EventGraph} {t : String} {i : ObjectId}

/-- An event of the ticket that is an ancestor of no other one. -/
structure Frontier (g : EventGraph) (t : String) (e : Event) : Prop where
  mem : e ∈ g.events
  about : e.ticketId = some t
  last : ∀ d ∈ g.events, d.ticketId = some t → d ≠ e → ¬ g.Ancestor e d

open Classical in
/-- The causal frontier of a ticket, sorted. -/
noncomputable def ticketFrontier (g : EventGraph) (t : String) : List ObjectId :=
  keySort id ((g.events.filter fun e => g.Frontier t e).map Event.id)

theorem mem_ticketFrontier : i ∈ g.ticketFrontier t ↔ ∃ e, g.Frontier t e ∧ e.id = i := by
  simp only [ticketFrontier, mem_keySort, List.mem_map, List.mem_filter, decide_eq_true_eq]
  constructor
  · rintro ⟨e, ⟨-, he⟩, hi⟩
    exact ⟨e, he, hi⟩
  · rintro ⟨e, he, hi⟩
    exact ⟨e, ⟨he.mem, he⟩, hi⟩

/-- The heads of a ticket are its events that none of its events names as a parent. -/
theorem Inv.mem_ticketHeads (h : g.Inv) : i ∈ g.ticketHeads t ↔
    ∃ e ∈ g.events, e.ticketId = some t ∧ e.id = i ∧ ∀ c ∈ g.events, c.ticketId = some t → e.id ∉ c.parents := by
  simp only [ticketHeads, mem_keySort, List.mem_map, List.mem_filter, decide_eq_true_eq, Bool.not_eq_true',
    List.any_eq_false]
  constructor
  · rintro ⟨e, ⟨⟨he, ht⟩, hn⟩, hi⟩
    refine ⟨e, he, ht, hi, fun c hc hct hec => ?_⟩
    have hno := hn c.id (h.mem_childrenOf.2 ⟨c, hc, hec, rfl⟩)
    rw [get_eq_some.2 ⟨hc, rfl⟩] at hno
    simp [hct] at hno
  · rintro ⟨e, he, ht, hi, hn⟩
    refine ⟨e, ⟨⟨he, ht⟩, fun i hi => ?_⟩, hi⟩
    obtain ⟨c, hc, hec, rfl⟩ := h.mem_childrenOf.1 hi
    rw [get_eq_some.2 ⟨hc, rfl⟩]
    simpa using fun hct => hn c hc hct hec

theorem increasing_keySort_ids {l : List Event} (hl : l.Sublist g.events) :
    Increasing id (keySort id (l.map Event.id)) := by
  refine keySort_increasing ?_
  rw [List.map_id]
  exact g.nodup.sublist (hl.map _)

/-- Two sorted lists of ids of events with the same members. -/
theorem ticketHeads_eq_iff : g.ticketHeads t = g.ticketFrontier t ↔ ∀ i, i ∈ g.ticketHeads t ↔ i ∈ g.ticketFrontier t := by
  have hheads : Increasing id (g.ticketHeads t) :=
    increasing_keySort_ids (List.filter_sublist.trans List.filter_sublist)
  exact ⟨fun heq i => by rw [heq], hheads.eq_of_mem_iff (increasing_keySort_ids List.filter_sublist)⟩

theorem Inv.ticketHeads_eq_frontier (h : g.Inv) : g.ticketHeads t = g.ticketFrontier t ↔
    ∀ e ∈ g.events, e.ticketId = some t → (∃ d ∈ g.events, d.ticketId = some t ∧ g.Ancestor e d) →
      ∃ c ∈ g.events, c.ticketId = some t ∧ e.id ∈ c.parents := by
  rw [ticketHeads_eq_iff]
  constructor
  · rintro hm e he ht ⟨d, hd, hdt, hanc⟩
    by_contra hno
    have hhead : e.id ∈ g.ticketHeads t :=
      h.mem_ticketHeads.2 ⟨e, he, ht, rfl, fun c hc hct hec => hno ⟨c, hc, hct, hec⟩⟩
    obtain ⟨e', hf, hid⟩ := mem_ticketFrontier.1 ((hm e.id).1 hhead)
    obtain rfl := id_inj hf.mem he hid
    refine hf.last d hd hdt ?_ hanc
    rintro rfl
    exact h.not_ancestor_self hanc
  · intro hcond i
    rw [h.mem_ticketHeads, mem_ticketFrontier]
    constructor
    · rintro ⟨e, he, ht, rfl, hn⟩
      refine ⟨e, ⟨he, ht, fun d hd hdt _ hanc => ?_⟩, rfl⟩
      obtain ⟨c, hc, hct, hec⟩ := hcond e he ht ⟨d, hd, hdt, hanc⟩
      exact hn c hc hct hec
    · rintro ⟨e, hf, rfl⟩
      refine ⟨e, hf.mem, hf.about, rfl, fun c hc hct hec => ?_⟩
      have hp : g.Ancestor e c := .single ⟨hf.mem, hc, hec⟩
      refine hf.last c hc hct ?_ hp
      rintro rfl
      exact h.not_ancestor_self hp

/-- The heads of a ticket are its causal frontier exactly if every event of the ticket that is an ancestor of another
one is a parent of one. -/
theorem ticketHeads_frontier_iff {l : List Event} (hself : ∀ e ∈ l, e.id ∉ e.parents) (t : String) :
    (EventGraph.new.insertAll l).ticketHeads t = (EventGraph.new.insertAll l).ticketFrontier t ↔
      ∀ e ∈ (EventGraph.new.insertAll l).events, e.ticketId = some t →
        (∃ d ∈ (EventGraph.new.insertAll l).events, d.ticketId = some t ∧ (EventGraph.new.insertAll l).Ancestor e d) →
        ∃ c ∈ (EventGraph.new.insertAll l).events, c.ticketId = some t ∧ e.id ∈ c.parents :=
  (inv_insertAll hself).ticketHeads_eq_frontier

/-- The theorem at a graph whose events are about one ticket. -/
theorem ticketHeads_frontier_iff_tangle :
    (EventGraph.new.insertAll tangle).ticketHeads "T-aaaaaaaa" = [idAt 0] ∧
    (EventGraph.new.insertAll tangle).ticketHeads "T-aaaaaaaa" =
      (EventGraph.new.insertAll tangle).ticketFrontier "T-aaaaaaaa" := by
  refine ⟨by decide +kernel, (ticketHeads_frontier_iff tangle_noSelf _).2 fun e he ht hd => ?_⟩
  -- an ancestor has a child, and all events are about the ticket
  obtain ⟨d, -, -, hanc⟩ := hd
  obtain ⟨c, hp, -⟩ := Relation.TransGen.head'_iff.1 hanc
  have habout : ∀ c ∈ (EventGraph.new.insertAll tangle).events, c.ticketId = some "T-aaaaaaaa" := by decide +kernel
  exact ⟨c, hp.right, habout c hp.right, hp.named⟩

end EventGraph

namespace TicketEngine

/-- One engine works on two tickets in turn: the creation of the first is an ancestor of its last event, through the
other ticket, and is still among its heads. -/
theorem ticketHeads_not_frontier :
    chained.1.graph.ticketHeads "T-aaaaaaaa" = [idAt 0, idAt 2] ∧
    (∃ a c, a.id = idAt 0 ∧ c.id = idAt 2 ∧ a.ticketId = some "T-aaaaaaaa" ∧ c.ticketId = some "T-aaaaaaaa" ∧
      chained.1.graph.Ancestor a c) ∧
    chained.1.graph.ticketHeads "T-aaaaaaaa" ≠ chained.1.graph.ticketFrontier "T-aaaaaaaa" := by
  have hchain : ∃ a ∈ chained.1.graph.events, ∃ b ∈ chained.1.graph.events, ∃ c ∈ chained.1.graph.events,
      a.id ∈ b.parents ∧ b.id ∈ c.parents ∧ a.id = idAt 0 ∧ c.id = idAt 2 ∧ a.ticketId = some "T-aaaaaaaa" ∧
        c.ticketId = some "T-aaaaaaaa" := by decide +kernel
  obtain ⟨a, ha, b, hb, c, hc, hab, hbc, hai, hci, hat, hct⟩ := hchain
  have hanc : chained.1.graph.Ancestor a c := .tail (.single ⟨ha, hb, hab⟩) ⟨hb, hc, hbc⟩
  have hheads : chained.1.graph.ticketHeads "T-aaaaaaaa" = [idAt 0, idAt 2] := by decide +kernel
  refine ⟨hheads, ⟨a, c, hai, hci, hat, hct, hanc⟩, fun heq => ?_⟩
  have hmem : idAt 0 ∈ chained.1.graph.ticketFrontier "T-aaaaaaaa" := by rw [← heq, hheads]; simp
  obtain ⟨e, hf, hei⟩ := EventGraph.mem_ticketFrontier.1 hmem
  obtain rfl := EventGraph.id_inj hf.mem ha (hei.trans hai.symm)
  refine hf.last c hc hct ?_ hanc
  rintro rfl
  exact absurd (hai.symm.trans hci) (by decide +kernel)

end TicketEngine

end Fortiq
