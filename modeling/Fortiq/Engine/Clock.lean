/-
The Lamport clock of local appends. The heads carry the greatest clock of the graph, and an append takes the
next one. The clock is a `u64` and its values come from any author: once some event has the greatest
value, the next one wraps to zero and the graph refuses every local event from then on.
-/
import Fortiq.Engine.Replay

namespace Fortiq

namespace TicketEngine

variable {env : Env} {U : Set Event} {s : TicketEngine}

/-- `u64::MAX`. -/
def clockMax : UInt64 := 18446744073709551615

/-- Some event has this clock. -/
def HasClock (s : TicketEngine) (c : UInt64) : Prop := ∃ a ∈ s.graph.events, a.lamport = c

/-- The greatest clock is taken. -/
def ClockSpent (s : TicketEngine) : Prop := HasClock s clockMax

/-- The greatest clock of the graph, which is that of its heads. -/
def clock (s : TicketEngine) : UInt64 := s.graph.maxLamport s.graph.heads.toVec

theorem le_clockMax (c : UInt64) : c ≤ clockMax :=
  UInt64.le_iff_toNat_le.2 (by have := c.toNat_lt; show c.toNat ≤ 18446744073709551615; omega)

theorem Sound.le_clock (h : Sound U s) {a : Event} (ha : a ∈ s.graph.events) : a.lamport ≤ s.clock :=
  h.inv.le_maxLamport_heads ha

/-- A clock other than zero is the clock of the graph when it is the greatest. -/
theorem Sound.clock_eq_iff (h : Sound U s) {c : UInt64} (hc : c ≠ 0) :
    s.clock = c ↔ HasClock s c ∧ ∀ a ∈ s.graph.events, a.lamport ≤ c := by
  constructor
  · rintro rfl
    refine ⟨?_, fun a ha => h.le_clock ha⟩
    rcases EventGraph.maxLamport_attained s.graph s.graph.heads.toVec with h0 | ⟨a, ha, -, heq⟩
    · exact absurd h0 hc
    · exact ⟨a, ha, heq⟩
  · rintro ⟨⟨a, ha, rfl⟩, hmax⟩
    refine UInt64.le_antisymm ?_ (h.le_clock ha)
    rcases EventGraph.maxLamport_attained s.graph s.graph.heads.toVec with h0 | ⟨b, hb, -, heq⟩
    · rw [clock, h0]; exact UInt64.zero_le
    · rw [clock, ← heq]; exact hmax b hb

theorem Sound.clock_eq_max_iff (h : Sound U s) : s.clock = clockMax ↔ ClockSpent s := by
  rw [h.clock_eq_iff (by decide)]
  exact and_iff_left fun a _ => le_clockMax _

/-- While the clock is not spent, the next one is one more. -/
theorem Sound.toNat_next (h : Sound U s) (hn : ¬ ClockSpent s) :
    (s.graph.nextLamport s.graph.heads.toVec).toNat = s.clock.toNat + 1 := by
  have hne : s.clock.toNat ≠ 18446744073709551615 := fun heq =>
    hn (h.clock_eq_max_iff.1 (UInt64.toNat_inj.1 heq))
  have hlt := s.clock.toNat_lt
  show (s.clock + 1).toNat = _
  rw [UInt64.toNat_add, UInt64.toNat_one]
  omega

theorem Sound.lt_next (h : Sound U s) (hn : ¬ ClockSpent s) {a : Event} (ha : a ∈ s.graph.events) :
    a.lamport < s.graph.nextLamport s.graph.heads.toVec := by
  have hle := UInt64.le_iff_toNat_le.1 (h.le_clock ha)
  rw [UInt64.lt_iff_toNat_lt, h.toNat_next hn]
  omega

/-- After one more append the clock is spent exactly if one step was left. -/
theorem Sound.spent_after (h : Sound U s) (hn : ¬ ClockSpent s) {te : TicketEvent} {ts : UInt64} {e : Event}
    {obj : SignedObject} (hd : draft env te ts s = .ok (e, obj)) {s' : TicketEngine}
    (hg : s'.graph.events = s.graph.events ++ [e]) : ClockSpent s' ↔ HasClock s (clockMax - 1) := by
  have hl := (draft_ok hd).2.2.1
  have hmax : clockMax.toNat = 2 ^ 64 - 1 := by decide
  have hpred : (clockMax - 1).toNat = 2 ^ 64 - 2 := by decide
  have hnext : e.lamport.toNat = s.clock.toNat + 1 := by rw [hl]; exact h.toNat_next hn
  have hspent : ClockSpent s' ↔ e.lamport = clockMax := by
    constructor
    · rintro ⟨a, ha, hc⟩
      rw [hg, List.mem_append, List.mem_singleton] at ha
      rcases ha with ha | rfl
      · exact absurd ⟨a, ha, hc⟩ hn
      · exact hc
    · intro hc; exact ⟨e, by rw [hg]; simp, hc⟩
  have hbelow : ∀ a ∈ s.graph.events, a.lamport ≤ clockMax - 1 := by
    intro a ha
    have hne : a.lamport.toNat ≠ clockMax.toNat := fun heq => hn ⟨a, ha, UInt64.toNat_inj.1 heq⟩
    have := a.lamport.toNat_lt
    rw [UInt64.le_iff_toNat_le]
    omega
  rw [hspent, ← UInt64.toNat_inj, ← and_iff_left (a := HasClock s (clockMax - 1)) hbelow,
    ← h.clock_eq_iff (by decide), ← UInt64.toNat_inj]
  omega

/-- No event of the graph names an event over its heads as a parent: ids rank along the edges, and the
greatest rank belongs to a head. -/
theorem Sound.not_mem_parents (hac : Acyclic U) (h : Sound U s) {e : Event} (he : e ∈ U)
    (hp : e.parents = s.graph.heads.toVec) {a : Event} (ha : a ∈ s.graph.events) : e.id ∉ a.parents := by
  obtain ⟨rank, hrank⟩ := hac
  obtain ⟨m, hm, hmax⟩ := s.graph.events.toFinset.exists_max_image (fun a => rank a.id) ⟨a, List.mem_toFinset.2 ha⟩
  rw [List.mem_toFinset] at hm
  have hhead : m.id ∈ s.graph.heads.toVec := by
    refine (h.inv.heads m.id).2 ⟨⟨m, hm, rfl⟩, fun b hb hmb => ?_⟩
    have h1 := hrank b (h.mem b hb) m.id hmb
    have h2 := hmax b (List.mem_toFinset.2 hb)
    omega
  intro hea
  have h1 := hrank a (h.mem a ha) e.id hea
  have h2 := hmax a (List.mem_toFinset.2 ha)
  have h3 := hrank e he m.id (hp ▸ hhead)
  omega

/-- The graph refuses an append exactly when the clock is spent. -/
theorem Sound.conflict_iff (hac : Acyclic U) (h : Sound U s) {te : TicketEvent} {ts : UInt64} {e : Event}
    {obj : SignedObject} (hd : draft env te ts s = .ok (e, obj)) (he : e ∈ U) : s.graph.Conflict e ↔ ClockSpent s := by
  obtain ⟨hp, -, hl, -⟩ := draft_ok hd
  rw [h.inv.conflict_iff]
  constructor
  · rintro (⟨a, ha, -, hle⟩ | ⟨a, ha, hea, -⟩)
    · by_contra hn
      have := h.lt_next hn ha
      rw [← hl] at this
      exact absurd this (UInt64.not_lt.2 hle)
    · exact absurd hea (h.not_mem_parents hac he hp ha)
  · intro hs
    obtain ⟨m, hm, hmh, -⟩ := h.inv.exists_max_head (by obtain ⟨a, ha, -⟩ := hs; exact List.ne_nil_of_mem ha)
    refine .inl ⟨m, hm, hp ▸ hmh, ?_⟩
    have hzero : e.lamport = 0 := by
      rw [hl]
      show s.clock + 1 = 0
      rw [h.clock_eq_max_iff.2 hs]
      decide
    rw [hzero]
    exact UInt64.zero_le

/-- Local appends are causally valid exactly while no event has the greatest clock: the next clock is then
computed without overflow and above every clock of the graph, and no local event is refused. -/
theorem append_valid_iff (hU : IdealIds U) (hac : Acyclic U) (h : Reach env U s) :
    ((s.graph.maxLamport s.graph.heads.toVec).toNat + 1 < 2 ^ 64 ∧
      (∀ a ∈ s.graph.events, a.lamport < s.graph.nextLamport s.graph.heads.toVec) ∧
      ∀ te ts e obj, draft env te ts s = .ok (e, obj) → e ∈ U → (s.graph.insert e).1 = .ok ()) ↔
    ∀ a ∈ s.graph.events, a.lamport ≠ clockMax := by
  have hs := h.sound hU
  have hspent : (∀ a ∈ s.graph.events, a.lamport ≠ clockMax) ↔ ¬ ClockSpent s := by simp [ClockSpent, HasClock]
  rw [hspent]
  constructor
  · rintro ⟨hlt, -, -⟩ hsp
    have heq : s.clock.toNat = clockMax.toNat := by rw [hs.clock_eq_max_iff.2 hsp]
    have hmax : clockMax.toNat = 2 ^ 64 - 1 := by decide
    unfold clock at heq
    omega
  · intro hn
    refine ⟨?_, fun a ha => hs.lt_next hn ha, fun te ts e obj hd he => ?_⟩
    · rw [show (s.graph.maxLamport s.graph.heads.toVec) = s.clock from rfl, ← hs.toNat_next hn]
      exact UInt64.toNat_lt _
    · exact EventGraph.insert_isOk_iff.2 (.inr fun hc => hn ((hs.conflict_iff hac hd he).1 hc))

section Sample

/-- A remote event with the greatest clock, and the local creation that follows it. -/
def spentTable : EventTable where
  bodies :=
    [⟨[], 5, clockMax, .custom "mallory" []⟩,
     ⟨[idAt 0], 10, 0, .ticket (.created "T-aaaaaaaa" "printer" "on fire" .high "alice")⟩]

/-- The engine that has taken the remote event. -/
def spent : Reached spentTable := (Reached.start spentTable).after (.applyRemoteObject (objectAt alice 0 5))

/-- One remote event blocks local mutations: the next clock wraps to zero and the creation is refused. -/
theorem append_blocked :
    IdealIds spentTable.inPlay ∧ Acyclic spentTable.inPlay ∧ Reach spentTable.env spentTable.inPlay spent.engine ∧
    spent.engine.graph.nextLamport spent.engine.graph.heads.toVec = 0 ∧
    ((perform spentTable.env diskOk (.createTicket "aaaaaaaa" 10 "printer" "on fire" .high "alice")
      spent.engine).1.toOption = none) :=
  ⟨spentTable.idealIds, spentTable.acyclic, spent.reach, by decide +kernel, by decide +kernel⟩

/-- The theorem at the engine that has taken the event: it has the greatest clock, and appends are not valid. -/
theorem append_valid_iff_spent :
    let s := spent.engine
    (∃ a ∈ s.graph.events, a.lamport = clockMax) ∧
    ¬ ((s.graph.maxLamport s.graph.heads.toVec).toNat + 1 < 2 ^ 64 ∧
      (∀ a ∈ s.graph.events, a.lamport < s.graph.nextLamport s.graph.heads.toVec) ∧
      ∀ te ts e obj, draft spentTable.env te ts s = .ok (e, obj) → e ∈ spentTable.inPlay →
        (s.graph.insert e).1 = .ok ()) := by
  have hmax : ∃ a ∈ spent.engine.graph.events, a.lamport = clockMax := by decide +kernel
  refine ⟨hmax, fun hvalid => ?_⟩
  obtain ⟨a, ha, hclock⟩ := hmax
  exact (append_valid_iff spentTable.idealIds spentTable.acyclic spent.reach).1 hvalid a ha hclock

end Sample

end TicketEngine

end Fortiq
