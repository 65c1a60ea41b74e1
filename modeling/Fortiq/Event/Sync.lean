/-
Synchronisation by heads. The heads of a graph are its events without a child, and clocks grow along the
edges, so from every event a chain of children leads to a head. A graph that has the heads of another and
the parents of what it has therefore has the whole other graph; asking a peer for its heads and then for
missing parents loses nothing when no parent is missing any more.
-/
import Fortiq.Event.Order
import Fortiq.Event.Table

namespace Fortiq

namespace EventGraph

variable {U : Set Event} {g g' remote : EventGraph}

/-! ## Graphs made by insertions -/

/-- The graph is made from the empty one by insertions of events in play, refused ones included. -/
def Built (U : Set Event) (g : EventGraph) : Prop := ∃ l : List Event, (∀ e ∈ l, e ∈ U) ∧ g = EventGraph.new.insertAll l

theorem insertAll_append (g : EventGraph) (l m : List Event) : g.insertAll (l ++ m) = (g.insertAll l).insertAll m :=
  List.foldl_append

theorem Built.inv (hU : IdealIds U) (h : Built U g) : g.Inv := by
  obtain ⟨l, hl, rfl⟩ := h
  exact inv_new.insertAll l fun e he => hU.noSelf e (hl e he)

theorem Built.mem (h : Built U g) {e : Event} (he : e ∈ g.events) : e ∈ U := by
  obtain ⟨l, hl, rfl⟩ := h
  rcases mem_of_mem_insertAll l _ he with he | he
  · cases he
  · exact hl e he

theorem Built.insertAll (h : Built U g) {l : List Event} (hl : ∀ e ∈ l, e ∈ U) : Built U (g.insertAll l) := by
  obtain ⟨l₀, hl₀, rfl⟩ := h
  refine ⟨l₀ ++ l, fun e he => ?_, (insertAll_append _ l₀ l).symm⟩
  rcases List.mem_append.1 he with he | he
  · exact hl₀ e he
  · exact hl e he

/-! ## From the heads to every event -/

theorem mem_missingParents {i : ObjectId} :
    i ∈ g.missingParents ↔ (∃ e ∈ g.events, i ∈ e.parents) ∧ g.contains i = false := by
  simp [missingParents]

theorem isCausallyComplete_iff : g.isCausallyComplete = true ↔ g.missingParents = [] := List.isEmpty_iff

/-- What holds of the heads, and of the parents of what it holds of, holds of every event. -/
theorem Inv.forall_of_heads (h : g.Inv) {P : Event → Prop} (hhead : ∀ e ∈ g.events, e.id ∈ g.heads.toVec → P e)
    (hparent : ∀ p ∈ g.events, ∀ c ∈ g.events, p.id ∈ c.parents → P c → P p) : ∀ e ∈ g.events, P e := by
  -- the induction is on the room above the clock: a child has less
  have hroom : ∀ (n : Nat), ∀ e ∈ g.events, 2 ^ 64 - e.lamport.toNat ≤ n → P e := by
    intro n
    induction n with
    | zero => intro e _ hn; have := e.lamport.toNat_lt; omega
    | succ n ih =>
      intro e he hn
      by_cases hh : e.id ∈ g.heads.toVec
      · exact hhead e he hh
      · have hchild : ∃ c ∈ g.events, e.id ∈ c.parents := by
          by_contra hno
          exact hh ((h.heads e.id).2 ⟨⟨e, he, rfl⟩, fun c hc hec => hno ⟨c, hc, hec⟩⟩)
        obtain ⟨c, hc, hec⟩ := hchild
        have hlt := UInt64.lt_iff_toNat_lt.1 (h.mono e he c hc hec)
        have := c.lamport.toNat_lt
        exact hparent e he c hc hec (ih c hc (by omega))
  exact fun e he => hroom _ e he le_rfl

/-- A graph that has the heads of another lacks one of its events exactly if it misses a parent the other has. -/
theorem Built.subset_iff (hU : IdealIds U) (hr : Built U remote) (h : Built U g)
    (hheads : ∀ i ∈ remote.heads.toVec, g.contains i = true) :
    (∀ e ∈ remote.events, e ∈ g.events) ↔ ∀ p ∈ g.missingParents, remote.contains p = false := by
  have hmem : ∀ {e : Event}, e ∈ remote.events → g.contains e.id = true → e ∈ g.events := by
    intro e he hc
    obtain ⟨a, ha, hid⟩ := contains_iff.1 hc
    exact hU.inj a (h.mem ha) e (hr.mem he) hid ▸ ha
  constructor
  · intro hsub p hp
    rw [contains_eq_false]
    rintro e he rfl
    exact contains_eq_false.1 (mem_missingParents.1 hp).2 e (hsub e he) rfl
  · intro hnone
    refine (hr.inv hU).forall_of_heads (fun e he hh => hmem he (hheads e.id hh)) fun p hp c _ hpc hc => hmem hp ?_
    by_contra hno
    have hmiss : p.id ∈ g.missingParents := mem_missingParents.2 ⟨⟨c, hc, hpc⟩, Bool.eq_false_iff.2 hno⟩
    exact contains_eq_false.1 (hnone p.id hmiss) p hp rfl

/-! ## Asking a peer -/

/-- One request: the peer answers with the events it has among the ids, and they are inserted. -/
def pull (remote g : EventGraph) (ids : List ObjectId) : EventGraph := g.insertAll (ids.filterMap remote.get)

/-- One more round: what is missing is asked for. -/
def pullMissing (remote g : EventGraph) : EventGraph := pull remote g g.missingParents

/-- The remote heads, then rounds of missing parents. -/
def antiEntropy (remote g : EventGraph) (rounds : Nat) : EventGraph :=
  (pullMissing remote)^[rounds] (pull remote g remote.heads.toVec)

theorem mem_filterMap_get {ids : List ObjectId} {e : Event} :
    e ∈ ids.filterMap remote.get ↔ e ∈ remote.events ∧ e.id ∈ ids := by
  simp only [List.mem_filterMap, get_eq_some]
  constructor
  · rintro ⟨i, hi, he, rfl⟩; exact ⟨he, hi⟩
  · rintro ⟨he, hi⟩; exact ⟨e.id, hi, he, rfl⟩

theorem Built.pull (hr : Built U remote) (h : Built U g) (ids : List ObjectId) : Built U (pull remote g ids) :=
  h.insertAll fun _ he => hr.mem (mem_filterMap_get.1 he).1

theorem antiEntropy_succ (remote g : EventGraph) (n : Nat) :
    antiEntropy remote g (n + 1) = pullMissing remote (antiEntropy remote g n) := Function.iterate_succ_apply' ..

theorem Built.antiEntropy (hr : Built U remote) (h : Built U g) : ∀ n, Built U (antiEntropy remote g n)
  | 0 => hr.pull h _
  | n + 1 => by rw [antiEntropy_succ]; exact hr.pull (hr.antiEntropy h n) _

/-- Heads and completeness are full synchronisation. A graph with the heads of another and no missing parent has
all its events; and a loop that asks for the heads and then for missing parents, once the heads are in, has lost
nothing when no parent is missing, and has something to ask for as long as an event is not there. -/
theorem heads_complete (hU : IdealIds U) (hr : Built U remote) (h : Built U g) :
    ((∀ i ∈ remote.heads.toVec, g.contains i = true) → g.isCausallyComplete = true →
      ∀ e ∈ remote.events, e ∈ g.events) ∧
    ∀ n, (∀ i ∈ remote.heads.toVec, (antiEntropy remote g n).contains i = true) →
      ((antiEntropy remote g n).missingParents = [] → ∀ e ∈ remote.events, e ∈ (antiEntropy remote g n).events) ∧
      ((∃ e ∈ remote.events, e ∉ (antiEntropy remote g n).events) →
        ∃ p ∈ (antiEntropy remote g n).missingParents, remote.contains p = true) := by
  refine ⟨fun hheads hc => (hr.subset_iff hU h hheads).2 fun p hp => ?_, fun n hheads => ⟨fun hnil => ?_, ?_⟩⟩
  · rw [isCausallyComplete_iff.1 hc] at hp; cases hp
  · refine (hr.subset_iff hU (hr.antiEntropy h n) hheads).2 fun p hp => ?_
    rw [hnil] at hp; cases hp
  · rintro ⟨e, he, hn⟩
    by_contra hno
    refine hn ((hr.subset_iff hU (hr.antiEntropy h n) hheads).2 (fun p hp => ?_) e he)
    exact Bool.eq_false_iff.2 fun hc => hno ⟨p, hp, hc⟩

/-! ## The loop ends -/

section Ends

variable (hU : IdealIds U) (hr : Built U remote) (h : Built U g)
  (hcons : Consistent {e | e ∈ g.events ∨ e ∈ remote.events})
include hU hr h hcons

/-- Events that contradict nothing are all taken. -/
theorem Built.mem_pull (ids : List ObjectId) {e : Event} :
    e ∈ (EventGraph.pull remote g ids).events ↔ e ∈ g.events ∨ (e ∈ remote.events ∧ e.id ∈ ids) := by
  have hsub : ∀ {a}, a ∈ ids.filterMap remote.get → a ∈ remote.events := fun ha => (mem_filterMap_get.1 ha).1
  rw [EventGraph.pull, (h.inv hU).insertAll_consistent hU (fun _ => h.mem) (fun _ ha => hr.mem (hsub ha)),
    mem_filterMap_get]
  exact fun p hp c hc => hcons p (hp.imp_right hsub) c (hc.imp_right hsub)

/-- A round keeps to the events of the two graphs. -/
theorem Built.pull_consistent (ids : List ObjectId) :
    Consistent {e | e ∈ (EventGraph.pull remote g ids).events ∨ e ∈ remote.events} := by
  have hsub : ∀ {e}, e ∈ (EventGraph.pull remote g ids).events ∨ e ∈ remote.events → e ∈ g.events ∨ e ∈ remote.events := by
    rintro e (he | he)
    · exact ((hr.mem_pull hU h hcons ids).1 he).imp_right And.left
    · exact .inr he
  exact fun p hp c hc => hcons p (hsub hp) c (hsub hc)

end Ends

/-- How many events of the peer are not there. -/
def lacking (remote g : EventGraph) : Nat := (remote.events.filter fun e => !g.contains e.id).length

theorem lacking_pos_of_missing {p : ObjectId} (hm : g.contains p = false) (hr : remote.contains p = true) :
    0 < lacking remote g := by
  obtain ⟨e, he, rfl⟩ := contains_iff.1 hr
  exact List.length_pos_of_mem (List.mem_filter.2 ⟨he, by rw [hm]; rfl⟩)

/-- More events, less lacking; and less by one at least if an event of the peer is new. -/
theorem lacking_lt (hsub : ∀ e ∈ g.events, e ∈ g'.events) {e : Event} (he : e ∈ remote.events)
    (hn : g.contains e.id = false) (hin : e ∈ g'.events) : lacking remote g' < lacking remote g := by
  have hle : ∀ x : Event, (!g'.contains x.id) = true → (!g.contains x.id) = true := by
    intro x hx
    rw [Bool.not_eq_true'] at hx ⊢
    rw [contains_eq_false] at hx ⊢
    exact fun a ha => hx a (hsub a ha)
  have hsl : (remote.events.filter fun x => !g'.contains x.id).Sublist (remote.events.filter fun x => !g.contains x.id) :=
    List.monotone_filter_right _ hle
  refine lt_of_le_of_ne hsl.length_le fun heq => ?_
  have hmem : e ∈ remote.events.filter fun x => !g'.contains x.id := by
    rw [hsl.eq_of_length heq]
    exact List.mem_filter.2 ⟨he, by rw [hn]; rfl⟩
  rw [List.mem_filter, contains_iff.2 ⟨e, hin, rfl⟩] at hmem
  exact absurd hmem.2 (by simp)

/-- Where no event contradicts another, as many rounds as the peer has events bring everything, so that only
parents the peer does not have are missing. -/
theorem antiEntropy_ends (hU : IdealIds U) (hr : Built U remote) (h : Built U g)
    (hcons : Consistent {e | e ∈ g.events ∨ e ∈ remote.events}) :
    ∀ e ∈ remote.events, e ∈ (antiEntropy remote g remote.events.length).events := by
  -- after each round the heads are in, and one event less is lacking as long as one is
  have hround : ∀ n, Consistent {e | e ∈ (antiEntropy remote g n).events ∨ e ∈ remote.events} ∧
      (∀ i ∈ remote.heads.toVec, (antiEntropy remote g n).contains i = true) ∧
      lacking remote (antiEntropy remote g n) ≤ remote.events.length - n := by
    intro n
    induction n with
    | zero =>
      refine ⟨hr.pull_consistent hU h hcons _, fun i hi => ?_, List.length_filter_le _ _⟩
      obtain ⟨a, ha, rfl⟩ := (hr.inv hU).mem_heads hi
      exact contains_iff.2 ⟨a, (hr.mem_pull hU h hcons _).2 (.inr ⟨ha, hi⟩), rfl⟩
    | succ n ih =>
      obtain ⟨hc, hheads, hle⟩ := ih
      have hb := hr.antiEntropy h n
      have hgrow : ∀ e ∈ (antiEntropy remote g n).events, e ∈ (antiEntropy remote g (n + 1)).events := by
        intro e he
        rw [antiEntropy_succ]
        exact mem_insertAll_of_mem _ _ he
      refine ⟨by rw [antiEntropy_succ]; exact hr.pull_consistent hU hb hc _, fun i hi => ?_, ?_⟩
      · obtain ⟨a, ha, hid⟩ := contains_iff.1 (hheads i hi)
        exact contains_iff.2 ⟨a, hgrow a ha, hid⟩
      · by_cases hall : ∀ e ∈ remote.events, e ∈ (antiEntropy remote g n).events
        · have hzero : lacking remote (antiEntropy remote g (n + 1)) = 0 := by
            rw [lacking, List.length_eq_zero_iff, List.filter_eq_nil_iff]
            intro e he
            simp [contains_iff.2 ⟨e, hgrow e (hall e he), rfl⟩]
          omega
        · have hex : ∃ p ∈ (antiEntropy remote g n).missingParents, remote.contains p = true := by
            by_contra hno
            exact hall ((hr.subset_iff hU hb hheads).2 fun p hp => Bool.eq_false_iff.2 fun hp' => hno ⟨p, hp, hp'⟩)
          obtain ⟨p, hp, hpr⟩ := hex
          have hpos := lacking_pos_of_missing (mem_missingParents.1 hp).2 hpr
          obtain ⟨e, he, rfl⟩ := contains_iff.1 hpr
          have hin : e ∈ (antiEntropy remote g (n + 1)).events := by
            rw [antiEntropy_succ]
            exact (hr.mem_pull hU hb hc _).2 (.inr ⟨he, hp⟩)
          have := lacking_lt hgrow he (mem_missingParents.1 hp).2 hin
          omega
  obtain ⟨-, -, hle⟩ := hround remote.events.length
  intro e he
  have hnil : remote.events.filter (fun x => !(antiEntropy remote g remote.events.length).contains x.id) = [] := by
    rw [← List.length_eq_zero_iff]
    have : lacking remote (antiEntropy remote g remote.events.length) = 0 := by omega
    exact this
  have hc : (antiEntropy remote g remote.events.length).contains e.id = true := by
    simpa using List.filter_eq_nil_iff.1 hnil e he
  obtain ⟨a, ha, hid⟩ := contains_iff.1 hc
  exact hU.inj a ((hr.antiEntropy h _).mem ha) e (hr.mem he) hid ▸ ha

section Sample

/-- Two branches over one creation, the first one longer. -/
def forkTable : EventTable where
  bodies :=
    [⟨[], 10, 1, .ticket (.created "T-aaaaaaaa" "printer" "on fire" .high "alice")⟩,
     ⟨[idAt 0], 20, 2, .ticket (.chatMessageAdded "T-aaaaaaaa" "m1" "bob" "hello" 20)⟩,
     ⟨[idAt 0], 21, 2, .ticket (.chatMessageAdded "T-aaaaaaaa" "m2" "bob" "hi" 21)⟩,
     ⟨[idAt 1], 30, 3, .ticket (.statusChanged "T-aaaaaaaa" .inProgress "alice" none)⟩]

/-- The peer has both branches, out of order; the graph starts with the creation only. -/
def forkRemote : EventGraph := EventGraph.new.insertAll forkTable.events.reverse

def forkLocal : EventGraph := EventGraph.new.insertAll (forkTable.events.take 1)

theorem built_forkRemote : Built forkTable.inPlay forkRemote := ⟨_, fun _ he => List.mem_reverse.1 he, rfl⟩

theorem built_forkLocal : Built forkTable.inPlay forkLocal := ⟨_, fun _ he => List.mem_of_mem_take he, rfl⟩

/-- After the heads one parent is missing; one round later nothing is, and every event is there. -/
theorem heads_complete_fork :
    (antiEntropy forkRemote forkLocal 0).missingParents = [idAt 1] ∧
    (antiEntropy forkRemote forkLocal 1).missingParents = [] ∧
    ∀ e ∈ forkRemote.events, e ∈ (antiEntropy forkRemote forkLocal 1).events := by
  refine ⟨by decide +kernel, by decide +kernel, ?_⟩
  exact ((heads_complete forkTable.idealIds built_forkRemote built_forkLocal).2 1 (by decide +kernel)).1
    (by decide +kernel)

end Sample

end EventGraph

end Fortiq
