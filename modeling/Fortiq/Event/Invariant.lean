/-
The representation invariant of the causal graph: the child index is exact, the heads are the events
no event names as a parent, and clocks grow along the edges between present events. `insert` keeps it
for every event that does not name itself as a parent. On graphs with the invariant the topological
sort is the sort by `(lamport, timestamp, id)`, and the clock that follows the heads is above every
clock of the graph unless `u64` is exhausted.
-/
import Fortiq.Event.Graph

namespace Fortiq

open KeyOrder

namespace EventGraph

variable {g : EventGraph} {e : Event}

/-! ## Lookup -/

theorem contains_iff {i : ObjectId} : g.contains i = true ↔ ∃ a ∈ g.events, a.id = i := by
  simp [contains]

theorem contains_eq_false {i : ObjectId} : g.contains i = false ↔ ∀ a ∈ g.events, a.id ≠ i := by
  rw [← Bool.not_eq_true, contains_iff]; simp

theorem id_inj {a b : Event} (ha : a ∈ g.events) (hb : b ∈ g.events) (h : a.id = b.id) : a = b :=
  List.inj_on_of_nodup_map g.nodup ha hb h

theorem get_eq_some {i : ObjectId} {a : Event} : g.get i = some a ↔ a ∈ g.events ∧ a.id = i := by
  constructor
  · intro h; exact ⟨List.mem_of_find?_eq_some h, by simpa using List.find?_some h⟩
  · rintro ⟨ha, rfl⟩
    have hs : (g.get a.id).isSome := by rw [get, List.find?_isSome]; exact ⟨a, ha, by simp⟩
    obtain ⟨b, hb⟩ := Option.isSome_iff_exists.1 hs
    have hbm := List.mem_of_find?_eq_some hb
    have hbi : b.id = a.id := by simpa using List.find?_some hb
    rw [hb, id_inj hbm ha hbi]

/-! ## What an insertion does -/

/-- A known parent whose clock is not below the event's, or a known child whose clock is not above. -/
def Conflict (g : EventGraph) (e : Event) : Prop :=
  (∃ a ∈ g.events, a.id ∈ e.parents ∧ e.lamport ≤ a.lamport) ∨
  (∃ a ∈ g.events, a.id ∈ g.childrenOf e.id ∧ a.lamport ≤ e.lamport)

theorem findSome_lookup {l : List ObjectId} {c : Event → Prop} [DecidablePred c] {err : ObjectId → Event → Error} :
    (l.findSome? fun i => match g.get i with
      | some a => if c a then some (err i a) else none
      | none => none) = none ↔ ∀ a ∈ g.events, a.id ∈ l → ¬ c a := by
  rw [List.findSome?_eq_none_iff]
  constructor
  · intro h a ha hal hc
    have := h a.id hal
    rw [get_eq_some.2 ⟨ha, rfl⟩] at this
    simp [hc] at this
  · intro h i hi
    cases hg : g.get i with
    | none => rfl
    | some a =>
      obtain ⟨ha, rfl⟩ := get_eq_some.1 hg
      simp [h a ha hi]

theorem parentViolation_eq_none : g.parentViolation e = none ↔ ∀ a ∈ g.events, a.id ∈ e.parents → ¬ e.lamport ≤ a.lamport :=
  findSome_lookup

theorem childViolation_eq_none :
    g.childViolation e = none ↔ ∀ a ∈ g.events, a.id ∈ g.childrenOf e.id → ¬ a.lamport ≤ e.lamport :=
  findSome_lookup

theorem not_conflict_iff : ¬ g.Conflict e ↔ g.parentViolation e = none ∧ g.childViolation e = none := by
  rw [parentViolation_eq_none, childViolation_eq_none, Conflict, not_or]
  simp only [not_exists, not_and]

/-- The graph an accepted event leaves. -/
structure Pushed (g : EventGraph) (e : Event) (g' : EventGraph) : Prop where
  events : g'.events = g.events ++ [e]
  children : g'.children = registerChild g.children e
  heads : g'.heads.heads =
    let rest := e.parents.foldl OrdSet.remove g.heads.heads
    if ((g'.children.get? e.id).getD []).isEmpty then rest.insert e.id else rest

/-- The violations are messages, never file errors. -/
theorem violation_not_disk {err : Error} (h : g.parentViolation e = some err ∨ g.childViolation e = some err) :
    err.isDisk = false := by
  have key : ∀ (l : List ObjectId) (c : Event → Prop) [DecidablePred c] (t : ObjectId → Event → String),
      (l.findSome? fun i => match g.get i with
        | some a => if c a then some (Error.msg (t i a)) else none
        | none => none) = some err → err.isDisk = false := by
    intro l c _ t h
    obtain ⟨i, -, hi⟩ := List.exists_of_findSome?_eq_some h
    cases hg : g.get i with
    | none => simp [hg] at hi
    | some a =>
      simp only [hg] at hi
      split at hi
      · cases hi; rfl
      · cases hi
  rcases h with h | h
  · exact key _ _ (fun p a => "causal invariant violated: event " ++ e.id.toHex ++ " lamport " ++
      toString e.lamport ++ " <= parent " ++ p.toHex ++ " lamport " ++ toString a.lamport) h
  · exact key _ _ (fun c a => "causal invariant violated: child " ++ c.toHex ++ " lamport " ++
      toString a.lamport ++ " <= event " ++ e.id.toHex ++ " lamport " ++ toString e.lamport) h

/-- Everything an insertion can do. -/
theorem insert_cases (g : EventGraph) (e : Event) :
    (g.contains e.id = true ∧ g.insert e = (.ok (), g)) ∨
    (g.contains e.id = false ∧ g.Conflict e ∧ ∃ err, err.isDisk = false ∧ g.insert e = (.error err, g)) ∨
    (g.contains e.id = false ∧ ¬ g.Conflict e ∧ ∃ g', g.insert e = (.ok (), g') ∧ Pushed g e g') := by
  unfold insert
  by_cases hc : g.contains e.id = true
  · rw [dif_pos hc]; exact .inl ⟨hc, rfl⟩
  · rw [dif_neg hc]
    have hf : g.contains e.id = false := by simpa using hc
    refine .inr ?_
    cases hp : g.parentViolation e with
    | some err =>
      refine .inl ⟨hf, ?_, err, violation_not_disk (.inl hp), rfl⟩
      by_contra hn; rw [(not_conflict_iff.1 hn).1] at hp; cases hp
    | none =>
      cases hch : g.childViolation e with
      | some err =>
        refine .inl ⟨hf, ?_, err, violation_not_disk (.inr hch), rfl⟩
        by_contra hn; rw [(not_conflict_iff.1 hn).2] at hch; cases hch
      | none =>
        refine .inr ⟨hf, not_conflict_iff.2 ⟨hp, hch⟩, _, rfl, rfl, rfl, ?_⟩
        simp only [Heads.fromSet]
        cases (((registerChild g.children e).get? e.id).getD []).isEmpty <;> simp

/-! ## The invariant -/

/-- The representation invariant. -/
structure Inv (g : EventGraph) : Prop where
  children : ∀ p, g.childrenOf p = g.events.flatMap fun e => List.replicate (e.parents.count p) e.id
  heads : ∀ i, i ∈ g.heads.heads ↔ (∃ a ∈ g.events, a.id = i) ∧ ∀ e ∈ g.events, i ∉ e.parents
  mono : ∀ a ∈ g.events, ∀ b ∈ g.events, a.id ∈ b.parents → a.lamport < b.lamport

theorem inv_new : EventGraph.new.Inv :=
  ⟨fun p => by simp [childrenOf, new], fun i => by simp [new, Heads.new], by simp [new]⟩

/-- The ids listed under `p` are those of the events that name `p` as a parent. -/
theorem Inv.mem_childrenOf (h : g.Inv) {p i : ObjectId} : i ∈ g.childrenOf p ↔ ∃ a ∈ g.events, p ∈ a.parents ∧ a.id = i := by
  rw [h.children, List.mem_flatMap]
  refine exists_congr fun a => and_congr_right fun _ => ?_
  rw [List.mem_replicate, ← List.count_pos_iff, Nat.pos_iff_ne_zero]
  exact and_congr_right fun _ => eq_comm

/-- On the invariant, a conflict is an edge to a present event along which the clock does not grow. -/
theorem Inv.conflict_iff (h : g.Inv) : g.Conflict e ↔
    (∃ a ∈ g.events, a.id ∈ e.parents ∧ e.lamport ≤ a.lamport) ∨
    (∃ a ∈ g.events, e.id ∈ a.parents ∧ a.lamport ≤ e.lamport) := by
  unfold Conflict
  refine or_congr_right (exists_congr fun a => and_congr_right fun ha => and_congr_left fun _ => ?_)
  rw [h.mem_childrenOf]
  constructor
  · rintro ⟨b, hb, hp, hba⟩; rwa [← id_inj hb ha hba]
  · intro hp; exact ⟨a, ha, hp, rfl⟩

theorem registerChild_get (m : Std.ExtTreeMap ObjectId (List ObjectId)) (e : Event) (p : ObjectId) :
    ((registerChild m e).get? p).getD [] = (m.get? p).getD [] ++ List.replicate (e.parents.count p) e.id := by
  unfold registerChild
  induction e.parents generalizing m with
  | nil => simp
  | cons q qs ih =>
    rw [List.foldl_cons, ih, List.count_cons]
    by_cases hq : q = p
    · subst hq
      simp only [Std.ExtTreeMap.get?_eq_getElem?, Std.ExtTreeMap.getElem?_insert_self, Option.getD_some,
        beq_self_eq_true, if_true, List.append_assoc, Nat.add_comm _ 1, List.replicate_add]
      rfl
    · simp [Std.ExtTreeMap.getElem?_insert, hq]

/-- An accepted event that does not name itself keeps the invariant. -/
theorem Inv.pushed (h : g.Inv) (hself : e.id ∉ e.parents) (hc : ¬ g.Conflict e) {g' : EventGraph}
    (hp : Pushed g e g') : g'.Inv := by
  have hchild : ∀ p, g'.childrenOf p = g'.events.flatMap fun e => List.replicate (e.parents.count p) e.id := by
    intro p
    rw [hp.events, List.flatMap_append, ← h.children]
    unfold childrenOf
    rw [hp.children, registerChild_get]
    simp
  have hnone : (g'.childrenOf e.id).isEmpty = true ↔ ∀ a ∈ g.events, e.id ∉ a.parents := by
    rw [List.isEmpty_iff, hchild, hp.events, List.flatMap_eq_nil_iff]
    simp only [List.mem_append, List.mem_singleton, List.replicate_eq_nil_iff, List.count_eq_zero]
    constructor
    · intro hn a ha; exact hn a (.inl ha)
    · rintro hn a (ha | rfl); exact hn a ha; exact hself
  refine ⟨hchild, fun i => ?_, ?_⟩
  · have hmem : i ∈ g'.heads.heads ↔
        (i ∈ g.heads.heads ∧ i ∉ e.parents) ∨ (i = e.id ∧ ∀ a ∈ g.events, e.id ∉ a.parents) := by
      rw [hp.heads]
      simp only
      split
      · rename_i hemp
        have := hnone.1 hemp
        rw [OrdSet.mem_insert, OrdSet.mem_foldl_remove]; tauto
      · rename_i hemp
        have := mt hnone.2 hemp
        rw [OrdSet.mem_foldl_remove]; tauto
    rw [hmem, h.heads, hp.events]
    simp only [List.mem_append, List.mem_singleton]
    constructor
    · rintro (⟨⟨⟨a, ha, rfl⟩, hn⟩, hi⟩ | ⟨rfl, hn⟩)
      · refine ⟨⟨a, .inl ha, rfl⟩, ?_⟩
        rintro b (hb | rfl); exact hn b hb; exact hi
      · refine ⟨⟨e, .inr rfl, rfl⟩, ?_⟩
        rintro b (hb | rfl); exact hn b hb; exact hself
    · rintro ⟨⟨a, ha | rfl, rfl⟩, hn⟩
      · exact .inl ⟨⟨⟨a, ha, rfl⟩, fun b hb => hn b (.inl hb)⟩, hn e (.inr rfl)⟩
      · exact .inr ⟨rfl, fun b hb => hn b (.inl hb)⟩
  · rw [h.conflict_iff, not_or] at hc
    simp only [not_exists, not_and, UInt64.not_le] at hc
    rw [hp.events]
    simp only [List.mem_append, List.mem_singleton]
    rintro a (ha | rfl) b (hb | rfl) hab
    · exact h.mono a ha b hb hab
    · exact hc.1 a ha hab
    · exact hc.2 b hb hab
    · exact absurd hab hself

/-- Insertion keeps the invariant, whatever it does. -/
theorem Inv.insert (h : g.Inv) (hself : e.id ∉ e.parents) : (g.insert e).2.Inv := by
  rcases insert_cases g e with ⟨-, he⟩ | ⟨-, -, err, -, he⟩ | ⟨-, hc, g', he, hp⟩
  · rw [he]; exact h
  · rw [he]; exact h
  · rw [he]; exact h.pushed hself hc hp

/-! ## Inserting a list of events -/

/-- Insert events one after the other and ignore the errors. -/
def insertAll (g : EventGraph) (l : List Event) : EventGraph := l.foldl (fun g e => (g.insert e).2) g

@[simp] theorem insertAll_nil (g : EventGraph) : g.insertAll [] = g := rfl

theorem insertAll_cons (g : EventGraph) (e : Event) (l : List Event) :
    g.insertAll (e :: l) = (g.insert e).2.insertAll l := rfl

/-- The events after one insertion: those before, and the event when its id is new and in no conflict. -/
theorem mem_insert {a : Event} : a ∈ (g.insert e).2.events ↔
    a ∈ g.events ∨ (a = e ∧ g.contains e.id = false ∧ ¬ g.Conflict e) := by
  rcases insert_cases g e with ⟨hc, he⟩ | ⟨-, hc, err, -, he⟩ | ⟨hf, hc, g', he, hp⟩
  · rw [he]; simp [hc]
  · rw [he]; simp [hc]
  · rw [he, hp.events]; simp [hf, hc]

/-- An insertion returns an error exactly on a conflict of a new id. -/
theorem insert_isOk_iff : (g.insert e).1 = .ok () ↔ g.contains e.id = true ∨ ¬ g.Conflict e := by
  rcases insert_cases g e with ⟨hc, he⟩ | ⟨hf, hc, err, -, he⟩ | ⟨hf, hc, g', he, -⟩
  · simp [he, hc]
  · simp [he, hc, hf]
  · simp [he, hc]

/-- A refused event leaves the graph as it was. -/
theorem insert_error {err : Error} (h : (g.insert e).1 = .error err) : (g.insert e).2 = g := by
  rcases insert_cases g e with ⟨-, he⟩ | ⟨-, -, err', -, he⟩ | ⟨-, -, g', he, -⟩
  · rw [he]
  · rw [he]
  · rw [he] at h; cases h

/-- What a refusal says: the event is new and conflicts, and the graph is as it was. -/
theorem insert_refused {err : Error} {g' : EventGraph} (h : g.insert e = (.error err, g')) :
    g' = g ∧ g.contains e.id = false ∧ g.Conflict e ∧ err.isDisk = false := by
  rcases insert_cases g e with ⟨-, he⟩ | ⟨hf, hc, err', hdk, he⟩ | ⟨-, -, g'', he, -⟩
  · rw [h] at he; cases he
  · rw [h] at he; cases he; exact ⟨rfl, hf, hc, hdk⟩
  · rw [h] at he; cases he

theorem mem_insertAll_of_mem {a : Event} : ∀ (l : List Event) (g : EventGraph), a ∈ g.events → a ∈ (g.insertAll l).events
  | [], _, h => h
  | _ :: l, _, h => mem_insertAll_of_mem l _ (mem_insert.2 (.inl h))

theorem mem_of_mem_insertAll {a : Event} : ∀ (l : List Event) (g : EventGraph), a ∈ (g.insertAll l).events →
    a ∈ g.events ∨ a ∈ l
  | [], _, h => .inl h
  | e :: l, g, h => by
    rcases mem_of_mem_insertAll l _ h with h | h
    · rcases mem_insert.1 h with h | ⟨rfl, -⟩
      · exact .inl h
      · exact .inr (List.mem_cons_self ..)
    · exact .inr (List.mem_cons_of_mem _ h)

theorem Inv.insertAll : ∀ (l : List Event) {g : EventGraph}, g.Inv → (∀ e ∈ l, e.id ∉ e.parents) → (g.insertAll l).Inv
  | [], _, h, _ => h
  | e :: l, _, h, hself => Inv.insertAll l (h.insert (hself e (List.mem_cons_self ..)))
      fun a ha => hself a (List.mem_cons_of_mem _ ha)

/-- The events of a list that are new and not refused, each at its turn. -/
def accepted : EventGraph → List Event → List Event
  | _, [] => []
  | g, e :: l =>
    if g.contains e.id = false ∧ (g.insert e).1 = .ok () then e :: accepted (g.insert e).2 l
    else accepted (g.insert e).2 l

theorem insertAll_events : ∀ (l : List Event) (g : EventGraph), (g.insertAll l).events = g.events ++ g.accepted l
  | [], g => by simp [accepted]
  | e :: l, g => by
    rw [insertAll_cons, insertAll_events l, accepted]
    rcases insert_cases g e with ⟨hc, he⟩ | ⟨hf, -, err, -, he⟩ | ⟨hf, -, g', he, hp⟩
    · simp [hc, he]
    · simp [he]
    · simp [hf, he, hp.events]

/-! ## The deterministic order -/

theorem sortKey_lt {a b : Event} (h : a.lamport < b.lamport) : a.sortKey < b.sortKey :=
  Prod.Lex.toLex_lt_toLex.2 (.inl (UInt64.lt_iff_toNat_lt.1 h))

theorem sortKey_id {a b : Event} (h : a.sortKey = b.sortKey) : a.id = b.id := by
  have h1 : (a.lamport.toNat, toLex (a.timestamp.toNat, a.id)) = (b.lamport.toNat, toLex (b.timestamp.toNat, b.id)) :=
    toLex.injective h
  have h2 : (a.timestamp.toNat, a.id) = (b.timestamp.toNat, b.id) := toLex.injective (Prod.mk.inj h1).2
  exact (Prod.mk.inj h2).2

theorem nodup_sortKey (g : EventGraph) : (g.events.map Event.sortKey).Nodup :=
  List.Nodup.map_on (fun _ ha _ hb h => id_inj ha hb (sortKey_id h)) (List.Nodup.of_map _ g.nodup)

theorem count_flatMap_replicate {p : ObjectId} {a : Event} : ∀ (l : List Event), (l.map Event.id).Nodup → a ∈ l →
    (l.flatMap fun e => List.replicate (e.parents.count p) e.id).count a.id = a.parents.count p
  | b :: l, hn, ha => by
    rw [List.map_cons, List.nodup_cons] at hn
    rw [List.flatMap_cons, List.count_append, List.count_replicate]
    have hzero : ∀ x : ObjectId, x ∉ l.map Event.id →
        (l.flatMap fun e => List.replicate (e.parents.count p) e.id).count x = 0 := by
      intro x hx
      rw [List.count_eq_zero, List.mem_flatMap]
      rintro ⟨c, hc, hxc⟩
      exact hx ((List.mem_replicate.1 hxc).2 ▸ List.mem_map_of_mem hc)
    rcases List.mem_cons.1 ha with rfl | ha
    · simp [hzero _ hn.1]
    · have hne : b.id ≠ a.id := fun h => hn.1 (h ▸ List.mem_map_of_mem ha)
      rw [count_flatMap_replicate l hn.2 ha]
      simp [hne]

theorem Inv.index_wf (h : g.Inv) : g.index.WF where
  ids := g.nodup
  keys := nodup_sortKey g
  children := fun i a ha => by
    show (g.childrenOf i).count a.id = a.parents.count i
    rw [h.children]; exact count_flatMap_replicate g.events g.nodup ha
  mono := fun a ha b hb hab => sortKey_lt (h.mono a ha b hb hab)

/-- The topological sort is the key sort. -/
theorem Inv.topologicalSort_eq (h : g.Inv) : g.topologicalSort = keySort Event.sortKey g.events :=
  Kahn.sort_eq_keySort h.index_wf

/-! ## The clock after the heads -/

theorem foldl_max_spec (g : EventGraph) : ∀ (ps : List ObjectId) (m : UInt64),
    let r := ps.foldl (fun m p => match g.get p with
      | some a => if a.lamport > m then a.lamport else m
      | none => m) m
    m ≤ r ∧ (∀ a ∈ g.events, a.id ∈ ps → a.lamport ≤ r) ∧ (r = m ∨ ∃ a ∈ g.events, a.id ∈ ps ∧ a.lamport = r)
  | [], m => by simp
  | p :: ps, m => by
    simp only [List.foldl_cons]
    cases hg : g.get p with
    | none =>
      obtain ⟨h1, h2, h3⟩ := foldl_max_spec g ps m
      refine ⟨h1, fun a ha hap => ?_, h3.imp_right fun ⟨a, ha, hap, hr⟩ => ⟨a, ha, List.mem_cons_of_mem _ hap, hr⟩⟩
      rcases List.mem_cons.1 hap with rfl | hap
      · rw [get_eq_some.2 ⟨ha, rfl⟩] at hg; cases hg
      · exact h2 a ha hap
    | some b =>
      obtain ⟨hb, rfl⟩ := get_eq_some.1 hg
      simp only
      have hm : m ≤ (if b.lamport > m then b.lamport else m) ∧ b.lamport ≤ (if b.lamport > m then b.lamport else m) := by
        split
        · rename_i hlt; exact ⟨UInt64.le_of_lt hlt, UInt64.le_refl _⟩
        · rename_i hlt; exact ⟨UInt64.le_refl _, UInt64.not_lt.1 hlt⟩
      obtain ⟨h1, h2, h3⟩ := foldl_max_spec g ps (if b.lamport > m then b.lamport else m)
      refine ⟨UInt64.le_trans hm.1 h1, fun a ha hap => ?_, ?_⟩
      · rcases List.mem_cons.1 hap with hab | hap
        · rw [id_inj ha hb hab]; exact UInt64.le_trans hm.2 h1
        · exact h2 a ha hap
      · rcases h3 with h3 | ⟨a, ha, hap, hr⟩
        · rw [h3]
          split
          · exact .inr ⟨b, hb, List.mem_cons_self .., rfl⟩
          · exact .inl rfl
        · exact .inr ⟨a, ha, List.mem_cons_of_mem _ hap, hr⟩

/-- The clock of a known id is at most the maximum over a list that has it. -/
theorem le_maxLamport {a : Event} {ps : List ObjectId} (ha : a ∈ g.events) (hp : a.id ∈ ps) :
    a.lamport ≤ g.maxLamport ps :=
  (foldl_max_spec g ps 0).2.1 a ha hp

/-- The maximum is zero or the clock of an event of the list. -/
theorem maxLamport_attained (g : EventGraph) (ps : List ObjectId) :
    g.maxLamport ps = 0 ∨ ∃ a ∈ g.events, a.id ∈ ps ∧ a.lamport = g.maxLamport ps :=
  (foldl_max_spec g ps 0).2.2

theorem exists_max_lamport (l : List Event) (hl : l ≠ []) : ∃ a ∈ l, ∀ b ∈ l, b.lamport ≤ a.lamport := by
  obtain ⟨a, ha, hmax⟩ := l.toFinset.exists_max_image (fun e => e.lamport.toNat)
    (by obtain ⟨x, hx⟩ := List.exists_mem_of_ne_nil l hl; exact ⟨x, List.mem_toFinset.2 hx⟩)
  refine ⟨a, List.mem_toFinset.1 ha, fun b hb => UInt64.le_iff_toNat_le.2 (hmax b (List.mem_toFinset.2 hb))⟩

/-- A greatest clock belongs to a head: a child of its event would have a greater one. -/
theorem Inv.exists_max_head (h : g.Inv) (hne : g.events ≠ []) :
    ∃ a ∈ g.events, a.id ∈ g.heads.toVec ∧ ∀ b ∈ g.events, b.lamport ≤ a.lamport := by
  obtain ⟨a, ha, hmax⟩ := exists_max_lamport g.events hne
  refine ⟨a, ha, (h.heads a.id).2 ⟨⟨a, ha, rfl⟩, fun b hb hab => ?_⟩, hmax⟩
  exact absurd (h.mono a ha b hb hab) (UInt64.not_lt.2 (hmax b hb))

/-- The heads dominate the graph. -/
theorem Inv.le_maxLamport_heads (h : g.Inv) {a : Event} (ha : a ∈ g.events) :
    a.lamport ≤ g.maxLamport g.heads.toVec := by
  obtain ⟨m, hm, hmh, hmax⟩ := h.exists_max_head (List.ne_nil_of_mem ha)
  exact UInt64.le_trans (hmax a ha) (le_maxLamport hm hmh)

/-- Heads are events of the graph. -/
theorem Inv.mem_heads (h : g.Inv) {i : ObjectId} (hi : i ∈ g.heads.toVec) : ∃ a ∈ g.events, a.id = i :=
  ((h.heads i).1 hi).1

end EventGraph

end Fortiq
