/-
Kahn's topological sort with an ordered ready set, over any nodes with ids, parent lists, a child
index and a key. When the child index is exact and keys grow strictly along the edges between
present nodes, the sort is the sort by the key: the loop ends with an empty ready set, the
fallback for leftover nodes is not taken, and the result depends on the nodes only.

The proof follows the loop along the key sort: after `k` rounds the emitted nodes are its first
`k`, the counters hold the parents not yet emitted, and the ready set is the rest of the key sort
with the counters filtered at zero, whose head is the least node not yet emitted.
-/
import Fortiq.Lib.KeyOrder

open KeyOrder

/-- Nodes as an index holds them: an id, the ids of the parents and a key for each node, and for
each id the ids of the nodes that name it as a parent. -/
structure Kahn (α ι κ : Type*) where
  nodes : List α
  id : α → ι
  parents : α → List ι
  children : ι → List ι
  key : α → κ

namespace Kahn

variable {α ι κ : Type*} [DecidableEq ι] [LinearOrder κ] (G : Kahn α ι κ)

/-! ## The algorithm -/

/-- The node with an id. -/
def get (i : ι) : Option α := G.nodes.find? fun a => G.id a = i

/-- The number of parents of a node that are present, with multiplicity. -/
def inDegree (a : α) : Nat := ((G.parents a).filter fun p => (G.get p).isSome).length

/-- The counters the loop starts with: one for each present node. -/
def inDegrees : ι → Option Nat := fun i => (G.get i).map G.inDegree

/-- The nodes with a zero counter, as an ordered set. -/
def ready : List α :=
  G.nodes.foldl (fun r a => if G.inDegrees (G.id a) = some 0 then insertKey G.key a r else r) []

/-- Decrement the counter of each child; a child whose counter reaches zero becomes ready. -/
def relax : List ι → (ι → Option Nat) → List α → (ι → Option Nat) × List α
  | [], deg, ready => (deg, ready)
  | c :: cs, deg, ready =>
    match deg c with
    | none => relax cs deg ready
    | some d =>
      let deg' := Function.update deg c (some (d - 1))
      if d - 1 = 0 then
        match G.get c with
        | some a => relax cs deg' (insertKey G.key a ready)
        | none => relax cs deg' ready
      else relax cs deg' ready

/-- Pop the least ready node, emit it and relax its children, until none is ready; the second
component is what is still ready when the fuel runs out. -/
def loop : Nat → (ι → Option Nat) → List α → List α → List α × List α
  | 0, _, ready, result => (result, ready)
  | _ + 1, _, [], result => (result, [])
  | fuel + 1, deg, a :: ready, result =>
    loop fuel (G.relax (G.children (G.id a)) deg ready).1 (G.relax (G.children (G.id a)) deg ready).2 (result ++ [a])

/-- The nodes the loop emits, with fuel for one round a node. -/
def emitted : List α := (G.loop G.nodes.length G.inDegrees G.ready []).1

/-- The emitted nodes, then those the loop did not reach, sorted by key. -/
def sort : List α :=
  if G.emitted.length < G.nodes.length then
    G.emitted ++ keySort G.key (G.nodes.filter fun a => G.id a ∉ G.emitted.map G.id)
  else G.emitted

/-! ## Well-formed indexes -/

/-- Ids and keys are unique, the child index is exact, and keys grow along present edges. -/
structure WF : Prop where
  ids : (G.nodes.map G.id).Nodup
  keys : (G.nodes.map G.key).Nodup
  children : ∀ i, ∀ a ∈ G.nodes, (G.children i).count (G.id a) = (G.parents a).count i
  mono : ∀ a ∈ G.nodes, ∀ b ∈ G.nodes, G.id a ∈ G.parents b → G.key a < G.key b

variable {G}

theorem WF.id_inj (h : G.WF) {a b : α} (ha : a ∈ G.nodes) (hb : b ∈ G.nodes) (hab : G.id a = G.id b) : a = b :=
  List.inj_on_of_nodup_map h.ids ha hb hab

theorem WF.key_inj (h : G.WF) {a b : α} (ha : a ∈ G.nodes) (hb : b ∈ G.nodes) (hab : G.key a = G.key b) : a = b :=
  List.inj_on_of_nodup_map h.keys ha hb hab

omit [LinearOrder κ] in
theorem mem_of_get {i : ι} {a : α} (h : G.get i = some a) : a ∈ G.nodes ∧ G.id a = i :=
  ⟨List.mem_of_find?_eq_some h, by simpa using List.find?_some h⟩

omit [LinearOrder κ] in
theorem get_isSome {i : ι} : (G.get i).isSome ↔ i ∈ G.nodes.map G.id := by
  simp [get, List.find?_isSome]

theorem get_id (h : G.WF) {a : α} (ha : a ∈ G.nodes) : G.get (G.id a) = some a := by
  have hs : (G.get (G.id a)).isSome := get_isSome.2 (List.mem_map_of_mem ha)
  obtain ⟨b, hb⟩ := Option.isSome_iff_exists.1 hs
  obtain ⟨hbn, hbi⟩ := mem_of_get hb
  rw [hb, h.id_inj hbn ha hbi]

/-! ## Relaxing the children -/

/-- Insertion of a node into an ordered set of nodes. -/
theorem mem_insertKey_node (h : G.WF) {r : List α} (hr : ∀ x ∈ r, x ∈ G.nodes) {a x : α} (ha : a ∈ G.nodes) :
    x ∈ insertKey G.key a r ↔ x = a ∨ x ∈ r := by
  constructor
  · exact mem_of_mem_insertKey
  · rintro (rfl | hx)
    · exact mem_insertKey_self fun b hb hk => h.key_inj (hr b hb) ha hk
    · exact mem_insertKey_of_mem hx

/-- What relaxing a list of children does to counters `D` large enough for it. -/
structure RelaxSpec (G : Kahn α ι κ) (cs : List ι) (D : α → Nat) (ready : List α)
    (out : (ι → Option Nat) × List α) : Prop where
  deg : ∀ a ∈ G.nodes, out.1 (G.id a) = some (D a - cs.count (G.id a))
  none : ∀ i, G.get i = none → out.1 i = none
  nodes : ∀ x ∈ out.2, x ∈ G.nodes
  mem : ∀ x, x ∈ out.2 ↔ x ∈ ready ∨ (x ∈ G.nodes ∧ G.id x ∈ cs ∧ D x = cs.count (G.id x))
  inc : Increasing G.key out.2

/-- The counters after that of `b` has gone down by one. -/
def lower (G : Kahn α ι κ) (D : α → Nat) (b a : α) : Nat := if G.id a = G.id b then D b - 1 else D a

omit [LinearOrder κ] in
@[simp] theorem lower_self (D : α → Nat) (b : α) : G.lower D b b = D b - 1 := if_pos rfl

omit [LinearOrder κ] in
theorem lower_of_ne {D : α → Nat} {a b : α} (h : G.id a ≠ G.id b) : G.lower D b a = D a := if_neg h

section Lower

variable {cs : List ι} {deg : ι → Option Nat} {D : α → Nat} {b : α} (h : G.WF) (hb : b ∈ G.nodes)
include h hb

theorem update_lower (hD : ∀ a ∈ G.nodes, deg (G.id a) = some (D a)) :
    ∀ a ∈ G.nodes, Function.update deg (G.id b) (some (D b - 1)) (G.id a) = some (G.lower D b a) := by
  intro a ha
  by_cases hab : G.id a = G.id b
  · rw [h.id_inj ha hb hab, Function.update_self, lower_self]
  · rw [Function.update_of_ne hab, hD a ha, lower_of_ne hab]

theorem update_none (d : Option Nat) (hn : ∀ i, G.get i = none → deg i = none) :
    ∀ i, G.get i = none → Function.update deg (G.id b) d i = none := by
  intro i hin
  have hib : i ≠ G.id b := by rintro rfl; rw [get_id h hb] at hin; cases hin
  rw [Function.update_of_ne hib]; exact hn i hin

theorem count_le_lower (hle : ∀ a ∈ G.nodes, (G.id b :: cs).count (G.id a) ≤ D a) :
    ∀ a ∈ G.nodes, cs.count (G.id a) ≤ G.lower D b a := by
  intro a ha
  have hcount := hle a ha
  by_cases hab : G.id a = G.id b
  · rw [h.id_inj ha hb hab, List.count_cons_self] at hcount
    rw [h.id_inj ha hb hab, lower_self]; omega
  · rwa [List.count_cons_of_ne (Ne.symm hab), ← lower_of_ne (D := D) hab] at hcount

theorem lower_sub_count : ∀ a ∈ G.nodes,
    G.lower D b a - cs.count (G.id a) = D a - (G.id b :: cs).count (G.id a) := by
  intro a ha
  by_cases hab : G.id a = G.id b
  · rw [h.id_inj ha hb hab, lower_self, List.count_cons_self]; omega
  · rw [lower_of_ne hab, List.count_cons_of_ne (Ne.symm hab)]

/-- The nodes that `b` and then `cs` bring to zero. -/
theorem lowered_iff (hle : ∀ a ∈ G.nodes, (G.id b :: cs).count (G.id a) ≤ D a) (x : α) :
    (x = b ∧ D b = 1) ∨ (x ∈ G.nodes ∧ G.id x ∈ cs ∧ G.lower D b x = cs.count (G.id x)) ↔
      x ∈ G.nodes ∧ G.id x ∈ G.id b :: cs ∧ D x = (G.id b :: cs).count (G.id x) := by
  by_cases hxb : x = b
  · subst hxb
    have hcount := hle x hb
    rw [List.count_cons_self] at hcount
    rw [lower_self, List.count_cons_self]
    by_cases hc : G.id x ∈ cs
    · have := List.count_pos_iff.2 hc
      simp only [hb, hc, List.mem_cons_self, true_and]
      omega
    · simp [hc, hb, List.count_eq_zero_of_not_mem hc]
  · simp only [hxb, false_and, false_or]
    refine and_congr_right fun hx => ?_
    have hne : G.id x ≠ G.id b := fun he => hxb (h.id_inj hx hb he)
    rw [lower_of_ne hne, List.count_cons_of_ne hne.symm, List.mem_cons, or_iff_right hne]

/-- Relaxing `b` and then the rest, where `r'` is the ready set after `b`. -/
theorem RelaxSpec.cons {r r' : List α} {out : (ι → Option Nat) × List α}
    (hle : ∀ a ∈ G.nodes, (G.id b :: cs).count (G.id a) ≤ D a) (hmem : ∀ x, x ∈ r' ↔ x ∈ r ∨ (x = b ∧ D b = 1))
    (spec : RelaxSpec G cs (G.lower D b) r' out) : RelaxSpec G (G.id b :: cs) D r out := by
  refine ⟨fun a ha => by rw [spec.deg a ha, lower_sub_count h hb a ha], spec.none, spec.nodes, fun x => ?_, spec.inc⟩
  rw [spec.mem, hmem, or_assoc, lowered_iff h hb hle]

end Lower

/-- An id that is no node changes nothing. -/
theorem RelaxSpec.skip {c : ι} {cs : List ι} {D : α → Nat} {r : List α} {out : (ι → Option Nat) × List α}
    (hne : ∀ a ∈ G.nodes, G.id a ≠ c) (spec : RelaxSpec G cs D r out) : RelaxSpec G (c :: cs) D r out := by
  refine ⟨fun a ha => ?_, spec.none, spec.nodes, fun x => ?_, spec.inc⟩
  · rw [List.count_cons_of_ne (hne a ha).symm]; exact spec.deg a ha
  · rw [spec.mem]
    refine or_congr_right (and_congr_right fun hx => ?_)
    rw [List.count_cons_of_ne (hne x hx).symm, List.mem_cons, or_iff_right (hne x hx)]

theorem relax_spec (h : G.WF) : ∀ (cs : List ι) (deg : ι → Option Nat) (D : α → Nat) (r : List α),
    (∀ a ∈ G.nodes, deg (G.id a) = some (D a)) → (∀ i, G.get i = none → deg i = none) →
    (∀ a ∈ G.nodes, cs.count (G.id a) ≤ D a) → (∀ x ∈ r, x ∈ G.nodes) → Increasing G.key r →
    RelaxSpec G cs D r (G.relax cs deg r)
  | [], deg, D, r, hD, hn, _, hr, hi => by
    refine ⟨fun a ha => by simpa [relax] using hD a ha, hn, hr, fun x => by simp [relax], hi⟩
  | c :: cs, deg, D, r, hD, hn, hle, hr, hi => by
    unfold relax
    cases hg : G.get c with
    | none =>
      -- an id that is no node: its counter is absent and the loop passes over it
      rw [hn c hg]
      have hne : ∀ a ∈ G.nodes, G.id a ≠ c := by
        intro a ha hac
        rw [← hac, get_id h ha] at hg; cases hg
      have hle' : ∀ a ∈ G.nodes, cs.count (G.id a) ≤ D a := by
        intro a ha
        have hcount := hle a ha
        rwa [List.count_cons_of_ne (hne a ha).symm] at hcount
      exact (relax_spec h cs deg D r hD hn hle' hr hi).skip hne
    | some b =>
      obtain ⟨hb, rfl⟩ := mem_of_get hg
      rw [hD b hb]
      have hpos : 1 ≤ D b := by have := hle b hb; rw [List.count_cons_self] at this; omega
      have hD' := update_lower h hb hD
      have hn' := update_none h hb (some (D b - 1)) hn
      have hle' := count_le_lower h hb hle
      simp only
      split
      · rename_i hz
        refine .cons h hb hle (fun x => ?_) (relax_spec h cs _ _ _ hD' hn' hle' (fun x hx => ?_) (insertKey_increasing hi))
        · rw [mem_insertKey_node h hr hb, and_iff_left (by omega : D b = 1)]; tauto
        · rcases mem_of_mem_insertKey hx with rfl | hx
          · exact hb
          · exact hr x hx
      · refine .cons h hb hle (fun x => ?_) (relax_spec h cs _ _ r hD' hn' hle' hr hi)
        rw [or_iff_left]; rintro ⟨-, h1⟩; omega

/-! ## The loop along the key sort -/

/-- The parents of `a` among `rest`, with multiplicity. -/
def pending (G : Kahn α ι κ) (rest : List α) (a : α) : Nat :=
  ((G.parents a).filter fun p => p ∈ rest.map G.id).length

omit [LinearOrder κ] in
theorem pending_cons {m : α} {tl : List α} (hm : G.id m ∉ tl.map G.id) (a : α) :
    G.pending (m :: tl) a = G.pending tl a + (G.parents a).count (G.id m) := by
  unfold pending
  induction G.parents a with
  | nil => simp
  | cons p ps ih =>
    rw [List.filter_cons, List.filter_cons, List.count_cons]
    by_cases hp : p = G.id m
    · subst hp
      simp only [List.map_cons, List.mem_cons, true_or, decide_true, if_true, hm, decide_false,
        Bool.false_eq_true, if_false, List.length_cons, beq_self_eq_true] at ih ⊢
      omega
    · by_cases ht : p ∈ tl.map G.id
      · simp only [List.map_cons, List.mem_cons, hp, ht, or_true, decide_true, if_true, List.length_cons,
          beq_iff_eq, if_false] at ih ⊢
        omega
      · simp only [List.map_cons, List.mem_cons, hp, ht, or_false, decide_false, Bool.false_eq_true,
          if_false, beq_iff_eq] at ih ⊢
        omega

omit [LinearOrder κ] in
theorem pending_eq_zero {rest : List α} {a : α} :
    G.pending rest a = 0 ↔ ∀ p ∈ G.parents a, p ∉ rest.map G.id := by
  simp [pending, List.filter_eq_nil_iff]

/-- The nodes in key order, the emitted ones first. -/
structure Splits (G : Kahn α ι κ) (done rest : List α) : Prop where
  inc : Increasing G.key (done ++ rest)
  mem : ∀ a, a ∈ done ++ rest ↔ a ∈ G.nodes

section Round

variable {done tl : List α} {m : α} (h : G.WF) (hs : G.Splits done (m :: tl))
include hs

omit [DecidableEq ι] in
theorem Splits.rest_inc : Increasing G.key (m :: tl) := (List.pairwise_append.1 hs.inc).2.1

omit [DecidableEq ι] in
theorem Splits.rest_mem : ∀ a ∈ m :: tl, a ∈ G.nodes := fun a ha => (hs.mem a).1 (List.mem_append_right _ ha)

omit [DecidableEq ι] in
theorem Splits.next : G.Splits (done ++ [m]) tl := ⟨by simpa using hs.inc, by simpa using hs.mem⟩

include h

theorem Splits.head_notMem : G.id m ∉ tl.map G.id := by
  intro hc
  obtain ⟨b, hb, hbm⟩ := List.mem_map.1 hc
  have hlt := hs.rest_inc.head_lt b hb
  rw [h.id_inj (hs.rest_mem b (List.mem_cons_of_mem _ hb)) (hs.rest_mem m (List.mem_cons_self ..)) hbm] at hlt
  exact lt_irrefl _ hlt

/-- The least node left has no parent left. -/
theorem Splits.pending_head : G.pending (m :: tl) m = 0 := by
  rw [pending_eq_zero]
  intro p hp hc
  obtain ⟨b, hb, rfl⟩ := List.mem_map.1 hc
  have hlt := h.mono b (hs.rest_mem b hb) m (hs.rest_mem m (List.mem_cons_self ..)) hp
  rcases List.mem_cons.1 hb with rfl | hb
  · exact lt_irrefl _ hlt
  · exact lt_asymm hlt (hs.rest_inc.head_lt b hb)

/-- The nodes that name it as a parent come after it. -/
theorem Splits.mem_tail_of_parent {x : α} (hx : x ∈ G.nodes) (hp : G.id m ∈ G.parents x) : x ∈ tl := by
  have hlt := h.mono m (hs.rest_mem m (List.mem_cons_self ..)) x hx hp
  rcases List.mem_append.1 ((hs.mem x).2 hx) with hd | hr
  · exact absurd hlt (lt_asymm ((List.pairwise_append.1 hs.inc).2.2 x hd m (List.mem_cons_self ..)))
  · rcases List.mem_cons.1 hr with rfl | hr
    · exact absurd hlt (lt_irrefl _)
    · exact hr

/-- What is pending after the head is what its children count. -/
theorem Splits.pending_tail {a : α} (ha : a ∈ G.nodes) :
    G.pending (m :: tl) a = G.pending tl a + (G.children (G.id m)).count (G.id a) := by
  rw [pending_cons (hs.head_notMem h), h.children (G.id m) a ha]

/-- Relaxing the head's children leaves the counters and the ready set of the tail. -/
theorem Splits.relax {deg : ι → Option Nat} (hdeg : ∀ a ∈ G.nodes, deg (G.id a) = some (G.pending (m :: tl) a))
    (hnone : ∀ i, G.get i = none → deg i = none) :
    let out := G.relax (G.children (G.id m)) deg (tl.filter fun a => G.pending (m :: tl) a = 0)
    (∀ a ∈ G.nodes, out.1 (G.id a) = some (G.pending tl a)) ∧ (∀ i, G.get i = none → out.1 i = none) ∧
      out.2 = tl.filter fun a => G.pending tl a = 0 := by
  have htl : ∀ a ∈ tl, a ∈ G.nodes := fun a ha => hs.rest_mem a (List.mem_cons_of_mem _ ha)
  have hready : ∀ x ∈ tl.filter (fun a => G.pending (m :: tl) a = 0), x ∈ G.nodes :=
    fun x hx => htl x (List.mem_of_mem_filter hx)
  have spec := relax_spec h (G.children (G.id m)) deg (G.pending (m :: tl)) _ hdeg hnone
    (fun a ha => by rw [hs.pending_tail h ha]; omega) hready (hs.rest_inc.of_cons.filter _)
  refine ⟨fun a ha => by rw [spec.deg a ha, hs.pending_tail h ha, Nat.add_sub_cancel], spec.none, ?_⟩
  refine spec.inc.eq_of_mem_iff (hs.rest_inc.of_cons.filter _) fun x => ?_
  rw [spec.mem, List.mem_filter, List.mem_filter, decide_eq_true_eq, decide_eq_true_eq]
  constructor
  · rintro (⟨hx, h0⟩ | ⟨hx, hc, h0⟩)
    · exact ⟨hx, by rw [hs.pending_tail h (htl x hx)] at h0; omega⟩
    · -- a child that just became ready is a later node of the key sort
      have hpar : G.id m ∈ G.parents x := by
        rw [← List.count_pos_iff, ← h.children (G.id m) x hx]; exact List.count_pos_iff.2 hc
      rw [hs.pending_tail h hx] at h0
      exact ⟨hs.mem_tail_of_parent h hx hpar, by omega⟩
  · rintro ⟨hx, h0⟩
    rw [hs.pending_tail h (htl x hx)]
    by_cases hc : G.id x ∈ G.children (G.id m)
    · exact .inr ⟨htl x hx, hc, by omega⟩
    · exact .inl ⟨hx, by rw [List.count_eq_zero_of_not_mem hc]; omega⟩

end Round

/-- The loop emits the rest of the key sort and leaves nothing ready. -/
theorem loop_spec (h : G.WF) : ∀ (rest done : List α) (deg : ι → Option Nat) (fuel : Nat), G.Splits done rest →
    (∀ a ∈ G.nodes, deg (G.id a) = some (G.pending rest a)) → (∀ i, G.get i = none → deg i = none) →
    rest.length ≤ fuel →
    G.loop fuel deg (rest.filter fun a => G.pending rest a = 0) done = (done ++ rest, [])
  | [], done, deg, fuel, _, _, _, _ => by cases fuel <;> simp [loop]
  | m :: tl, done, deg, fuel, hs, hdeg, hnone, hfuel => by
    obtain ⟨fuel, rfl⟩ : ∃ n, fuel = n + 1 := ⟨fuel - 1, by simp at hfuel; omega⟩
    obtain ⟨hdeg', hnone', hready⟩ := hs.relax h hdeg hnone
    -- the head has no parent left, so it heads the ready set
    rw [List.filter_cons_of_pos (by simpa using hs.pending_head h)]
    unfold loop
    rw [hready]
    have := loop_spec h tl (done ++ [m]) _ fuel hs.next hdeg' hnone' (by simpa using hfuel)
    simpa using this

theorem mem_keyed_ready (h : G.WF) : ∀ (l r : List α), (∀ x ∈ l, x ∈ G.nodes) → (∀ x ∈ r, x ∈ G.nodes) →
    Increasing G.key r → (∀ x, x ∈ l.foldl (fun r a => if G.inDegrees (G.id a) = some 0 then insertKey G.key a r
      else r) r ↔ x ∈ r ∨ (x ∈ l ∧ G.inDegrees (G.id x) = some 0)) ∧
    Increasing G.key (l.foldl (fun r a => if G.inDegrees (G.id a) = some 0 then insertKey G.key a r else r) r)
  | [], r, _, _, hi => ⟨fun x => by simp, hi⟩
  | a :: l, r, hl, hr, hi => by
    have ha := hl a (List.mem_cons_self ..)
    rw [List.foldl_cons]
    by_cases hz : G.inDegrees (G.id a) = some 0
    · rw [if_pos hz]
      have hr' : ∀ x ∈ insertKey G.key a r, x ∈ G.nodes := by
        intro x hx
        rcases mem_of_mem_insertKey hx with rfl | hx
        · exact ha
        · exact hr x hx
      obtain ⟨h1, h2⟩ := mem_keyed_ready h l _ (fun x hx => hl x (List.mem_cons_of_mem _ hx)) hr'
        (insertKey_increasing hi)
      refine ⟨fun x => ?_, h2⟩
      rw [h1, mem_insertKey_node h hr ha, List.mem_cons]
      constructor
      · rintro ((rfl | h) | ⟨h, h0⟩)
        · exact .inr ⟨.inl rfl, hz⟩
        · exact .inl h
        · exact .inr ⟨.inr h, h0⟩
      · rintro (h | ⟨rfl | h, h0⟩)
        · exact .inl (.inr h)
        · exact .inl (.inl rfl)
        · exact .inr ⟨h, h0⟩
    · rw [if_neg hz]
      obtain ⟨h1, h2⟩ := mem_keyed_ready h l r (fun x hx => hl x (List.mem_cons_of_mem _ hx)) hr hi
      refine ⟨fun x => ?_, h2⟩
      rw [h1, List.mem_cons]
      constructor
      · rintro (h | ⟨h, h0⟩); exact .inl h; exact .inr ⟨.inr h, h0⟩
      · rintro (h | ⟨rfl | h, h0⟩)
        · exact .inl h
        · exact absurd h0 hz
        · exact .inr ⟨h, h0⟩

theorem inDegree_eq_pending (a : α) : G.inDegree a = G.pending (keySort G.key G.nodes) a := by
  unfold inDegree pending
  congr 1
  refine List.filter_congr fun p _ => ?_
  rw [Bool.eq_iff_iff, get_isSome, decide_eq_true_eq]
  simp

/-- The loop's whole run: with fuel for one round a node it ends with an empty ready set and has
emitted the key sort. -/
theorem loop_eq_keySort (h : G.WF) {fuel : Nat} (hf : G.nodes.length ≤ fuel) :
    G.loop fuel G.inDegrees G.ready [] = (keySort G.key G.nodes, []) := by
  have hdeg : ∀ a ∈ G.nodes, G.inDegrees (G.id a) = some (G.pending (keySort G.key G.nodes) a) := by
    intro a ha; rw [inDegrees, get_id h ha, Option.map_some, inDegree_eq_pending]
  have hinc := keySort_increasing h.keys
  have hready : G.ready = (keySort G.key G.nodes).filter fun a => G.pending (keySort G.key G.nodes) a = 0 := by
    obtain ⟨h1, h2⟩ := mem_keyed_ready h G.nodes [] (fun _ hx => hx) (by simp) List.Pairwise.nil
    refine h2.eq_of_mem_iff (hinc.filter _) fun x => ?_
    rw [h1, List.mem_filter, mem_keySort, decide_eq_true_eq]
    constructor
    · rintro (hx | ⟨hx, h0⟩)
      · cases hx
      · exact ⟨hx, by rw [hdeg x hx] at h0; exact Option.some.inj h0⟩
    · rintro ⟨hx, h0⟩; exact .inr ⟨hx, by rw [hdeg x hx, h0]⟩
  rw [hready]
  have := loop_spec h (keySort G.key G.nodes) [] G.inDegrees fuel ⟨by simpa using hinc, by simp⟩ hdeg
    (fun i hi => by simp [inDegrees, hi]) (by simpa using hf)
  simpa using this

/-- The topological sort of a well-formed index is its key sort. -/
theorem sort_eq_keySort (h : G.WF) : G.sort = keySort G.key G.nodes := by
  have he : G.emitted = keySort G.key G.nodes := by
    rw [emitted, loop_eq_keySort h le_rfl]
  rw [sort, he, length_keySort, if_neg (lt_irrefl _)]

end Kahn
