/-
Replicas that exchange what they make. Any number of engines start empty; each appends its own events and takes
objects the engines have on disk, in any order, with any loss and any repetition. The clocks of all engines
together are causal: every parent of a known event is known somewhere with a smaller clock, and below every
clock but the first there is an event of the clock before. So no engine ever refuses an event of another,
clocks do not run out before events do, and engines with the same events agree on everything.
-/
import Fortiq.Engine.Clock
import Fortiq.Engine.Recovery

namespace Fortiq

namespace TicketEngine

variable {ι : Type} {env : Env} {U : Set Event} {w w' : ι → TicketEngine}

/-! ## Clusters -/

/-- One engine performs a mutation; what it takes from outside is on the disk of some engine. -/
inductive ClusterStep [DecidableEq ι] (env : Env) (U : Set Event) : (ι → TicketEngine) → (ι → TicketEngine) → Prop
  | act {w : ι → TicketEngine} (i : ι) (disk : Disk) (m : Mutation)
      (hfrom : ∀ obj ∈ m.remoteObjects, ∃ k, obj ∈ (w k).store.objects) (ha : Admitted env U disk m (w i)) :
      ClusterStep env U w (Function.update w i (perform env disk m (w i)).2)

/-- The clusters that engines on empty stores reach. -/
def ClusterReach [DecidableEq ι] (env : Env) (U : Set Event) (w : ι → TicketEngine) : Prop :=
  ∃ (signer : ι → Ed25519Signer) (policy : ι → AuthorityPolicy),
    Relation.ReflTransGen (ClusterStep env U) (fun i => fresh (signer i) (policy i)) w

/-- Some engine has the event in its graph. -/
def Known (w : ι → TicketEngine) : Set Event := {e | ∃ i, e ∈ (w i).graph.events}

/-- The event follows known ones: its parents are known with smaller clocks, and so is the clock before its own. -/
structure Justified (w : ι → TicketEngine) (e : Event) : Prop where
  parents : ∀ p ∈ e.parents, ∃ f ∈ Known w, f.id = p ∧ f.lamport < e.lamport
  clock : e.lamport.toNat = 1 ∨ ∃ f ∈ Known w, f.lamport.toNat + 1 = e.lamport.toNat

/-- The invariant of the cluster, but for the states. -/
structure Causal (env : Env) (U : Set Event) (w : ι → TicketEngine) : Prop where
  kept : ∀ i, Kept env U (w i)
  stored : ∀ i, ∀ e ∈ Carried env (w i).store.objects, e ∈ (w i).graph.events
  justified : ∀ e ∈ Known w, Justified w e

theorem Causal.mem_U (h : Causal env U w) {e : Event} (he : e ∈ Known w) : e ∈ U := by
  obtain ⟨i, hi⟩ := he
  exact (h.kept i).sound.mem e hi

theorem Justified.mono (hsub : Known w ⊆ Known w') {e : Event} (h : Justified w e) : Justified w' e := by
  refine ⟨fun p hp => ?_, h.clock.imp_right fun ⟨f, hf, hl⟩ => ⟨f, hsub hf, hl⟩⟩
  obtain ⟨f, hf, hid⟩ := h.parents p hp
  exact ⟨f, hsub hf, hid⟩

/-- A justified event contradicts no known one. -/
theorem Causal.not_contradict (hU : IdealIds U) (h : Causal env U w) {e : Event} (he : e ∈ U) (hj : Justified w e)
    {a : Event} (ha : a ∈ Known w) : ¬ Contradict a e := by
  rintro (⟨hp, hle⟩ | ⟨hp, hle⟩)
  · obtain ⟨f, hf, hid, hlt⟩ := hj.parents a.id hp
    obtain rfl := hU.inj f (h.mem_U hf) a (h.mem_U ha) hid
    exact absurd hlt (UInt64.not_lt.2 hle)
  · obtain ⟨f, hf, hid, hlt⟩ := (h.justified a ha).parents e.id hp
    obtain rfl := hU.inj f (h.mem_U hf) e he hid
    exact absurd hlt (UInt64.not_lt.2 hle)

/-- Such an event is accepted by every engine. -/
theorem Causal.insert_ok (hU : IdealIds U) (h : Causal env U w) {e : Event} (he : e ∈ U) (hj : Justified w e) (i : ι) :
    ((w i).graph.insert e).1 = .ok () := by
  refine EventGraph.insert_isOk_iff.2 (.inr ?_)
  rw [(h.kept i).sound.inv.conflict_iff_contradict]
  rintro ⟨a, ha, hcon⟩
  exact h.not_contradict hU he hj ⟨i, ha⟩ hcon

/-! ## Clocks do not run out -/

/-- Below a known clock every clock from one on is taken. -/
theorem Causal.exists_clock (h : Causal env U w) : ∀ (n : Nat) {e : Event}, e ∈ Known w → e.lamport.toNat = n →
    ∀ k, 1 ≤ k → k ≤ n → ∃ f ∈ Known w, f.lamport.toNat = k
  | 0, _, _, _, k, h1, h2 => by omega
  | n + 1, e, he, hn, k, h1, h2 => by
    rcases Nat.lt_or_ge n k with hk | hk
    · exact ⟨e, he, by omega⟩
    · rcases (h.justified e he).clock with hone | ⟨f, hf, hl⟩
      · omega
      · exact h.exists_clock n hf (by omega) k h1 hk

/-- A known clock is at most the number of events in play. -/
theorem Causal.clock_le (h : Causal env U w) (hfin : U.Finite) {e : Event} (he : e ∈ Known w) :
    e.lamport.toNat ≤ U.ncard := by
  have hsub : (Finset.Icc 1 e.lamport.toNat : Set Nat) ⊆ (fun f : Event => f.lamport.toNat) '' U := by
    intro k hk
    rw [Finset.coe_Icc, Set.mem_Icc] at hk
    obtain ⟨f, hf, hl⟩ := h.exists_clock _ he rfl k hk.1 hk.2
    exact ⟨f, h.mem_U hf, hl⟩
  calc e.lamport.toNat = (Finset.Icc 1 e.lamport.toNat : Set Nat).ncard := by rw [Set.ncard_coe_finset]; simp
    _ ≤ ((fun f : Event => f.lamport.toNat) '' U).ncard := Set.ncard_le_ncard hsub (hfin.image _)
    _ ≤ U.ncard := Set.ncard_image_le hfin

theorem Causal.not_spent (h : Causal env U w) (hfin : U.Finite) (hcard : U.ncard < 2 ^ 64 - 1) (i : ι) :
    ¬ ClockSpent (w i) := by
  rintro ⟨a, ha, hc⟩
  have hle := h.clock_le hfin ⟨i, ha⟩
  have hmax : clockMax.toNat = 2 ^ 64 - 1 := by decide
  rw [hc] at hle
  omega

/-- The event of an append is justified by the graph it is made in. -/
theorem Causal.justified_draft (h : Causal env U w) (hfin : U.Finite) (hcard : U.ncard < 2 ^ 64 - 1) (i : ι)
    {te : TicketEvent} {ts : UInt64} {e : Event} {obj : SignedObject} (hd : draft env te ts (w i) = .ok (e, obj)) :
    Justified w e := by
  obtain ⟨hp, -, hl, -⟩ := draft_ok hd
  have hs := (h.kept i).sound
  have hn := h.not_spent hfin hcard i
  have hnext := hs.toNat_next hn
  refine ⟨fun p hpe => ?_, ?_⟩
  · obtain ⟨f, hf, hid⟩ := hs.inv.mem_heads (hp ▸ hpe)
    exact ⟨f, ⟨i, hf⟩, hid, hl ▸ hs.lt_next hn hf⟩
  · rw [hl, hnext]
    rcases EventGraph.maxLamport_attained (w i).graph (w i).graph.heads.toVec with h0 | ⟨f, hf, -, hfl⟩
    · left; rw [clock, h0]; rfl
    · right; exact ⟨f, ⟨i, hf⟩, by rw [hfl, clock]⟩

/-! ## Every step keeps the cluster causal -/

section Steps

variable [DecidableEq ι]

theorem known_update {i : ι} {s' : TicketEngine} (hgrow : ∀ e ∈ (w i).graph.events, e ∈ s'.graph.events) :
    Known w ⊆ Known (Function.update w i s') := by
  rintro e ⟨j, hj⟩
  refine ⟨j, ?_⟩
  by_cases hij : j = i
  · subst hij; rw [Function.update_self]; exact hgrow e hj
  · rwa [Function.update_of_ne hij]

/-- An engine that gains justified events only. -/
theorem Causal.extend (h : Causal env U w) (i : ι) {s' : TicketEngine} (hkept : Kept env U s')
    (hstored : ∀ e ∈ Carried env s'.store.objects, e ∈ s'.graph.events)
    (hgrow : ∀ e ∈ (w i).graph.events, e ∈ s'.graph.events)
    (hnew : ∀ e ∈ s'.graph.events, e ∈ (w i).graph.events ∨ Justified w e) :
    Causal env U (Function.update w i s') := by
  refine ⟨fun j => ?_, fun j => ?_, ?_⟩
  · by_cases hij : j = i
    · subst hij; rw [Function.update_self]; exact hkept
    · rw [Function.update_of_ne hij]; exact h.kept j
  · by_cases hij : j = i
    · subst hij; rw [Function.update_self]; exact hstored
    · rw [Function.update_of_ne hij]; exact h.stored j
  · rintro e ⟨j, hj⟩
    refine Justified.mono (known_update hgrow) ?_
    by_cases hij : j = i
    · subst hij
      rw [Function.update_self] at hj
      exact (hnew e hj).elim (fun he => h.justified e ⟨j, he⟩) id
    · rw [Function.update_of_ne hij] at hj
      exact h.justified e ⟨j, hj⟩

theorem Causal.congr (h : Causal env U w) (i : ι) {s' : TicketEngine} (hst : s'.store = (w i).store)
    (hg : s'.graph = (w i).graph) : Causal env U (Function.update w i s') :=
  h.extend i ((h.kept i).congr hst hg) (by rw [hst, hg]; exact h.stored i) (by rw [hg]; exact fun _ he => he)
    (by rw [hg]; exact fun _ he => .inl he)

/-- An engine that stores an object and inserts its justified event. -/
theorem Causal.put_insert (hU : IdealIds U) (h : Causal env U w) (i : ι) {disk : Disk} {obj : SignedObject} {e : Event}
    {s' : TicketEngine} (hd : decoded env obj = some e) (he : e ∈ U) (hj : Justified w e)
    (hp : (w i).store.put env.crypto disk obj = (.ok obj.id, s'.store)) (hg : s'.graph = ((w i).graph.insert e).2) :
    Causal env U (Function.update w i s') := by
  have hk := h.kept i
  have hmem : ∀ x, x ∈ s'.graph.events ↔ x ∈ (w i).graph.events ∨ x = e := by
    intro x
    rw [hg, hk.sound.inv.mem_insert_iff hU hk.sound.mem he]
    exact or_congr_right (and_iff_left fun b hb => h.not_contradict hU he hj ⟨i, hb⟩)
  refine h.extend i (hk.put_insert hU hd he hp hg) ?_ (fun x hx => (hmem x).2 (.inl hx)) ?_
  · intro x hx
    exact (hmem x).2 (((hk.carried_put hU hd he hp).1 hx).imp_left (h.stored i x))
  · intro x hx
    rcases (hmem x).1 hx with hx | rfl
    · exact .inl hx
    · exact .inr hj

/-- A local section. -/
theorem Causal.exec (hU : IdealIds U) (hc : env.RoundTrips) (hfin : U.Finite) (hcard : U.ncard < 2 ^ 64 - 1)
    (h : Causal env U w) (i : ι) {a : Action} (hl : a.IsLocal) (ha : Admits env U a (w i)) :
    Causal env U (Function.update w i (TicketEngine.exec env a (w i)).2) := by
  cases a with
  | readState => exact h.congr i rfl rfl
  | readGraph => exact h.congr i rfl rfl
  | getObject id read => exact h.congr i rfl rfl
  | append te ts disk =>
    simp only [TicketEngine.exec]
    rcases append_cases env te ts disk (w i) with ⟨err, -, he⟩ | ⟨e, obj, hd, ⟨err, -, he⟩ | ⟨store', hp, hrest⟩⟩
    · rw [he]; exact h.congr i rfl rfl
    · rw [he]; exact h.congr i rfl rfl
    have heU : e ∈ U := ha e (by simp [events, hd, Except.toOption])
    have hdec := decoded_draft hc hd hp
    have hj := h.justified_draft hfin hcard i hd
    rcases hrest with ⟨err, hi, he⟩ | ⟨g', hi, he⟩
    · rw [he]; exact h.put_insert hU i hdec heU hj hp (by rw [hi])
    · rw [he]; exact h.put_insert hU i hdec heU hj hp (by rw [hi])
  | _ => exact hl.elim

/-- A batch of objects that carry justified events. -/
theorem Causal.ingest (hU : IdealIds U) (i : ι) (disk : Disk) : ∀ (objects : List SignedObject) (n : Nat)
    (w : ι → TicketEngine), Causal env U w →
    (∀ obj ∈ objects, ∀ e, decoded env obj = some e → e ∈ U ∧ Justified w e) →
    Causal env U (Function.update w i (objects.foldl (ingestObject env disk) (n, w i)).2)
  | [], _, w, h, _ => h.congr i rfl rfl
  | obj :: objects, n, w, h, hobj => by
    rw [List.forall_mem_cons] at hobj
    rw [List.foldl_cons]
    rcases ingestObject_cases env disk n (w i) obj with ⟨he, -⟩ | ⟨e, store', hd, hp, he⟩
    · rw [he]; exact Causal.ingest hU i disk objects n w h hobj.2
    · rw [he]
      have h₁ : Causal env U (Function.update w i { w i with store := store', graph := ((w i).graph.insert e).2 }) :=
        h.put_insert hU i hd (hobj.1 e hd).1 (hobj.1 e hd).2 hp rfl
      have hsub : Known w ⊆ Known (Function.update w i { w i with store := store', graph := ((w i).graph.insert e).2 }) :=
        known_update fun x hx => EventGraph.mem_insert.2 (.inl hx)
      have hrest := Causal.ingest hU i disk objects (if ((w i).graph.insert e).1 = .ok () then n + 1 else n) _ h₁
        fun o ho x hx => (hobj.2 o ho x hx).imp_right fun hj => hj.mono hsub
      rwa [Function.update_self, Function.update_idem] at hrest

theorem Causal.perform (hU : IdealIds U) (hc : env.RoundTrips) (hfin : U.Finite) (hcard : U.ncard < 2 ^ 64 - 1)
    (h : Causal env U w) (i : ι) {disk : Disk} {m : Mutation}
    (hfrom : ∀ obj ∈ m.remoteObjects, ∃ k, obj ∈ (w k).store.objects) (ha : Admitted env U disk m (w i)) :
    Causal env U (Function.update w i (TicketEngine.perform env disk m (w i)).2) := by
  have hjust : ∀ obj ∈ m.remoteObjects, ∀ e, decoded env obj = some e → e ∈ U ∧ Justified w e := by
    intro obj ho e hd
    obtain ⟨k, hk⟩ := hfrom obj ho
    have hknown : e ∈ Known w := ⟨k, h.stored k e ⟨obj, hk, hd⟩⟩
    exact ⟨h.mem_U hknown, h.justified e hknown⟩
  have hlocal : m.isLocal = true → Causal env U (Function.update w i (TicketEngine.perform env disk m (w i)).2) := by
    intro hm
    refine Prog.run_invariant (fun a s => a.IsLocal ∧ Admits env U a s)
      (I := fun s => Causal env U (Function.update w i s)) (fun a s hok hs => ?_) (m.call env (w i).policy disk) (w i)
      (fun x hx => ⟨(Mutation.every_isLocal env (w i).policy disk hm).trace x hx, ha x hx⟩) (h.congr i rfl rfl)
    have hnext := hs.exec hU hc hfin hcard i (a := a) hok.1 (by rw [Function.update_self]; exact hok.2)
    rwa [Function.update_self, Function.update_idem] at hnext
  cases m with
  | applyRemoteObject obj =>
    rcases applyRemoteObject_cases env disk obj (w i) with
      ⟨-, err, -, he⟩ | ⟨e, hd, ⟨-, err, -, he⟩ | ⟨store', hp, hrest⟩⟩
    · rw [he]; exact h.congr i rfl rfl
    · rw [he]; exact h.congr i rfl rfl
    obtain ⟨heU, hj⟩ := hjust obj (List.mem_singleton.2 rfl) e hd
    rcases hrest with ⟨err, hi, he⟩ | ⟨g', hi, he⟩
    · rw [he]; exact h.put_insert hU i hd heU hj hp (by rw [hi])
    · rw [he]; exact h.put_insert hU i hd heU hj hp (by rw [hi])
  | applyRemoteObjects objects =>
    have hing := Causal.ingest hU i disk objects 0 w h hjust
    show Causal env U (Function.update w i (Prog.run (TicketEngine.exec env) (Prog.bind
      (if (objects.foldl (ingestObject env disk) ((0 : Nat), w i)).1 > 0 then _ else _) _)
      (objects.foldl (ingestObject env disk) ((0 : Nat), w i)).2).2)
    split
    · rw [← Function.update_idem (objects.foldl (ingestObject env disk) ((0 : Nat), w i)).2]
      exact hing.congr i (by rw [Function.update_self]; rfl) (by rw [Function.update_self]; rfl)
    · exact hing
  | _ => exact hlocal rfl

omit [DecidableEq ι] in
theorem causal_fresh (signer : ι → Ed25519Signer) (policy : ι → AuthorityPolicy) :
    Causal env U fun i => fresh (signer i) (policy i) :=
  ⟨fun i => kept_fresh _ _, by simp [fresh, FsObjectStore.empty, Carried],
    by simp [Known, fresh, EventGraph.new]⟩

/-- Reachable clusters are causal, and every engine's state is the reduction of its graph. -/
theorem ClusterReach.causal (hU : IdealIds U) (hc : env.RoundTrips) (hfin : U.Finite) (hcard : U.ncard < 2 ^ 64 - 1)
    (h : ClusterReach env U w) : Causal env U w ∧ ∀ i, Synced env (w i) := by
  obtain ⟨signer, policy, hr⟩ := h
  induction hr with
  | refl => exact ⟨causal_fresh signer policy, fun _ => rfl⟩
  | tail _ hs ih =>
    obtain ⟨hcau, hsync⟩ := ih
    cases hs with
    | act i disk m hfrom ha =>
      refine ⟨hcau.perform hU hc hfin hcard i hfrom ha, fun j => ?_⟩
      by_cases hij : j = i
      · subst hij
        rw [Function.update_self]
        exact Step.synced hU ⟨disk, m, ha, rfl⟩ (hcau.kept j).sound (hsync j)
      · rw [Function.update_of_ne hij]; exact hsync j

/-- Honest replicas converge. No engine ever refuses an object another has, so applying it fails for the disk only;
and engines with the same event ids have the same events and children up to order, the same heads and the same
state. -/
theorem replicas_converge (hU : IdealIds U) (hc : env.RoundTrips) (hfin : U.Finite) (hcard : U.ncard < 2 ^ 64 - 1)
    (h : ClusterReach env U w) :
    (∀ i k obj, obj ∈ (w k).store.objects →
      (∀ e, decoded env obj = some e → ((w i).graph.insert e).1 = .ok ()) ∧
      ∀ disk err, (TicketEngine.perform env disk (.applyRemoteObject obj) (w i)).1 = .error err → err.isDisk = true) ∧
    ∀ i j, (∀ x, (w i).graph.contains x = (w j).graph.contains x) →
      (w i).graph.events.Perm (w j).graph.events ∧
      (∀ x, ((w i).graph.childrenOf x).Perm ((w j).graph.childrenOf x)) ∧
      (w i).graph.heads = (w j).graph.heads ∧ (w i).state = (w j).state := by
  obtain ⟨hcau, hsync⟩ := h.causal hU hc hfin hcard
  constructor
  · intro i k obj ho
    have hins : ∀ e, decoded env obj = some e → ((w i).graph.insert e).1 = .ok () := by
      intro e hd
      have hknown : e ∈ Known w := ⟨k, hcau.stored k e ⟨obj, ho, hd⟩⟩
      exact hcau.insert_ok hU (hcau.mem_U hknown) (hcau.justified e hknown) i
    refine ⟨hins, fun disk err herr => ?_⟩
    rcases applyRemoteObject_cases env disk obj (w i) with
      ⟨hd, -⟩ | ⟨e, hd, ⟨-, err', hdk, he⟩ | ⟨store', -, ⟨err', hi, -⟩ | ⟨g', -, he⟩⟩⟩
    · obtain ⟨e, -, hd'⟩ := (hcau.kept k).carries obj ho
      rw [hd] at hd'; cases hd'
    · rw [he] at herr; cases herr; exact hdk
    · have := hins e hd; rw [hi] at this; cases this
    · rw [he] at herr; cases herr
  · intro i j hids
    have hi := (hcau.kept i).sound
    have hj := (hcau.kept j).sound
    have hsub : ∀ {i j : ι}, (∀ x, (w i).graph.contains x = (w j).graph.contains x) → ∀ e ∈ (w i).graph.events,
        e ∈ (w j).graph.events := by
      intro i j hids e he
      have hcon : (w i).graph.contains e.id = true := EventGraph.contains_iff.2 ⟨e, he, rfl⟩
      rw [hids] at hcon
      obtain ⟨a, ha, hid⟩ := EventGraph.contains_iff.1 hcon
      exact hU.inj a (hcau.mem_U ⟨j, ha⟩) e (hcau.mem_U ⟨i, he⟩) hid ▸ ha
    have hmem : ∀ e, e ∈ (w i).graph.events ↔ e ∈ (w j).graph.events :=
      fun e => ⟨hsub hids e, hsub (fun x => (hids x).symm) e⟩
    refine ⟨EventGraph.perm_of_mem_iff hmem, hi.inv.childrenOf_perm hj.inv hmem, hi.inv.heads_eq hj.inv hmem, ?_⟩
    show (hi.replica (hsync i)).view = (hj.replica (hsync j)).view
    exact Replay.Replica.view_eq (Finset.ext fun e => by simpa [Sound.replica] using hmem e)

/-! ## Clusters over a table -/

/-- A reachable cluster over the events of a table. -/
structure ReachedCluster (ι : Type) [DecidableEq ι] (t : EventTable) where
  engines : ι → TicketEngine
  reach : ClusterReach t.env t.inPlay engines

/-- The cluster after one more mutation, by engine `i`. -/
def ReachedCluster.after {t : EventTable} (x : ReachedCluster ι t) (i : ι) (m : Mutation)
    (hfrom : ∀ obj ∈ m.remoteObjects, ∃ k, obj ∈ (x.engines k).store.objects := by decide +kernel)
    (ha : Admitted t.env t.inPlay diskOk m (x.engines i) := by decide +kernel) : ReachedCluster ι t where
  engines := Function.update x.engines i (TicketEngine.perform t.env diskOk m (x.engines i)).2
  reach := by
    obtain ⟨signer, policy, hr⟩ := x.reach
    exact ⟨signer, policy, hr.tail (.act i diskOk m hfrom ha)⟩

end Steps

section Sample

/-- A creation, and a status change over it. -/
def pairTable : EventTable where
  bodies :=
    [⟨[], 10, 1, .ticket (.created "T-aaaaaaaa" "printer" "on fire" .high "alice")⟩,
     ⟨[idAt 0], 20, 2, .ticket (.statusChanged "T-aaaaaaaa" .inProgress "alice" none)⟩]

/-- Alice's engine, and Bob's. -/
def pairFresh : ReachedCluster Bool pairTable :=
  ⟨fun i => fresh (if i then alice else bob) ⟨none⟩, _, _, .refl⟩

/-- Alice creates a ticket and takes it up; Bob gets the creation twice, and both objects in one batch. -/
def pair : ReachedCluster Bool pairTable :=
  ((((pairFresh.after true (.createTicket "aaaaaaaa" 10 "printer" "on fire" .high "alice")).after
    false (.applyRemoteObject (objectAt alice 0 10))).after
    true (.updateTicketState 20 "T-aaaaaaaa" .inProgress "alice")).after
    false (.applyRemoteObject (objectAt alice 0 10))).after
    false (.applyRemoteObjects [objectAt alice 1 20, objectAt alice 0 10])

/-- The engines of the sample end with two events each, and in the same state. -/
theorem replicas_converge_pair :
    (pair.engines true).graph.events.length = 2 ∧ (pair.engines false).graph.events.length = 2 ∧
    (pair.engines true).state = (pair.engines false).state := by
  refine ⟨by decide +kernel, by decide +kernel, ?_⟩
  obtain ⟨hfin, hcard⟩ := pairTable.finite_ncard_le
  have hsame : (pair.engines true).graph.events = (pair.engines false).graph.events := by decide +kernel
  refine ((replicas_converge pairTable.idealIds pairTable.roundTrips hfin (lt_of_le_of_lt hcard (by decide))
    pair.reach).2 true false fun x => ?_).2.2.2
  rw [EventGraph.contains, EventGraph.contains, hsame]

end Sample

end TicketEngine

end Fortiq
