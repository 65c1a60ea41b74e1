/-
Reachable engines. A run starts with `open` on any store and goes on with any mutations, failing ones
included; the events it works on come from a set `U` on which ids are collision free and no event names
itself, which is what the content addressing by BLAKE3 is for. Reachable engines are sound: their graph
has its invariant and holds events of `U` only; and along a run events are only ever added.
-/
import Fortiq.Engine.Step
import Fortiq.Event.Table

namespace Fortiq

namespace TicketEngine

/-! ## Runs -/

section

variable (env : Env) (U : Set Event)

/-- The section works on events in play only. -/
def Admits (a : Action) (s : TicketEngine) : Prop := ∀ e ∈ events env s a, e ∈ U

/-- Every section of the call does. -/
def Admitted (disk : Disk) (m : Mutation) (s : TicketEngine) : Prop :=
  ∀ x ∈ (m.call env s.policy disk).trace (exec env) s, Admits env U x.1 x.2

/-- The engine as `open` makes it, on any store and any listing of its files. -/
def Opened (s : TicketEngine) : Prop :=
  ∃ store files signer policy, files.Perm store.objects ∧ (∀ obj ∈ files, ∀ e, decoded env obj = some e → e ∈ U) ∧
    TicketEngine.open env store files signer policy = .ok s

/-- One mutation, whatever it returns. -/
def Step (s s' : TicketEngine) : Prop := ∃ disk m, Admitted env U disk m s ∧ s' = (perform env disk m s).2

/-- Any number of mutations. -/
abbrev Run : TicketEngine → TicketEngine → Prop := Relation.ReflTransGen (Step env U)

def Reach (s : TicketEngine) : Prop := ∃ s₀, Opened env U s₀ ∧ Run env U s₀ s

end

variable {env : Env} {U : Set Event} {s s' : TicketEngine}

theorem Reach.step (h : Reach env U s) (hs : Step env U s s') : Reach env U s' := by
  obtain ⟨s₀, ho, hr⟩ := h
  exact ⟨s₀, ho, hr.tail hs⟩

theorem Reach.run (h : Reach env U s) (hr : Run env U s s') : Reach env U s' := by
  obtain ⟨s₀, ho, h₀⟩ := h
  exact ⟨s₀, ho, h₀.trans hr⟩

/-! ## Opening -/

theorem loadAllObjects_ok {crypto : Crypto} : ∀ {files objs : List SignedObject},
    FsObjectStore.loadAllObjects crypto files = .ok objs ↔ objs = files ∧ ∀ obj ∈ files, obj.verify crypto = .ok ()
  | [], objs => by simp [FsObjectStore.loadAllObjects, eq_comm]
  | obj :: files, objs => by
    unfold FsObjectStore.loadAllObjects
    cases hv : obj.verify crypto with
    | error e => simp [hv]
    | ok u =>
      simp only [Result.context_ok]
      cases hl : FsObjectStore.loadAllObjects crypto files with
      | error e =>
        simp only [reduceCtorEq, List.forall_mem_cons, hv, true_and, false_iff, not_and]
        intro _ hall
        rw [loadAllObjects_ok.2 ⟨rfl, hall⟩] at hl
        cases hl
      | ok os =>
        obtain ⟨rfl, hall⟩ := loadAllObjects_ok.1 hl
        simp only [Except.ok.injEq, List.forall_mem_cons, hv, true_and]
        exact ⟨fun h => ⟨h.symm, hall⟩, fun h => h.1.symm⟩

theorem foldl_loadObject : ∀ (files : List SignedObject) (g : EventGraph),
    files.foldl (loadObject env) g = g.insertAll (files.filterMap (decoded env))
  | [], _ => rfl
  | obj :: files, g => by
    rw [List.foldl_cons, foldl_loadObject files, List.filterMap_cons]
    unfold decoded loadObject
    cases Event.fromSignedObject env obj <;> rfl

/-- `open` succeeds when every file verifies; the graph gets the decodable events in the order of the
listing, and the state is its reduction. -/
theorem open_ok {store : FsObjectStore} {files : List SignedObject} {signer : Ed25519Signer} {policy : AuthorityPolicy} :
    TicketEngine.open env store files signer policy = .ok s ↔ (∀ obj ∈ files, obj.verify env.crypto = .ok ()) ∧
      s = { store, signer, policy, graph := EventGraph.new.insertAll (files.filterMap (decoded env)),
            state := TicketReducer.reduce env (EventGraph.new.insertAll (files.filterMap (decoded env))) } := by
  unfold TicketEngine.open
  cases hl : FsObjectStore.loadAllObjects env.crypto files with
  | error e =>
    simp only [reduceCtorEq, false_iff, not_and]
    intro hall
    rw [loadAllObjects_ok.2 ⟨rfl, hall⟩] at hl
    cases hl
  | ok os =>
    obtain ⟨rfl, hall⟩ := loadAllObjects_ok.1 hl
    simp only [foldl_loadObject, Except.ok.injEq]
    exact ⟨fun h => ⟨hall, h.symm⟩, fun h => h.2.symm⟩

/-! ## Soundness -/

/-- The graph has its invariant and holds events in play only. -/
structure Sound (U : Set Event) (s : TicketEngine) : Prop where
  inv : s.graph.Inv
  mem : ∀ e ∈ s.graph.events, e ∈ U

/-- The graph after has every event of the graph before. -/
def Grows (s s' : TicketEngine) : Prop := ∀ e ∈ s.graph.events, e ∈ s'.graph.events

theorem sound_insertAll (hU : IdealIds U) (h : Sound U s) {l : List Event} (hl : ∀ e ∈ l, e ∈ U)
    (hg : s'.graph = s.graph.insertAll l) : Sound U s' ∧ Grows s s' := by
  refine ⟨⟨?_, fun e he => ?_⟩, fun e he => ?_⟩
  · rw [hg]; exact h.inv.insertAll l fun e he => hU.noSelf e (hl e he)
  · rw [hg] at he
    rcases EventGraph.mem_of_mem_insertAll l _ he with he | he
    · exact h.mem e he
    · exact hl e he
  · rw [hg]; exact EventGraph.mem_insertAll_of_mem l _ he

/-- A section that works on events in play keeps a sound engine sound and loses no event. -/
theorem exec_sound (hU : IdealIds U) (a : Action) (s : TicketEngine) (ha : Admits env U a s) (h : Sound U s) :
    Sound U (exec env a s).2 ∧ Grows s (exec env a s).2 := by
  obtain ⟨-, -, l, hl, hg⟩ := exec_graph env a s
  exact sound_insertAll hU h (fun e he => ha e (hl e he)) hg

theorem Opened.sound (hU : IdealIds U) (h : Opened env U s) : Sound U s := by
  obtain ⟨store, files, signer, policy, -, hU', ho⟩ := h
  obtain ⟨-, rfl⟩ := open_ok.1 ho
  refine (sound_insertAll (s := { store, signer, policy, graph := .new, state := .new }) hU
    ⟨EventGraph.inv_new, by simp [EventGraph.new]⟩ ?_ rfl).1
  intro e he
  obtain ⟨obj, hobj, hd⟩ := List.mem_filterMap.1 he
  exact hU' obj hobj e hd

theorem Step.sound (hU : IdealIds U) (hs : Step env U s s') (h : Sound U s) : Sound U s' ∧ Grows s s' := by
  obtain ⟨disk, m, ha, rfl⟩ := hs
  exact Prog.run_preserves (Admits env U) (R := Grows) (fun _ _ he => he) (fun _ _ _ h1 h2 e he => h2 e (h1 e he))
    (fun a s ha h => exec_sound hU a s ha h) _ s ha h

/-- What a remote call adds is decoded from its objects, and new to the graph. -/
theorem remote_new (hU : IdealIds U) (h : Sound U s) {disk : Disk} {m : Mutation} (hm : m.isLocal = false)
    (ha : Admitted env U disk m s) {b : Event} (hb : b ∈ (perform env disk m s).2.graph.events)
    (hn : b ∉ s.graph.events) :
    ∃ obj ∈ m.remoteObjects, decoded env obj = some b ∧ s.graph.contains b.id = false := by
  have hnew : s.graph.contains b.id = false := by
    rw [EventGraph.contains_eq_false]
    intro c hc hid
    exact hn (hU.inj c (h.mem c hc) b ((Step.sound hU ⟨disk, m, ha, rfl⟩ h).1.mem b hb) hid ▸ hc)
  have hwritten : ∀ objects, b ∈ (s.graph.insertAll (written env disk s.store objects)).events →
      ∃ obj ∈ objects, decoded env obj = some b ∧ s.graph.contains b.id = false := by
    intro objects hb
    rcases EventGraph.mem_of_mem_insertAll _ _ hb with hb | hb
    · exact absurd hb hn
    · obtain ⟨obj, ho, hd⟩ := mem_written hb
      exact ⟨obj, ho, hd, hnew⟩
  cases m with
  | applyRemoteObject obj => exact hwritten _ (applyRemoteObject_graph env disk obj s ▸ hb)
  | applyRemoteObjects objects => exact hwritten _ (applyRemoteObjects_graph env disk objects s ▸ hb)
  | _ => cases hm

theorem Run.sound (hU : IdealIds U) (hr : Run env U s s') (h : Sound U s) : Sound U s' ∧ Grows s s' := by
  induction hr with
  | refl => exact ⟨h, fun _ he => he⟩
  | tail _ hs ih =>
    obtain ⟨h1, g1⟩ := ih
    obtain ⟨h2, g2⟩ := Step.sound hU hs h1
    exact ⟨h2, fun e he => g2 e (g1 e he)⟩

theorem Reach.sound (hU : IdealIds U) (h : Reach env U s) : Sound U s := by
  obtain ⟨s₀, ho, hr⟩ := h
  exact (Run.sound hU hr (ho.sound hU)).1

/-- Where finitely many events are in play, a graph has no more. -/
theorem Sound.length_le (h : Sound U s) (hfin : U.Finite) : s.graph.events.length ≤ U.ncard := by
  have hn : s.graph.events.Nodup := List.Nodup.of_map _ s.graph.nodup
  rw [← List.toFinset_card_of_nodup hn, ← Set.ncard_coe_finset]
  exact Set.ncard_le_ncard (fun e he => h.mem e (by simpa using he)) hfin

/-- A fresh engine is one opened on an empty store. -/
theorem opened_fresh (signer : Ed25519Signer) (policy : AuthorityPolicy) : Opened env U (fresh signer policy) :=
  ⟨.empty, [], signer, policy, .refl _, by simp, rfl⟩

theorem reach_fresh (signer : Ed25519Signer) (policy : AuthorityPolicy) : Reach env U (fresh signer policy) :=
  ⟨_, opened_fresh signer policy, .refl⟩

/-! ## Engines over a table -/

instance decidableAdmitted [DecidablePred (· ∈ U)] (disk : Disk) (m : Mutation) (s : TicketEngine) :
    Decidable (Admitted env U disk m s) :=
  inferInstanceAs (Decidable (∀ x ∈ (m.call env s.policy disk).trace (exec env) s, ∀ e ∈ events env x.2 x.1, e ∈ U))

/-- Every write succeeds. -/
def diskOk : Disk := fun _ => none

/-- A reachable engine over the events of a table. -/
structure Reached (t : EventTable) where
  engine : TicketEngine
  reach : Reach t.env t.inPlay engine

namespace Reached

variable {t : EventTable}

/-- Alice's engine on an empty store. -/
def start (t : EventTable) : Reached t := ⟨fresh alice ⟨none⟩, reach_fresh _ _⟩

/-- The engine after one more mutation. -/
def after (x : Reached t) (m : Mutation) (h : Admitted t.env t.inPlay diskOk m x.engine := by decide +kernel) : Reached t :=
  ⟨(perform t.env diskOk m x.engine).2, x.reach.step ⟨diskOk, m, h, rfl⟩⟩

theorem step_after (x : Reached t) (m : Mutation) (h : Admitted t.env t.inPlay diskOk m x.engine) :
    Step t.env t.inPlay x.engine (x.after m h).engine := ⟨diskOk, m, h, rfl⟩

end Reached

end TicketEngine

end Fortiq
