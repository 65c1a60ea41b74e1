/-
A batch of remote objects against the same objects one by one (`apply_remote_objects` and
`apply_remote_object` of `fortiq-core/src/engine.rs`).
The single call replaces the state after every insertion; the batch replaces it once, after the last object,
and only if an insertion was counted. A refused insertion leaves the graph, so the two agree: an accumulator of
the batch, once settled, is the engine the single calls have reached.
-/
import Fortiq.Engine.Step

namespace Fortiq.TicketEngine

variable {env : Env} {disk : Disk}

/-! ## One by one -/

/-- One call of `apply_remote_object`, whose error is ignored and whose success is counted. -/
def applyCounted (env : Env) (disk : Disk) (acc : Nat × TicketEngine) (obj : SignedObject) : Nat × TicketEngine :=
  match perform env disk (.applyRemoteObject obj) acc.2 with
  | (.ok _, s) => (acc.1 + 1, s)
  | (.error _, s) => (acc.1, s)

/-- `apply_remote_object` on each object in turn: the number of successful calls, and the engine left. -/
def applyEach (env : Env) (disk : Disk) (objects : List SignedObject) (s : TicketEngine) : Nat × TicketEngine :=
  objects.foldl (applyCounted env disk) (0, s)

/-! ## The batch -/

/-- An object that is stored and not inserted may be stored before the state is replaced. -/
theorem settle_with_store (n : Nat) (s : TicketEngine) (store : FsObjectStore) :
    settle env (n, { s with store := store }) = (n, { (settle env (n, s)).2 with store := store, graph := s.graph }) := by
  unfold settle; split <;> rfl

/-- Once an object is counted, the state before it does not matter. -/
theorem settle_succ (n k : Nat) (s : TicketEngine) (store : FsObjectStore) (graph : EventGraph) :
    settle env (n + 1, { s with store := store, graph := graph }) =
      (n + 1, { (settle env (k, s)).2 with
        store := store, graph := graph, state := TicketReducer.reduce env graph }) := by
  unfold settle
  rw [if_pos (Nat.succ_pos n)]
  split <;> rfl

/-- An object that is no valid event, or cannot be written, is passed over. -/
theorem ingestObject_skip {s : TicketEngine} {obj : SignedObject} (n : Nat)
    (h : decoded env obj = none ∨ FsObjectStore.WriteFails env.crypto disk s.store obj) :
    ingestObject env disk (n, s) obj = (n, s) := by
  rcases ingestObject_cases env disk n s obj with ⟨he, -⟩ | ⟨e, store', hd, hput, -⟩
  · exact he
  · rcases h with h | hw
    · rw [h] at hd; cases hd
    · obtain ⟨err, hp⟩ := hw.put
      rw [hp] at hput; cases hput

/-- An object that is written has its event inserted, and is counted unless the graph refuses it. -/
theorem ingestObject_put {s : TicketEngine} {obj : SignedObject} {e : Event} {store' : FsObjectStore} (n : Nat)
    (hd : decoded env obj = some e) (hput : s.store.put env.crypto disk obj = (.ok obj.id, store')) :
    ingestObject env disk (n, s) obj =
      (if (s.graph.insert e).1 = .ok () then n + 1 else n, { s with store := store', graph := (s.graph.insert e).2 }) := by
  rcases ingestObject_cases env disk n s obj with ⟨-, hn | hw⟩ | ⟨e', store'', hd', hput', he⟩
  · rw [hd] at hn; cases hn
  · obtain ⟨err, hp⟩ := hw.put
    rw [hp] at hput; cases hput
  · rw [hd] at hd'; rw [hput] at hput'
    cases hd'; cases hput'
    exact he

/-- A single call on a settled accumulator is the object of the batch, settled again. -/
theorem applyCounted_settle (acc : Nat × TicketEngine) (obj : SignedObject) :
    applyCounted env disk (settle env acc) obj = settle env (ingestObject env disk acc obj) := by
  obtain ⟨n, s⟩ := acc
  have hcases := applyRemoteObject_cases env disk obj (settle env (n, s)).2
  rw [settle_store, settle_graph] at hcases
  unfold applyCounted
  rw [settle_fst]
  rcases hcases with ⟨hd, err, -, hp⟩ | ⟨e, hd, ⟨hw, err, -, hp⟩ | ⟨store', hput, ⟨err, hi, hp⟩ | ⟨g', hi, hp⟩⟩⟩
  · rw [hp, ingestObject_skip n (.inl hd)]
    exact Prod.ext (settle_fst (n, s)).symm rfl
  · rw [hp, ingestObject_skip n (.inr hw)]
    exact Prod.ext (settle_fst (n, s)).symm rfl
  · rw [hp, ingestObject_put n hd hput, hi, if_neg (by simp)]
    exact (settle_with_store n s store').symm
  · rw [hp, ingestObject_put n hd hput, hi, if_pos rfl]
    exact (settle_succ n n s store' g').symm

/-- A batch of remote objects is its objects one by one: it leaves the engine that `apply_remote_object` on each
of them in turn leaves, errors ignored, and returns the number of those calls that succeed. -/
theorem applyRemoteObjects_eq_applyEach (env : Env) (disk : Disk) (objects : List SignedObject) (s : TicketEngine) :
    perform env disk (.applyRemoteObjects objects) s =
      (.ok (.count (applyEach env disk objects s).1), (applyEach env disk objects s).2) := by
  have hfold : applyEach env disk objects s = settle env (objects.foldl (ingestObject env disk) (0, s)) := by
    rw [← List.foldl_hom (settle env) (fun acc obj => applyCounted_settle acc obj)]
    rfl
  rw [perform_applyRemoteObjects, hfold]

end Fortiq.TicketEngine
