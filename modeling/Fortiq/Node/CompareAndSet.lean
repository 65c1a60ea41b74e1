/-
What the revision in a signed lifecycle request compares. The event loop looks the ticket up and compares its revision
in one section of the engine, reads it again to check the transition in a second, and appends the event in a third;
other tasks append in between. The ticket to which the event is appended is past the expected revision by the changes
that other tasks have made since the comparison, so that the two are equal exactly if there were none.
-/
import Fortiq.Node.Once

namespace Fortiq

open TicketEngine TicketReducer

/-! ## Counting the changes in between -/

/-- The event loop, and beside it whether the request at hand has been compared with its ticket and how often other
tasks have changed the ticket since. -/
structure CasState where
  loop : LoopState
  compared : Bool
  since : Nat

namespace CasState

section

variable (net : NodeEnv) (localPeerId : String) (authority : Option AuthorityContext)

/-- The step leaves the ticket of the request at hand. -/
def leavesTicket (c : CasState) (l : LoopLabel) : Bool :=
  c.loop.handling.all fun (m, _) =>
    (c.loop.step net localPeerId authority l).engine.state.get m.ticketId = c.loop.engine.state.get m.ticketId

def step (c : CasState) (l : LoopLabel) : CasState :=
  let loop := c.loop.step net localPeerId authority l
  match l with
  | .work _ =>
    { c with loop, since := if c.compared && !c.leavesTicket net localPeerId authority l then c.since + 1 else c.since }
  | .deliver _ _ _ => { loop, compared := false, since := 0 }
  -- the first section of a request is the one that compares
  | .advance => { c with loop, compared := true }
  | .answer => { c with loop }

end

end CasState

def casMachine (net : NodeEnv) (U : Set Event) (localPeerId : String) (authority : Option AuthorityContext) :
    Machine CasState LoopLabel where
  start := fun c => (loopMachine net U localPeerId authority).start c.loop
  enabled := fun c l => c.loop.Enabled net U l
  step := fun c l => c.step net localPeerId authority l

theorem casMachine_enabled_advance {net : NodeEnv} {U : Set Event} {localPeerId : String}
    {authority : Option AuthorityContext} {c : CasState} (h : (casMachine net U localPeerId authority).enabled c .advance) :
    ∃ m a k, c.loop.handling = some (m, .act a k) ∧ Admits net.toEnv U a c.loop.engine :=
  LoopState.enabled_advance h

/-! ## The difference of the revisions -/

section Cas

variable {net : NodeEnv} {U : Set Event} {localPeerId : String} {authority : Option AuthorityContext}
  {m : TicketStateMutation}

/-- A section of a request reads, or appends the change; after that it only reads. -/
theorem Stage.read_or_append {engine : TicketEngine} {produced : List (TicketStateMutation × Event)} {a : Action}
    {k : a.Ret → Handler TicketSyncResponse} (h : Stage net localPeerId authority engine produced m (.act a k)) :
    a.IsRead ∨ (∃ actor ts disk, a = .append (.statusChanged m.ticketId m.newState actor none) ts disk) ∧
      ∀ r, (k r).Every Action.IsRead := by
  generalize hprog : Prog.act a k = program at h
  cases h with
  | arrived turn policy peer =>
    obtain ⟨k', heq, -⟩ := updateStatusSigned_eq net turn localPeerId authority policy peer m
    rw [heq] at hprog
    cases hprog
    exact .inl trivial
  | authorized turn policy peer current due =>
    obtain ⟨k', heq, -⟩ := tryChange_eq net turn policy peer m current
    rw [heq] at hprog
    cases hprog
    exact .inl trivial
  | checked actor ts disk k' due counts rest =>
    cases hprog
    exact .inr ⟨⟨actor, ts, disk, rfl⟩, rest⟩
  | finished rest =>
    cases hprog
    exact .inl rest.1

/-- Where the request at hand is: at its start; compared, so that the ticket is past the expected revision by what has
changed since; or done with. -/
inductive Compared (net : NodeEnv) (localPeerId : String) (authority : Option AuthorityContext) (c : CasState)
    (m : TicketStateMutation) (p : Handler TicketSyncResponse) : Prop
  | arrived (turn : Turn) (policy : AuthorityPolicy) (peer : PeerId)
      (program : p = updateStatusSigned net turn localPeerId authority policy peer m) (before : c.compared = false)
      (none : c.since = 0)
  | compared (after : c.compared = true)
      (revision : revisionOf (c.loop.engine.state.get m.ticketId) = m.expectedRevision.toNat + c.since)
  | finished (rest : p.Every Action.IsRead)

/-- The invariant of the loop with its count. -/
structure CasState.Inv (net : NodeEnv) (U : Set Event) (localPeerId : String) (authority : Option AuthorityContext)
    (c : CasState) : Prop where
  once : c.loop.Once net U localPeerId authority
  compared : ∀ m p, c.loop.handling = some (m, p) → Compared net localPeerId authority c m p

namespace CasState.Inv

variable {c : CasState}

theorem work (hU : IdealIds U) (hfin : U.Finite) (hcard : U.ncard < 2 ^ 64) (h : c.Inv net U localPeerId authority)
    {a : Action} (hl : c.loop.Enabled net U (.work a)) :
    (c.step net localPeerId authority (.work a)).Inv net U localPeerId authority := by
  refine ⟨h.once.step hU hfin hcard hl, fun m p hp => ?_⟩
  have hp : c.loop.handling = some (m, p) := hp
  cases h.compared m p hp with
  | arrived turn policy peer program before none =>
    exact .arrived turn policy peer program before (by simp [CasState.step, before, none])
  | compared after revision =>
    refine .compared after ?_
    have hleaves : c.leavesTicket net localPeerId authority (.work a) =
        decide ((exec net.toEnv a c.loop.engine).2.state.get m.ticketId = c.loop.engine.state.get m.ticketId) := by
      simp [CasState.leavesTicket, hp, LoopState.step]
    have hone := local_revision hU hfin hcard h.once.sound h.once.synced hl.1 hl.2 m.ticketId
    simp only [CasState.step, LoopState.step, after, hleaves, Bool.true_and]
    by_cases heq : (exec net.toEnv a c.loop.engine).2.state.get m.ticketId = c.loop.engine.state.get m.ticketId
    · simp [heq, revision]
    · simp [heq, hone.resolve_left heq, revision, Nat.add_assoc]
  | finished rest => exact .finished rest

theorem advance (hU : IdealIds U) (hfin : U.Finite) (hcard : U.ncard < 2 ^ 64) (h : c.Inv net U localPeerId authority)
    (hl : c.loop.Enabled net U .advance) {a : Action} {k : a.Ret → Handler TicketSyncResponse}
    (hs : c.loop.handling = some (m, .act a k)) :
    (c.step net localPeerId authority .advance).Inv net U localPeerId authority := by
  refine ⟨h.once.step hU hfin hcard hl, fun m' p hp => ?_⟩
  have hengine : (c.step net localPeerId authority .advance).loop.engine = (exec net.toEnv a c.loop.engine).2 := by
    simp [CasState.step, LoopState.step, LoopState.advance, hs]
  have hp : some (m, k (exec net.toEnv a c.loop.engine).1) = some (m', p) := by
    rw [← hp]
    simp [CasState.step, LoopState.step, LoopState.advance, hs]
  cases hp
  cases h.compared m _ hs with
  | arrived turn policy peer program before none =>
    obtain ⟨k', heq, hk⟩ := updateStatusSigned_eq net turn localPeerId authority policy peer m
    rw [heq] at program
    cases program
    rcases hk c.loop.engine.state with ⟨response, hresp⟩ | ⟨hauth, -⟩
    · refine .finished ?_
      rw [show k' (exec net.toEnv .readState c.loop.engine).1 = .ret response from hresp]
      trivial
    · refine .compared rfl ?_
      rw [hengine, exec_isRead (a := .readState) trivial, revision_of_authorized hauth]
      show _ = _ + c.since
      rw [none, Nat.add_zero]
  | compared after revision =>
    rcases (h.once.stage m _ hs).read_or_append with hread | ⟨-, hrest⟩
    · refine .compared rfl ?_
      rw [hengine, exec_isRead hread]
      exact revision
    · exact .finished (hrest _)
  | finished rest => exact .finished (rest.2 _)

theorem step (hU : IdealIds U) (hfin : U.Finite) (hcard : U.ncard < 2 ^ 64) (h : c.Inv net U localPeerId authority)
    {l : LoopLabel} (hl : c.loop.Enabled net U l) :
    (c.step net localPeerId authority l).Inv net U localPeerId authority := by
  cases l with
  | work a => exact h.work hU hfin hcard hl
  | deliver peer turn m =>
    refine ⟨h.once.step hU hfin hcard hl, fun m' p hp => ?_⟩
    cases hp
    exact .arrived turn c.loop.engine.policy peer rfl rfl rfl
  | advance =>
    obtain ⟨m, a, k, hs, -⟩ := LoopState.enabled_advance hl
    exact h.advance hU hfin hcard hl hs
  | answer => exact ⟨h.once.step hU hfin hcard hl, fun m p hp => by cases hp⟩

end CasState.Inv

/-- Compare-and-set up to what comes between. Whenever the section of a request adds an event to the graph, the event
is the change it asks for, and the ticket is past the revision the request expects by the number of changes that other
tasks have made to it since the comparison; so it is at the expected revision exactly if there were none. -/
theorem compare_and_set (hU : IdealIds U) (hfin : U.Finite) (hcard : U.ncard < 2 ^ 64) {c : CasState}
    (h : (casMachine net U localPeerId authority).Reachable c) {a : Action} {k : a.Ret → Handler TicketSyncResponse}
    (hs : c.loop.handling = some (m, .act a k)) (ha : Admits net.toEnv U a c.loop.engine) {e : Event}
    (hnew : e ∈ (exec net.toEnv a c.loop.engine).2.graph.events) (hold : e ∉ c.loop.engine.graph.events) :
    (∃ actor, e.payload = .ticket (.statusChanged m.ticketId m.newState actor none)) ∧
    revisionOf (c.loop.engine.state.get m.ticketId) = m.expectedRevision.toNat + c.since ∧
    (revisionOf (c.loop.engine.state.get m.ticketId) = m.expectedRevision.toNat ↔ c.since = 0) := by
  have hinv : c.Inv net U localPeerId authority := by
    refine h.invariant (fun c₀ h₀ => ⟨LoopState.once_start hU h₀, fun m p hp => ?_⟩) fun c l hl hc =>
      hc.step hU hfin hcard hl
    rw [h₀.2.1] at hp
    cases hp
  -- a section that reads adds nothing
  have hnot : ¬ a.IsRead := fun hread => hold (by rwa [exec_isRead hread] at hnew)
  have hrev : revisionOf (c.loop.engine.state.get m.ticketId) = m.expectedRevision.toNat + c.since := by
    cases hinv.compared m _ hs with
    | arrived turn policy peer program before none =>
      obtain ⟨k', heq, -⟩ := updateStatusSigned_eq net turn localPeerId authority policy peer m
      rw [heq] at program
      cases program
      exact absurd trivial hnot
    | compared after revision => exact revision
    | finished rest => exact absurd rest.1 hnot
  refine ⟨?_, hrev, by omega⟩
  obtain ⟨⟨actor, ts, disk, rfl⟩, -⟩ := (hinv.once.stage m _ hs).read_or_append.resolve_left hnot
  simp only [exec] at hnew
  rcases hinv.once.sound.append_effect hU ha with ⟨hg, -⟩ | ⟨e', hpay, hev, -⟩
  · rw [hg] at hnew
    exact absurd hnew hold
  · rw [hev, List.mem_append, List.mem_singleton] at hnew
    obtain rfl := hnew.resolve_left hold
    exact ⟨actor, hpay⟩

end Cas

namespace OnceSample

/-- A ticket of the node, a message on it, and the change of the request after the message. -/
def casTable : EventTable where
  bodies :=
    [⟨[], 10, 1, .ticket (.created "T-aaaaaaaa" "printer" "on fire" .high "home")⟩,
     ⟨[idAt 0], 90, 2, .ticket (.chatMessageAdded "T-aaaaaaaa" "m1" "home" "still burning" 90)⟩,
     ⟨[idAt 1], 100, 3, .ticket (.statusChanged "T-aaaaaaaa" .inProgress "op" none)⟩]

def casNet : NodeEnv := { onceNet with toEnv := casTable.env }

def casStart : CasState where
  loop :=
    { engine := ((Reached.start casTable).after (.createTicket "aaaaaaaa" 10 "printer" "on fire" .high "home")).engine
      handling := none
      produced := [] }
  compared := false
  since := 0

/-- The request is compared with the ticket; a message comes over IPC; the request goes on. -/
def interleaved : List LoopLabel :=
  [.deliver operator atHundred request, .advance,
   .work (.append (.chatMessageAdded "T-aaaaaaaa" "m1" "home" "still burning" 90) 90 diskOk), .advance]

/-- The request is about to append. -/
def overtaken : CasState := (casMachine casNet casTable.inPlay "home" (some owner)).after casStart interleaved

def overtakenNext : CasState := (casMachine casNet casTable.inPlay "home" (some owner)).step overtaken .advance

instance (c : CasState) (l : LoopLabel) :
    Decidable ((casMachine casNet casTable.inPlay "home" (some owner)).enabled c l) :=
  inferInstanceAs (Decidable ((loopMachine casNet casTable.inPlay "home" (some owner)).enabled c.loop l))

theorem overtaken_reachable : (casMachine casNet casTable.inPlay "home" (some owner)).Reachable overtaken :=
  Machine.Reachable.after interleaved (.of_start ⟨Reached.reach _, rfl, rfl⟩) (by decide +kernel)

/-- The change is applied to the ticket at its second revision, though the request expects the first. -/
theorem compare_and_set_overtaken :
    (casMachine casNet casTable.inPlay "home" (some owner)).Reachable overtakenNext ∧
    request.expectedRevision = 1 ∧ revisionOf (overtaken.loop.engine.state.get "T-aaaaaaaa") = 2 ∧
    overtakenNext.loop.produced.map (fun x => (x.1.expectedRevision, x.2.payload)) =
      [(1, .ticket (.statusChanged "T-aaaaaaaa" .inProgress "op" none))] ∧
    revisionOf (overtakenNext.loop.engine.state.get "T-aaaaaaaa") = 3 :=
  ⟨overtaken_reachable.step (by decide +kernel), by decide +kernel⟩

/-- The theorem at this request: one change has come between. -/
theorem compare_and_set_interleaved :
    overtaken.since = 1 ∧ revisionOf (overtaken.loop.engine.state.get "T-aaaaaaaa") = 1 + overtaken.since := by
  obtain ⟨hsince, hm, e, hnew, hold⟩ : overtaken.since = 1 ∧
      overtaken.loop.handling.map (fun x => (x.1.ticketId, x.1.expectedRevision)) = some ("T-aaaaaaaa", 1) ∧
      ∃ e ∈ overtakenNext.loop.engine.graph.events, e ∉ overtaken.loop.engine.graph.events := by decide +kernel
  refine ⟨hsince, ?_⟩
  obtain ⟨m, a, k, hs, ha⟩ := casMachine_enabled_advance
    (by decide +kernel : (casMachine casNet casTable.inPlay "home" (some owner)).enabled overtaken .advance)
  rw [hs] at hm
  simp only [Option.map_some, Option.some.injEq, Prod.mk.injEq] at hm
  have hnext : overtakenNext.loop.engine = (exec casNet.toEnv a overtaken.loop.engine).2 := by
    simp only [overtakenNext, casMachine, CasState.step, LoopState.step, LoopState.advance, hs]
  obtain ⟨hfin, hcard⟩ := casTable.finite_ncard_le
  have hrev := (compare_and_set casTable.idealIds hfin (hcard.trans_lt (by decide)) overtaken_reachable hs ha
    (hnext ▸ hnew) hold).2.1
  rwa [hm.1, hm.2] at hrev

end OnceSample

end Fortiq
