/-
Signed lifecycle requests and their replays. A node does not remember the requests it has applied, and a queue sends a
request again at every connection; what keeps it from being applied again is the revision it expects. The event loop
handles one request at a time, section by section, while other tasks append what they will. When the event of a request
joins the graph, the ticket is past the expected revision: either the event counts, or another one has counted since
the request was checked.
-/
import Fortiq.Engine.Replay
import Fortiq.Lib.Machine
import Fortiq.Node.Basic

namespace Fortiq

open TicketEngine TicketReducer

/-! ## The event loop among other tasks -/

/-- The engine, the request the event loop is at with what is left to do for it, and beside them the events that
requests have produced. -/
structure LoopState where
  engine : TicketEngine
  handling : Option (TicketStateMutation × Handler TicketSyncResponse)
  produced : List (TicketStateMutation × Event)

inductive LoopLabel where
  /-- Another task runs a section of the engine: an operation over IPC, a delivery, an import. -/
  | work (a : Action)
  /-- A request comes in, for the first time or again. -/
  | deliver (peer : PeerId) (turn : Turn) (mutation : TicketStateMutation)
  /-- The next section of the request at hand. -/
  | advance
  | answer

namespace LoopState

section

variable (net : NodeEnv) (U : Set Event) (localPeerId : String) (authority : Option AuthorityContext)

/-- One section of the request at hand; what it adds to the graph it has produced. -/
def advance (s : LoopState) : LoopState :=
  match s.handling with
  | some (mutation, .act a k) =>
    let r := exec net.toEnv a s.engine
    let new := r.2.graph.events.drop s.engine.graph.events.length
    { engine := r.2, handling := some (mutation, k r.1), produced := s.produced ++ new.map fun e => (mutation, e) }
  | _ => s

def step (s : LoopState) : LoopLabel → LoopState
  | .work a => { s with engine := (exec net.toEnv a s.engine).2 }
  | .deliver peer turn mutation =>
    let program := updateStatusSigned net turn localPeerId authority s.engine.policy peer mutation
    { s with handling := some (mutation, program) }
  | .advance => s.advance net
  | .answer => { s with handling := none }

/-- Other tasks read and append; requests are handled one after the other. -/
def Enabled (s : LoopState) : LoopLabel → Prop
  | .work a => a.IsLocal ∧ Admits net.toEnv U a s.engine
  | .deliver _ _ _ => s.handling.isNone
  | .advance => match s.handling with
    | some (_, .act a _) => Admits net.toEnv U a s.engine
    | _ => False
  | .answer => match s.handling with
    | some (_, .ret _) => True
    | _ => False

end

end LoopState

/-- The client node: an engine as it may be, and from then on appended events only. -/
def loopMachine (net : NodeEnv) (U : Set Event) (localPeerId : String) (authority : Option AuthorityContext) :
    Machine LoopState LoopLabel where
  start := fun s => Reach net.toEnv U s.engine ∧ s.handling = none ∧ s.produced = []
  enabled := fun s l => s.Enabled net U l
  step := fun s l => s.step net localPeerId authority l

instance {env : Env} {U : Set Event} [DecidablePred (· ∈ U)] (a : Action) (s : TicketEngine) :
    Decidable (Admits env U a s) :=
  inferInstanceAs (Decidable (∀ e ∈ events env s a, e ∈ U))

instance : DecidablePred Action.IsLocal := fun a => by cases a <;> unfold Action.IsLocal <;> infer_instance

instance {net : NodeEnv} {U : Set Event} [DecidablePred (· ∈ U)] {localPeerId : String}
    {authority : Option AuthorityContext} (s : LoopState) (l : LoopLabel) :
    Decidable ((loopMachine net U localPeerId authority).enabled s l) := by
  show Decidable (s.Enabled net U l)
  obtain ⟨engine, handling, produced⟩ := s
  cases l with
  | work a => exact inferInstanceAs (Decidable (_ ∧ _))
  | deliver peer turn m => exact inferInstanceAs (Decidable (handling.isNone = true))
  | advance | answer =>
    rcases handling with _ | ⟨m, response | err | ⟨a, k⟩⟩ <;> unfold LoopState.Enabled <;> infer_instance

/-- The request at hand is at a section. -/
theorem LoopState.enabled_advance {net : NodeEnv} {U : Set Event} {s : LoopState} (h : s.Enabled net U .advance) :
    ∃ m a k, s.handling = some (m, .act a k) ∧ Admits net.toEnv U a s.engine := by
  simp only [LoopState.Enabled] at h
  rcases hs : s.handling with _ | ⟨m, response | err | ⟨a, k⟩⟩
  · rw [hs] at h; exact h.elim
  · rw [hs] at h; exact h.elim
  · exact err.elim
  · rw [hs] at h
    exact ⟨m, a, k, rfl, h⟩

/-! ## Revisions -/

/-- Every ticket is as it was, or has a later revision. -/
def Later (s s' : TicketEngine) : Prop :=
  ∀ t, s'.state.get t = s.state.get t ∨ revisionOf (s.state.get t) < revisionOf (s'.state.get t)

theorem Later.le {s s' : TicketEngine} (h : Later s s') (t : String) :
    revisionOf (s.state.get t) ≤ revisionOf (s'.state.get t) := by
  rcases h t with heq | hlt
  · rw [heq]
  · exact hlt.le

section Revisions

variable {env : Env} {U : Set Event} {s : TicketEngine}

/-- A ticket has no more revisions than the graph has events. -/
theorem revision_le_length (h : Sound U s) (hs : Synced env s) (hlen : s.graph.events.length < 2 ^ 64) (t : String) :
    revisionOf (s.state.get t) ≤ s.graph.events.length := by
  rw [hs, h.reduce_eq]
  exact replay_revision_le hlen

variable (hU : IdealIds U) (hfin : U.Finite) (hcard : U.ncard < 2 ^ 64)

include hU hfin hcard

/-- While events join the graph, there is room for another revision. -/
theorem revision_room (h : Sound U s) (hs : Synced env s) {a : Action} (ha : Admits env U a s) {e : Event}
    (hev : (exec env a s).2.graph.events = s.graph.events ++ [e]) (t : String) :
    revisionOf (s.state.get t) + 1 < 2 ^ 64 := by
  have hlen := (exec_sound hU a s ha h).1.length_le hfin
  rw [hev, List.length_append, List.length_singleton] at hlen
  have hrev := revision_le_length h hs (by omega) t
  omega

/-- A section of a local call leaves a ticket as it is or counts one revision. -/
theorem local_revision (h : Sound U s) (hs : Synced env s) {a : Action} (hl : a.IsLocal) (ha : Admits env U a s)
    (t : String) : (exec env a s).2.state.get t = s.state.get t ∨
      revisionOf ((exec env a s).2.state.get t) = revisionOf (s.state.get t) + 1 := by
  cases a with
  | append te ts disk =>
    simp only [exec]
    rcases h.append_effect hU ha with ⟨-, hst⟩ | ⟨e, -, hev, -, hst⟩
    · rw [hst]; exact .inl rfl
    · rw [hst]
      exact get_step_revision e (revision_room hU hfin hcard h hs ha hev t)
  | readState | readGraph | getObject => exact .inl rfl
  | _ => exact hl.elim

/-- What a section of a local call does to the tickets. -/
theorem local_later (h : Sound U s) (hs : Synced env s) {a : Action} (hl : a.IsLocal) (ha : Admits env U a s) :
    Synced env (exec env a s).2 ∧ Later s (exec env a s).2 := by
  refine ⟨?_, fun t => (local_revision hU hfin hcard h hs hl ha t).imp_right fun hone => by omega⟩
  cases a with
  | append te ts disk => exact append_synced hU ha h hs
  | readState | readGraph | getObject => exact hs
  | _ => exact hl.elim

end Revisions

/-! ## The program of a request -/

/-- The sections that only read. -/
def Action.IsRead : Action → Prop
  | .readState => True
  | .readGraph => True
  | .getObject _ _ => True
  | _ => False

theorem exec_isRead {env : Env} {a : Action} (h : a.IsRead) (s : TicketEngine) : (exec env a s).2 = s := by
  cases a with
  | readState | readGraph | getObject => rfl
  | _ => exact h.elim

section Program

variable (net : NodeEnv) (turn : Turn) (localPeerId : String) (authority : Option AuthorityContext)
  (policy : AuthorityPolicy) (peer : PeerId) (m : TicketStateMutation)

/-- The answer to a request whose change has been tried. -/
def changeResponse (current : Option TicketRecord) : Result TicketRecord → TicketSyncResponse
  | .ok ticket => .mutationApplied ticket
  | .error error => .mutationRejected .conflict error.text current

/-- The second part of the program: the change itself. -/
def tryChange (current : Option TicketRecord) : Handler TicketSyncResponse := do
  let r ← (Call.updateTicketState policy turn.disk turn.timestamp m.ticketId m.newState (net.peerToString peer)).attempt
  return changeResponse current r

/-- The first section looks the ticket up; the request is refused, or its change is tried. -/
theorem updateStatusSigned_eq : ∃ k, updateStatusSigned net turn localPeerId authority policy peer m = .act .readState k ∧
    ∀ st : TicketStateStore, (∃ response, k st = .ret response) ∨
      (st.getTicket m.ticketId).any (lifecycleAuthorized net turn localPeerId authority peer m) = true ∧
        k st = tryChange net turn policy peer m (st.getTicket m.ticketId) := by
  refine ⟨_, rfl, fun st => ?_⟩
  simp only [Prog.bind, Prog.pure_eq]
  show (∃ _, (if (!(st.getTicket m.ticketId).any _) = true then _ else _) = _) ∨ _ ∧
    (if (!(st.getTicket m.ticketId).any _) = true then _ else _) = _
  cases (st.getTicket m.ticketId).any (lifecycleAuthorized net turn localPeerId authority peer m) with
  | false => exact .inl ⟨_, rfl⟩
  | true =>
    refine .inr ⟨rfl, congrArg (Prog.bind _) (funext fun r => ?_)⟩
    cases r <;> rfl

/-- The second section reads the ticket again; the change is refused, or its event is appended, and after that the
program only reads. -/
theorem tryChange_eq (current : Option TicketRecord) : ∃ k, tryChange net turn policy peer m current = .act .readState k ∧
    ∀ st : TicketStateStore, (∃ response, k st = .ret response) ∨
      ∃ k', k st = .act (.append (.statusChanged m.ticketId m.newState (net.peerToString peer) none) turn.timestamp turn.disk) k' ∧
        (∀ r, (k' r).Every Action.IsRead) ∧
        Applicable st (.statusChanged m.ticketId m.newState (net.peerToString peer) none) := by
  refine ⟨_, rfl, fun st => ?_⟩
  simp only [Prog.bind, Prog.pure_eq]
  cases hg : st.getTicket m.ticketId with
  | none => exact .inl ⟨_, rfl⟩
  | some ticket =>
    simp only [Prog.ofOption_some, Prog.ret_bind]
    cases hc : policy.canTransitionTicket ticket.state m.newState (net.peerToString peer) with
    | false => exact .inl ⟨_, rfl⟩
    | true =>
      refine .inr ⟨_, rfl, fun r => ?_, ?_⟩
      · have hget : (Call.getTicket m.ticketId).Every Action.IsRead := ⟨trivial, fun _ => trivial⟩
        have happend := (Prog.every_ofExcept r).bind fun _ => hget.bind fun t =>
          Prog.every_ofOption (.msg "failed to retrieve updated ticket") t
        exact happend.attempt.bind (f := fun r => .ret (changeResponse current r)) fun _ => trivial
      · obtain ⟨a, ha, rfl⟩ := Option.map_eq_some_iff.1 hg
        exact ⟨a, ha, hc⟩

end Program

/-! ## Requests are applied once -/

section Once

variable {net : NodeEnv} {U : Set Event} {localPeerId : String} {authority : Option AuthorityContext}

/-- The request has produced nothing yet, and the ticket is at the revision it expects, or past it. -/
structure Due (engine : TicketEngine) (produced : List (TicketStateMutation × Event)) (m : TicketStateMutation) : Prop where
  new : m ∉ produced.map Prod.fst
  revision : m.expectedRevision.toNat ≤ revisionOf (engine.state.get m.ticketId)

/-- How far a request is: at its start; found authorized, so that it is due; found applicable, so that its event
counts unless the ticket has moved; or done with. -/
inductive Stage (net : NodeEnv) (localPeerId : String) (authority : Option AuthorityContext) (engine : TicketEngine)
    (produced : List (TicketStateMutation × Event)) (m : TicketStateMutation) : Handler TicketSyncResponse → Prop
  | arrived (turn : Turn) (policy : AuthorityPolicy) (peer : PeerId) :
      Stage net localPeerId authority engine produced m (updateStatusSigned net turn localPeerId authority policy peer m)
  | authorized (turn : Turn) (policy : AuthorityPolicy) (peer : PeerId) (current : Option TicketRecord)
      (due : Due engine produced m) : Stage net localPeerId authority engine produced m (tryChange net turn policy peer m current)
  | checked (actor : String) (ts : UInt64) (disk : Disk) (k : Result (Event × SignedObject) → Handler TicketSyncResponse)
      (due : Due engine produced m)
      (counts : m.expectedRevision.toNat < revisionOf (engine.state.get m.ticketId) ∨
        Applicable engine.state (.statusChanged m.ticketId m.newState actor none))
      (rest : ∀ r, (k r).Every Action.IsRead) : Stage net localPeerId authority engine produced m
        (.act (.append (.statusChanged m.ticketId m.newState actor none) ts disk) k)
  | finished {p : Handler TicketSyncResponse} (rest : p.Every Action.IsRead) : Stage net localPeerId authority engine produced m p

variable {engine engine' : TicketEngine} {produced : List (TicketStateMutation × Event)} {m : TicketStateMutation}
  {p : Handler TicketSyncResponse}

/-- A request is authorized at the revision it expects. -/
theorem revision_of_authorized {turn : Turn} {peer : PeerId}
    (h : (engine.state.getTicket m.ticketId).any (lifecycleAuthorized net turn localPeerId authority peer m) = true) :
    revisionOf (engine.state.get m.ticketId) = m.expectedRevision.toNat := by
  obtain ⟨ticket, hget, hticket⟩ := (Option.any_eq_true _ _).1 h
  obtain ⟨a, ha, rfl⟩ := Option.map_eq_some_iff.1 hget
  simp only [lifecycleAuthorized, Bool.and_eq_true, decide_eq_true_eq] at hticket
  rw [ha, ← hticket.2]
  rfl

theorem Due.later (h : Due engine produced m) (hl : Later engine engine') : Due engine' produced m :=
  ⟨h.new, h.revision.trans (hl.le _)⟩

/-- Other tasks do not set a request back. -/
theorem Stage.later (h : Stage net localPeerId authority engine produced m p) (hl : Later engine engine') :
    Stage net localPeerId authority engine' produced m p := by
  cases h with
  | arrived turn policy peer => exact .arrived turn policy peer
  | authorized turn policy peer current due => exact .authorized turn policy peer current (due.later hl)
  | checked actor ts disk k due counts rest =>
    refine .checked actor ts disk k (due.later hl) ?_ rest
    rcases hl m.ticketId with heq | hlt
    · simpa only [Applicable, heq] using counts
    · exact .inl (due.revision.trans_lt hlt)
  | finished rest => exact .finished rest

/-- The invariant of the loop: the tickets of the requests that have produced an event are past the revisions these
expect, and no request has produced two. -/
structure LoopState.Once (net : NodeEnv) (U : Set Event) (localPeerId : String) (authority : Option AuthorityContext)
    (s : LoopState) : Prop where
  sound : Sound U s.engine
  synced : Synced net.toEnv s.engine
  past : ∀ x ∈ s.produced, x.1.expectedRevision.toNat < revisionOf (s.engine.state.get x.1.ticketId)
  made : ∀ x ∈ s.produced, x.2 ∈ s.engine.graph.events ∧
    ∃ actor, x.2.payload = .ticket (.statusChanged x.1.ticketId x.1.newState actor none)
  once : (s.produced.map Prod.fst).Nodup
  stage : ∀ m p, s.handling = some (m, p) → Stage net localPeerId authority s.engine s.produced m p

namespace LoopState.Once

variable {s : LoopState}

/-- The request at hand goes on without touching the engine. -/
theorem proceed (h : s.Once net U localPeerId authority) (hp : Stage net localPeerId authority s.engine s.produced m p) :
    ({ s with handling := some (m, p) } : LoopState).Once net U localPeerId authority := by
  refine ⟨h.sound, h.synced, h.past, h.made, h.once, fun m' p' heq => ?_⟩
  cases heq
  exact hp

/-- A request that is found authorized is due: were it not its first time, the ticket would be past the revision. -/
theorem due (h : s.Once net U localPeerId authority) {turn : Turn} {peer : PeerId}
    (hauth : (s.engine.state.getTicket m.ticketId).any (lifecycleAuthorized net turn localPeerId authority peer m) = true) :
    Due s.engine s.produced m := by
  have hexp := revision_of_authorized hauth
  refine ⟨fun hm => ?_, hexp.ge⟩
  obtain ⟨x, hx, rfl⟩ := List.mem_map.1 hm
  have hlt := h.past x hx
  omega

/-- A section of another task. -/
theorem work (hU : IdealIds U) (hfin : U.Finite) (hcard : U.ncard < 2 ^ 64) (h : s.Once net U localPeerId authority)
    {a : Action} (hl : a.IsLocal) (ha : Admits net.toEnv U a s.engine) :
    ({ s with engine := (exec net.toEnv a s.engine).2 } : LoopState).Once net U localPeerId authority := by
  obtain ⟨hsound, hgrows⟩ := exec_sound hU a s.engine ha h.sound
  obtain ⟨hsynced, hlater⟩ := local_later hU hfin hcard h.sound h.synced hl ha
  refine ⟨hsound, hsynced, fun x hx => (h.past x hx).trans_le (hlater.le _), fun x hx => ?_, h.once,
    fun m p heq => (h.stage m p heq).later hlater⟩
  obtain ⟨hmem, hpay⟩ := h.made x hx
  exact ⟨hgrows _ hmem, hpay⟩

/-- The event of a request that is due joins the graph: it is the request's first. -/
theorem produce (hU : IdealIds U) (hfin : U.Finite) (hcard : U.ncard < 2 ^ 64) (h : s.Once net U localPeerId authority)
    {actor : String} {ts : UInt64} {disk : Disk} (due : Due s.engine s.produced m)
    (counts : m.expectedRevision.toNat < revisionOf (s.engine.state.get m.ticketId) ∨
      Applicable s.engine.state (.statusChanged m.ticketId m.newState actor none))
    (ha : Admits net.toEnv U (.append (.statusChanged m.ticketId m.newState actor none) ts disk) s.engine)
    (hp : p.Every Action.IsRead) :
    let engine := (appendTicketEvent net.toEnv (.statusChanged m.ticketId m.newState actor none) ts disk s.engine).2
    ({ engine, handling := some (m, p),
       produced := s.produced ++ (engine.graph.events.drop s.engine.graph.events.length).map fun e => (m, e) } :
      LoopState).Once net U localPeerId authority := by
  intro engine
  have hwork : ({ s with engine } : LoopState).Once net U localPeerId authority :=
    h.work hU hfin hcard (a := .append _ ts disk) trivial ha
  rcases h.sound.append_effect hU ha with ⟨hg, -⟩ | ⟨e, hpay, hev, -, hst⟩
  · have hnone : engine.graph.events.drop s.engine.graph.events.length = [] := by
      rw [show engine.graph = s.engine.graph from hg, List.drop_length]
    rw [hnone, List.map_nil, List.append_nil]
    exact hwork.proceed (.finished hp)
  · have hone : engine.graph.events.drop s.engine.graph.events.length = [e] := by
      rw [show engine.graph.events = s.engine.graph.events ++ [e] from hev, List.drop_left]
    have hpast : m.expectedRevision.toNat < revisionOf (engine.state.get m.ticketId) := by
      have hlater := (local_later hU hfin hcard h.sound h.synced (a := .append _ ts disk) trivial ha).2
      rcases counts with hlt | happ
      · exact hlt.trans_le (hlater.le _)
      · have hroom := revision_room hU hfin hcard h.sound h.synced ha hev m.ticketId
        have hcount := @get_step_status net.toEnv _ _ _ _ _ _ hpay happ hroom
        rw [← show engine.state = _ from hst] at hcount
        have hrev := due.revision
        omega
    rw [hone, List.map_singleton]
    have hmem : ∀ x ∈ s.produced ++ [(m, e)], x ∈ s.produced ∨ x = (m, e) := fun x hx => by simpa using hx
    refine ⟨hwork.sound, hwork.synced, fun x hx => ?_, fun x hx => ?_, ?_, fun m' p' heq => ?_⟩
    · rcases hmem x hx with hx | rfl
      exacts [hwork.past x hx, hpast]
    · rcases hmem x hx with hx | rfl
      · exact hwork.made x hx
      · exact ⟨by rw [show engine.graph.events = s.engine.graph.events ++ [e] from hev]; simp, actor, hpay⟩
    · rw [List.map_append, List.map_singleton]
      exact h.once.append (List.nodup_singleton m) (by simpa using due.new)
    · cases heq
      exact .finished hp

theorem advance (hU : IdealIds U) (hfin : U.Finite) (hcard : U.ncard < 2 ^ 64) (h : s.Once net U localPeerId authority)
    {a : Action} {k : a.Ret → Handler TicketSyncResponse} (hs : s.handling = some (m, .act a k))
    (ha : Admits net.toEnv U a s.engine) : (s.advance net).Once net U localPeerId authority := by
  have hstage := h.stage m _ hs
  simp only [LoopState.advance, hs]
  -- a reading section leaves the engine, and with it the list of what was produced
  have hread : a.IsRead → Stage net localPeerId authority s.engine s.produced m (k (exec net.toEnv a s.engine).1) →
      ({ engine := (exec net.toEnv a s.engine).2, handling := some (m, k (exec net.toEnv a s.engine).1),
         produced := s.produced ++ ((exec net.toEnv a s.engine).2.graph.events.drop s.engine.graph.events.length).map
           fun e => (m, e) } : LoopState).Once net U localPeerId authority := by
    intro hr hnext
    rw [exec_isRead hr, List.drop_length, List.map_nil, List.append_nil]
    exact h.proceed hnext
  generalize hprog : Prog.act a k = program at hstage
  cases hstage with
  | arrived turn policy peer =>
    obtain ⟨k', heq, hk⟩ := updateStatusSigned_eq net turn localPeerId authority policy peer m
    rw [heq] at hprog
    cases hprog
    refine hread trivial ?_
    rcases hk s.engine.state with ⟨response, hresp⟩ | ⟨hauth, htry⟩
    · exact hresp ▸ .finished trivial
    · exact htry ▸ .authorized turn policy peer _ (h.due hauth)
  | authorized turn policy peer current due =>
    obtain ⟨k', heq, hk⟩ := tryChange_eq net turn policy peer m current
    rw [heq] at hprog
    cases hprog
    refine hread trivial ?_
    rcases hk s.engine.state with ⟨response, hresp⟩ | ⟨k'', happend, hrest, happ⟩
    · exact hresp ▸ .finished trivial
    · exact happend ▸ .checked _ _ _ _ due (.inr happ) hrest
  | checked actor ts disk k' due counts rest =>
    cases hprog
    exact h.produce hU hfin hcard due counts ha (rest _)
  | finished rest =>
    cases hprog
    exact hread rest.1 (.finished (rest.2 _))

theorem step (hU : IdealIds U) (hfin : U.Finite) (hcard : U.ncard < 2 ^ 64) (h : s.Once net U localPeerId authority)
    {l : LoopLabel} (hl : s.Enabled net U l) : (s.step net localPeerId authority l).Once net U localPeerId authority := by
  cases l with
  | work a => exact h.work hU hfin hcard hl.1 hl.2
  | deliver peer turn m => exact h.proceed (.arrived turn s.engine.policy peer)
  | advance =>
    obtain ⟨m, a, k, hs, ha⟩ := LoopState.enabled_advance hl
    exact h.advance hU hfin hcard hs ha
  | answer => exact ⟨h.sound, h.synced, h.past, h.made, h.once, fun _ _ heq => by cases heq⟩

end LoopState.Once

theorem LoopState.once_start (hU : IdealIds U) {s : LoopState} (h : (loopMachine net U localPeerId authority).start s) :
    s.Once net U localPeerId authority := by
  obtain ⟨hreach, hhandling, hproduced⟩ := h
  refine ⟨hreach.sound hU, hreach.synced hU, ?_, ?_, ?_, ?_⟩ <;> simp [hproduced, hhandling]

/-- A signed lifecycle mutation is applied at most once: in every run, over any deliveries of any requests among the
sections of other tasks, no request produces two events, and what it produces is the change it asks for. -/
theorem mutation_applied_once (hU : IdealIds U) (hfin : U.Finite) (hcard : U.ncard < 2 ^ 64) {s : LoopState}
    (h : (loopMachine net U localPeerId authority).Reachable s) :
    (s.produced.map Prod.fst).Nodup ∧ ∀ x ∈ s.produced, x.2 ∈ s.engine.graph.events ∧
      ∃ actor, x.2.payload = .ticket (.statusChanged x.1.ticketId x.1.newState actor none) := by
  have honce : s.Once net U localPeerId authority :=
    h.invariant (fun s₀ h₀ => LoopState.once_start hU h₀) fun s l hl hs => LoopState.Once.step hU hfin hcard hs hl
  exact ⟨honce.once, honce.made⟩

end Once

namespace OnceSample

/-- A ticket of the node, and the change that a request makes. -/
def onceTable : EventTable where
  bodies :=
    [⟨[], 10, 1, .ticket (.created "T-aaaaaaaa" "printer" "on fire" .high "home")⟩,
     ⟨[idAt 0], 100, 2, .ticket (.statusChanged "T-aaaaaaaa" .inProgress "op" none)⟩]

def onceNet : NodeEnv where
  toEnv := onceTable.env
  peerToString := fun peer => String.ofList (peer.bytes.map fun b => Char.ofNat b.toNat)
  certificateFromCbor := fun _ => none

def operator : PeerId := ⟨utf8 "op"⟩

/-- The owner of the network is alice. -/
def owner : AuthorityContext :=
  ⟨⟨Vector.replicate 32 7⟩, deriveOwnerId tagCrypto (alice.publicKey tagCrypto), alice.publicKey tagCrypto⟩

/-- Bob, with a session from alice, asks for the ticket at its first revision. -/
def request : TicketStateMutation :=
  let unsigned : TicketStateMutation :=
    { networkId := owner.networkId, ticketId := "T-aaaaaaaa", expectedRevision := 1, newState := .inProgress,
      requestId := Vector.replicate 16 5, operatorTransportPeerId := "op",
      certificate := .issue tagCrypto owner.networkId owner.ownerId ⟨tagCrypto.blake3 operator.bytes⟩
        ((bob.publicKey tagCrypto).deriveId tagCrypto) (bob.publicKey tagCrypto) ⟨OperatorCapabilities.ticketManage⟩ 0 1000
        alice,
      signature := [] }
  { unsigned with
    signature := (bob.signDomain tagCrypto objectSigDomain unsigned.signingPayload).bytes.toList }

def atHundred : Turn := ⟨100, 100, diskOk, fun _ => none, false⟩

def idle : LoopState where
  engine := ((Reached.start onceTable).after (.createTicket "aaaaaaaa" 10 "printer" "on fire" .high "home")).engine
  handling := none
  produced := []

/-- The request comes twice. -/
def deliveries : List LoopLabel :=
  [.deliver operator atHundred request, .advance, .advance, .advance, .advance, .answer,
   .deliver operator atHundred request, .advance, .answer]

def repeated : LoopState := (loopMachine onceNet onceTable.inPlay "home" (some owner)).after idle deliveries

/-- The theorem at a request that comes twice: it has produced one event. -/
theorem mutation_applied_once_repeated :
    repeated.produced.length = 1 ∧ (repeated.produced.map Prod.fst).Nodup := by
  have hidle : (loopMachine onceNet onceTable.inPlay "home" (some owner)).Reachable idle :=
    .of_start ⟨Reached.reach _, rfl, rfl⟩
  have hrep : (loopMachine onceNet onceTable.inPlay "home" (some owner)).Reachable repeated :=
    hidle.after deliveries (by decide +kernel)
  obtain ⟨hfin, hcard⟩ := onceTable.finite_ncard_le
  exact ⟨by decide +kernel,
    (mutation_applied_once onceTable.idealIds hfin (hcard.trans_lt (by decide)) hrep).1⟩

end OnceSample

end Fortiq
