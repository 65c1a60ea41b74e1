/-
Commands that need a connection (`OpenShellNext`, `SyncTickets`, `SendChatMessage` and `SendFile` in the event loop of
`fortiq-p2p/src/node.rs`, with `dial_peer_candidates`, the connection events and the ends of what was started). A command
for a connected peer goes out at once; any other waits for a connection while its peer is dialed, and a shell that cannot
be dialed is refused together with every shell that waits for the same peer. What is sent and what comes back is
external, and so are the swarm's connections and dial attempts, of which others start some too. Records of the outbox,
which have no one waiting for an answer, are in `Outbox`.
-/
import Fortiq.Lib.Machine
import Fortiq.Node.Registry

namespace Fortiq

/-! ## Commands -/

inductive CommandKind where
  | shell
  | sync
  | chat
  | file
deriving DecidableEq, Repr

/-- A command by the channel its reply goes to. -/
structure Command where
  id : Nat
  kind : CommandKind
  peer : PeerId
deriving DecidableEq, Repr

/-- What a command whose record cannot be written is told. -/
def CommandKind.persistText (kind : CommandKind) (error : String) : String :=
  match kind with
  | .file => "Échec de persistance de l'envoi fichier: " ++ error
  | _ => "Échec de persistance de la synchronisation: " ++ error

/-- What a command is told of a request that failed; the tasks of shells and files word their errors themselves. -/
def CommandKind.failureText (kind : CommandKind) (error : String) : String :=
  match kind with
  | .sync => "Échec de la requête ticket sync: " ++ error
  | .chat => "Échec de l'envoi du message chat: " ++ error
  | .shell | .file => error

def noAddressText : String := "Impossible de joindre le pair distant: aucune adresse de dial disponible"

def unreachableText (error : String) : String := "Impossible d'établir la connexion avec le poste distant: " ++ error

/-- What `Swarm::dial` says. -/
inductive DialOutcome where
  | started
  /-- The peer is connected or being dialed. -/
  | conditionFalse
  | failed
deriving DecidableEq, Repr

/-! ## The event loop -/

/-- The swarm's connections and dial attempts, each by the peer it is for where that is known, the registry, and the
commands: those that wait for a connection, those that have been started, and the answers. Beside them all commands and
the HELLO messages that were taken. -/
structure EventLoopState (ρ : Type) where
  established : PeerId → Nat
  dials : List (Option PeerId)
  registry : PeerRegistry
  waiting : List Command
  inFlight : List Command
  answered : List (Nat × Except String ρ)
  issued : List Nat
  hellos : List (PeerId × NodeInfo)

inductive EventLoopLabel (ρ : Type) where
  | command (c : Command) (dial : Option Multiaddr) (outcome : DialOutcome)
  /-- The record of the command cannot be written. -/
  | notPersisted (c : Command) (error : String)
  /-- Rendezvous has found a peer. -/
  | discovered (peer : PeerId) (addresses : List Multiaddr) (outcome : DialOutcome)
  /-- A connection, by one of the dial attempts or from outside. -/
  | connectionEstablished (peer : PeerId) (addr : Multiaddr) (dial : Option Nat)
  | connectionClosed (peer : PeerId)
  | outgoingConnectionError (dial : Nat) (error : String)
  /-- A dial that no command asks for: of the target of a discovery, of a relay, or for a direct connection (DCUtR). -/
  | otherDial (target : Option PeerId)
  | hello (peer : PeerId) (info : NodeInfo)
  | identify (peer : PeerId) (protocolVersion : String) (listenAddrs : List Multiaddr)
  /-- The response to a request, or the end of a task. -/
  | completes (i : Nat) (result : Except String ρ)

namespace EventLoopState

variable {ρ : Type}

/-- Commands that wait are given up with an error. -/
def giveUp (s : EventLoopState ρ) (p : Command → Bool) (text : String) : EventLoopState ρ :=
  { s with
    waiting := s.waiting.filter fun c => !p c
    answered := s.answered ++ (s.waiting.filter p).map fun c => (c.id, .error text) }

/-- `dial_peer_candidates`: whether a dial is under way, and the state with it. -/
def dialPeerCandidates (relayPeer : Option Multiaddr) (s : EventLoopState ρ) (peer : PeerId) (outcome : DialOutcome) :
    Bool × EventLoopState ρ :=
  if dialCandidates peer s.registry relayPeer = [] then (false, s)
  else
    match outcome with
    | .started => (true, { s with dials := s.dials ++ [some peer] })
    | .conditionFalse => (true, s)
    | .failed => (false, s)

/-- The dial of a command: its own address, or those that are known. -/
def dialFor (relayPeer : Option Multiaddr) (s : EventLoopState ρ) (peer : PeerId) (dial : Option Multiaddr)
    (outcome : DialOutcome) : Bool × EventLoopState ρ :=
  match dial with
  | some addr =>
    match outcome with
    | .started => (true, { s with dials := s.dials ++ [addr.peer?] })
    | _ => (false, s)
  | none => s.dialPeerCandidates relayPeer peer outcome

def command (relayPeer : Option Multiaddr) (s : EventLoopState ρ) (c : Command) (dial : Option Multiaddr)
    (outcome : DialOutcome) : EventLoopState ρ :=
  let s := { s with issued := s.issued ++ [c.id] }
  if 0 < s.established c.peer then { s with inFlight := s.inFlight ++ [c] }
  else
    let (dialStarted, s) := { s with waiting := s.waiting ++ [c] }.dialFor relayPeer c.peer dial outcome
    -- only shells are told that there is nothing to dial
    if c.kind = .shell ∧ dialStarted = false then s.giveUp (fun d => d.kind = .shell ∧ d.peer = c.peer) noAddressText
    else s

/-- What waits for the peer is started. -/
def connectionEstablished (s : EventLoopState ρ) (peer : PeerId) (addr : Multiaddr) (dial : Option Nat) : EventLoopState ρ :=
  { s with
    established := Function.update s.established peer (s.established peer + 1)
    dials := dial.elim s.dials s.dials.eraseIdx
    registry := s.registry.recordConnection peer addr
    waiting := s.waiting.filter fun c => c.peer ≠ peer
    inFlight := s.inFlight ++ s.waiting.filter fun c => c.peer = peer }

def outgoingConnectionError (s : EventLoopState ρ) (dial : Nat) (error : String) : EventLoopState ρ :=
  match s.dials[dial]? with
  | none => s
  | some target =>
    let s := { s with dials := s.dials.eraseIdx dial }
    match target with
    | none => s
    | some peer => if 0 < s.established peer then s else s.giveUp (fun c => c.peer = peer) (unreachableText error)

def hello (env : HelloEnv) (s : EventLoopState ρ) (peer : PeerId) (info : NodeInfo) : EventLoopState ρ :=
  if validateHello env peer info then
    { s with registry := s.registry.recordHello peer info, hellos := s.hellos ++ [(peer, info)] }
  else s

def completes (s : EventLoopState ρ) (i : Nat) (result : Except String ρ) : EventLoopState ρ :=
  match s.inFlight[i]? with
  | none => s
  | some c =>
    let result := result.mapError c.kind.failureText
    { s with inFlight := s.inFlight.eraseIdx i, answered := s.answered ++ [(c.id, result)] }

def step (env : HelloEnv) (relayPeer : Option Multiaddr) (s : EventLoopState ρ) : EventLoopLabel ρ → EventLoopState ρ
  | .command c dial outcome => s.command relayPeer c dial outcome
  | .notPersisted c error =>
    { s with issued := s.issued ++ [c.id], answered := s.answered ++ [(c.id, .error (c.kind.persistText error))] }
  | .discovered peer addresses outcome =>
    let s := { s with registry := s.registry.recordRendezvous peer addresses }
    if 0 < s.established peer then s else (s.dialPeerCandidates relayPeer peer outcome).2
  | .connectionEstablished peer addr dial => s.connectionEstablished peer addr dial
  | .connectionClosed peer =>
    { s with
      established := Function.update s.established peer (s.established peer - 1)
      registry := s.registry.recordDisconnection peer (s.established peer - 1) }
  | .outgoingConnectionError dial error => s.outgoingConnectionError dial error
  | .otherDial target => { s with dials := s.dials ++ [target] }
  | .hello peer info => s.hello env peer info
  | .identify peer protocolVersion listenAddrs =>
    { s with registry := s.registry.recordIdentify peer protocolVersion listenAddrs }
  | .completes i result => s.completes i result

/-- What the swarm may say to a dial of the known addresses: it starts one for a peer that is neither connected nor being
dialed, and finds its condition false for the others. -/
def MaySay (s : EventLoopState ρ) (peer : PeerId) : DialOutcome → Prop
  | .started => s.established peer = 0 ∧ some peer ∉ s.dials
  | .conditionFalse => 0 < s.established peer ∨ some peer ∈ s.dials
  | .failed => True

/-- The dial attempt that made a connection was for its peer, or for no peer in particular. -/
def EndsAt (s : EventLoopState ρ) (peer : PeerId) : Option Nat → Prop
  | none => True
  | some i => s.dials[i]? = some none ∨ s.dials[i]? = some (some peer)

/-- Channels are new, a dial attempt ends at the peer it was for, connections that close were there, and messages come
from peers that have been connected. -/
def Enabled (s : EventLoopState ρ) : EventLoopLabel ρ → Prop
  | .command c (some _) outcome => c.id ∉ s.issued ∧ outcome ≠ .conditionFalse
  | .command c none outcome => c.id ∉ s.issued ∧ s.MaySay c.peer outcome
  | .notPersisted c _ => c.id ∉ s.issued ∧ (c.kind = .sync ∨ c.kind = .file)
  | .discovered peer _ outcome => s.MaySay peer outcome
  | .connectionEstablished peer _ dial => s.EndsAt peer dial
  | .connectionClosed peer => 0 < s.established peer
  | .outgoingConnectionError dial _ => dial < s.dials.length
  | .otherDial _ => True
  | .hello peer _ | .identify peer _ _ => (s.registry.lookup peer).isSome
  | .completes i _ => i < s.inFlight.length

instance (s : EventLoopState ρ) (peer : PeerId) : ∀ outcome, Decidable (s.MaySay peer outcome)
  | .started => inferInstanceAs (Decidable (s.established peer = 0 ∧ some peer ∉ s.dials))
  | .conditionFalse => inferInstanceAs (Decidable (0 < s.established peer ∨ some peer ∈ s.dials))
  | .failed => inferInstanceAs (Decidable True)

instance (s : EventLoopState ρ) (peer : PeerId) : ∀ dial, Decidable (s.EndsAt peer dial)
  | none => inferInstanceAs (Decidable True)
  | some i => inferInstanceAs (Decidable (s.dials[i]? = some none ∨ s.dials[i]? = some (some peer)))

instance (s : EventLoopState ρ) : ∀ l, Decidable (s.Enabled l)
  | .command c (some _) outcome => inferInstanceAs (Decidable (c.id ∉ s.issued ∧ outcome ≠ .conditionFalse))
  | .command c none outcome => inferInstanceAs (Decidable (c.id ∉ s.issued ∧ s.MaySay c.peer outcome))
  | .notPersisted c _ => inferInstanceAs (Decidable (c.id ∉ s.issued ∧ (c.kind = .sync ∨ c.kind = .file)))
  | .discovered peer _ outcome => inferInstanceAs (Decidable (s.MaySay peer outcome))
  | .connectionEstablished peer _ dial => inferInstanceAs (Decidable (s.EndsAt peer dial))
  | .connectionClosed peer => inferInstanceAs (Decidable (0 < s.established peer))
  | .outgoingConnectionError dial _ => inferInstanceAs (Decidable (dial < s.dials.length))
  | .otherDial _ => inferInstanceAs (Decidable True)
  | .hello peer _ => inferInstanceAs (Decidable ((s.registry.lookup peer).isSome))
  | .identify peer _ _ => inferInstanceAs (Decidable ((s.registry.lookup peer).isSome))
  | .completes i _ => inferInstanceAs (Decidable (i < s.inFlight.length))

end EventLoopState

/-- The event loop from its start, with the dial of `dial_address` if there is one. -/
def eventLoopMachine (ρ : Type) (env : HelloEnv) (relayPeer : Option Multiaddr) : Machine (EventLoopState ρ) (EventLoopLabel ρ) where
  start := fun s => (∀ peer, s.established peer = 0) ∧
    (∃ dialAddress : Option Multiaddr, s.dials = dialAddress.toList.map Multiaddr.peer?) ∧ s.registry = ∅ ∧
    s.waiting = [] ∧ s.inFlight = [] ∧ s.answered = [] ∧ s.issued = [] ∧ s.hellos = []
  enabled := fun s l => s.Enabled l
  step := fun s l => s.step env relayPeer l

instance (ρ : Type) (env : HelloEnv) (relayPeer : Option Multiaddr) (s : EventLoopState ρ) (l : EventLoopLabel ρ) :
    Decidable ((eventLoopMachine ρ env relayPeer).enabled s l) := inferInstanceAs (Decidable (s.Enabled l))

/-! ## What a step does to the commands -/

namespace EventLoopState

variable {ρ : Type} {env : HelloEnv} {relayPeer : Option Multiaddr} {s : EventLoopState ρ}

/-- How often a command is found, waiting, started or answered. -/
def tally (s : EventLoopState ρ) (id : Nat) : Nat :=
  s.waiting.countP (·.id = id) + s.inFlight.countP (·.id = id) + s.answered.countP (·.1 = id)

/-- Commands that are given up are answered instead. -/
theorem tally_giveUp (p : Command → Bool) (text : String) (id : Nat) : (s.giveUp p text).tally id = s.tally id := by
  have hsplit := List.countP_eq_countP_filter_add s.waiting (fun c => decide (c.id = id)) p
  have hmap : ((s.waiting.filter p).map fun c => (c.id, (.error text : Except String ρ))).countP (fun x => decide (x.1 = id)) =
      (s.waiting.filter p).countP fun c => decide (c.id = id) := by
    rw [List.countP_map]
    rfl
  simp only [tally, giveUp, List.countP_append, hmap]
  omega

variable (relayPeer) in
/-- A dial changes nothing but the dial attempts. -/
theorem dialPeerCandidates_spec (s : EventLoopState ρ) (peer : PeerId) (outcome : DialOutcome) :
    ∃ more, (s.dialPeerCandidates relayPeer peer outcome).2 = { s with dials := s.dials ++ more } ∧
      (∀ target ∈ more, target = some peer) ∧
      ((s.dialPeerCandidates relayPeer peer outcome).1 = true → s.MaySay peer outcome → s.established peer = 0 →
        some peer ∈ s.dials ++ more) := by
  unfold dialPeerCandidates
  split
  · exact ⟨[], by simp, by simp, by simp⟩
  · cases outcome with
    | started => exact ⟨[some peer], rfl, by simp, by simp⟩
    | conditionFalse =>
      refine ⟨[], by simp, by simp, fun _ hsay hzero => ?_⟩
      rw [List.append_nil]
      exact hsay.resolve_left (by omega)
    | failed => exact ⟨[], by simp, by simp, by simp⟩

variable (relayPeer) in
theorem dialFor_spec (s : EventLoopState ρ) (peer : PeerId) (dial : Option Multiaddr) (outcome : DialOutcome) :
    ∃ more, (s.dialFor relayPeer peer dial outcome).2 = { s with dials := s.dials ++ more } ∧
      (∀ target ∈ more, target = dial.elim (some peer) Multiaddr.peer?) ∧
      ((s.dialFor relayPeer peer dial outcome).1 = true → (dial = none → s.MaySay peer outcome) → s.established peer = 0 →
        dial.elim (some peer) Multiaddr.peer? ∈ s.dials ++ more) := by
  cases dial with
  | none =>
    obtain ⟨more, heq, hmore, hdial⟩ := dialPeerCandidates_spec relayPeer s peer outcome
    exact ⟨more, heq, hmore, fun hstarted hsay => hdial hstarted (hsay rfl)⟩
  | some addr =>
    cases outcome with
    | started => exact ⟨[addr.peer?], rfl, by simp, by simp⟩
    | conditionFalse => exact ⟨[], by simp [dialFor], by simp, by simp [dialFor]⟩
    | failed => exact ⟨[], by simp [dialFor], by simp, by simp [dialFor]⟩

/-- Everything a step does. -/
inductive EventLoopStep (s : EventLoopState ρ) : EventLoopLabel ρ → EventLoopState ρ → Prop
  | started {c : Command} (dial : Option Multiaddr) (outcome : DialOutcome) (hid : c.id ∉ s.issued)
      (hconn : 0 < s.established c.peer) :
      EventLoopStep s (.command c dial outcome) { s with issued := s.issued ++ [c.id], inFlight := s.inFlight ++ [c] }
  | waits {c : Command} {dial : Option Multiaddr} (outcome : DialOutcome) {more : List (Option PeerId)}
      (hid : c.id ∉ s.issued) (hzero : s.established c.peer = 0)
      (hmore : ∀ target ∈ more, target = dial.elim (some c.peer) Multiaddr.peer?)
      (hshell : c.kind = .shell → dial.elim (some c.peer) Multiaddr.peer? ∈ s.dials ++ more) :
      EventLoopStep s (.command c dial outcome)
        { s with issued := s.issued ++ [c.id], waiting := s.waiting ++ [c], dials := s.dials ++ more }
  | refused {c : Command} {dial : Option Multiaddr} (outcome : DialOutcome) {more : List (Option PeerId)}
      (hid : c.id ∉ s.issued) (hshell : c.kind = .shell) (hzero : s.established c.peer = 0)
      (hmore : ∀ target ∈ more, target = dial.elim (some c.peer) Multiaddr.peer?) :
      EventLoopStep s (.command c dial outcome)
        (giveUp { s with issued := s.issued ++ [c.id], waiting := s.waiting ++ [c], dials := s.dials ++ more }
          (fun d => d.kind = .shell ∧ d.peer = c.peer) noAddressText)
  | notPersisted {c : Command} (error : String) (hid : c.id ∉ s.issued) : EventLoopStep s (.notPersisted c error)
      { s with issued := s.issued ++ [c.id], answered := s.answered ++ [(c.id, .error (c.kind.persistText error))] }
  | discovered (peer : PeerId) (addresses : List Multiaddr) (outcome : DialOutcome) {more : List (Option PeerId)}
      (hmore : ∀ target ∈ more, target = some peer) : EventLoopStep s (.discovered peer addresses outcome)
        { s with registry := s.registry.recordRendezvous peer addresses, dials := s.dials ++ more }
  | connected {peer : PeerId} {addr : Multiaddr} {dial : Option Nat}
      (hdial : s.EndsAt peer dial) :
      EventLoopStep s (.connectionEstablished peer addr dial) (s.connectionEstablished peer addr dial)
  | closed {peer : PeerId} (hconn : 0 < s.established peer) : EventLoopStep s (.connectionClosed peer)
      { s with
        established := Function.update s.established peer (s.established peer - 1)
        registry := s.registry.recordDisconnection peer (s.established peer - 1) }
  | dialFailed {i : Nat} {target : Option PeerId} (error : String) (hi : s.dials[i]? = some target)
      (hconn : ∀ peer, target = some peer → 0 < s.established peer) :
      EventLoopStep s (.outgoingConnectionError i error) { s with dials := s.dials.eraseIdx i }
  | unreachable {i : Nat} {peer : PeerId} (error : String) (hi : s.dials[i]? = some (some peer))
      (hzero : s.established peer = 0) : EventLoopStep s (.outgoingConnectionError i error)
        (giveUp { s with dials := s.dials.eraseIdx i } (fun c => c.peer = peer) (unreachableText error))
  | otherDial (target : Option PeerId) : EventLoopStep s (.otherDial target) { s with dials := s.dials ++ [target] }
  | hello {peer : PeerId} (info : NodeInfo) (hknown : (s.registry.lookup peer).isSome) : EventLoopStep s (.hello peer info)
      { s with registry := s.registry.recordHello peer info, hellos := s.hellos ++ [(peer, info)] }
  | helloRejected (peer : PeerId) (info : NodeInfo) : EventLoopStep s (.hello peer info) s
  | identify {peer : PeerId} (protocolVersion : String) (listenAddrs : List Multiaddr)
      (hknown : (s.registry.lookup peer).isSome) : EventLoopStep s (.identify peer protocolVersion listenAddrs)
        { s with registry := s.registry.recordIdentify peer protocolVersion listenAddrs }
  | completes {i : Nat} {c : Command} (result : Except String ρ) (hi : s.inFlight[i]? = some c) :
      EventLoopStep s (.completes i result)
        { s with
          inFlight := s.inFlight.eraseIdx i
          answered := s.answered ++ [(c.id, result.mapError c.kind.failureText)] }

theorem loopStep_of_command {c : Command} {dial : Option Multiaddr} {outcome : DialOutcome}
    (hl : s.Enabled (.command c dial outcome)) :
    EventLoopStep s (.command c dial outcome) (s.command relayPeer c dial outcome) := by
  have hid : c.id ∉ s.issued := by cases dial <;> exact hl.1
  have hsay : dial = none → s.MaySay c.peer outcome := by rintro rfl; exact hl.2
  by_cases hconn : 0 < s.established c.peer
  · have heq : s.command relayPeer c dial outcome =
        { s with issued := s.issued ++ [c.id], inFlight := s.inFlight ++ [c] } := by simp [command, hconn]
    rw [heq]
    exact .started dial outcome hid hconn
  · have hzero : s.established c.peer = 0 := by omega
    obtain ⟨more, heq, hmore, hdial⟩ := dialFor_spec relayPeer
      { s with issued := s.issued ++ [c.id], waiting := s.waiting ++ [c] } c.peer dial outcome
    simp only [command, hconn, if_false, heq]
    split
    · rename_i href
      exact .refused outcome hid href.1 hzero hmore
    · rename_i href
      refine .waits outcome hid hzero hmore fun hshell => hdial ?_ hsay hzero
      exact Bool.eq_true_of_not_eq_false fun hf => href ⟨hshell, hf⟩

/-- A step is one of these. -/
theorem eventLoopStep {l : EventLoopLabel ρ} (hl : s.Enabled l) : EventLoopStep s l (s.step env relayPeer l) := by
  cases l with
  | command c dial outcome => exact loopStep_of_command hl
  | notPersisted c error => exact .notPersisted error hl.1
  | discovered peer addresses outcome =>
    obtain ⟨more, heq, hmore, -⟩ := dialPeerCandidates_spec relayPeer
      { s with registry := s.registry.recordRendezvous peer addresses } peer outcome
    simp only [step]
    split
    · have hnone : EventLoopStep s (.discovered peer addresses outcome)
          { s with registry := s.registry.recordRendezvous peer addresses, dials := s.dials ++ [] } :=
        .discovered peer addresses outcome (by simp)
      rwa [List.append_nil] at hnone
    · rw [heq]
      exact .discovered peer addresses outcome hmore
  | connectionEstablished peer addr dial => exact .connected hl
  | connectionClosed peer => exact .closed hl
  | outgoingConnectionError i error =>
    have hi : s.dials[i]? = some (s.dials.get ⟨i, hl⟩) := List.getElem?_eq_getElem hl
    cases htarget : s.dials.get ⟨i, hl⟩ with
    | none =>
      rw [htarget] at hi
      simp only [step, outgoingConnectionError, hi]
      exact .dialFailed error hi (by simp)
    | some peer =>
      rw [htarget] at hi
      simp only [step, outgoingConnectionError, hi]
      split
      · exact .dialFailed error hi (by rintro q ⟨⟩; assumption)
      · exact .unreachable error hi (by omega)
  | otherDial target => exact .otherDial target
  | hello peer info =>
    simp only [step, EventLoopState.hello]
    split
    · exact .hello info hl
    · exact .helloRejected peer info
  | identify peer protocolVersion listenAddrs => exact .identify protocolVersion listenAddrs hl
  | completes i result =>
    have hi : s.inFlight[i]? = some (s.inFlight.get ⟨i, hl⟩) := List.getElem?_eq_getElem hl
    simp only [step, EventLoopState.completes, hi]
    exact .completes result hi

/-! ## Every command is somewhere, once -/

/-- Every command waits, has been started or is answered, one of them and once; and none waits for a connected peer. -/
structure Accounted (s : EventLoopState ρ) : Prop where
  once : ∀ id, s.tally id = s.issued.count id
  nodup : s.issued.Nodup
  unconnected : ∀ c ∈ s.waiting, s.established c.peer = 0

theorem Accounted.start (h : (eventLoopMachine ρ env relayPeer).start s) : s.Accounted := by
  obtain ⟨-, -, -, hw, hf, ha, hi, -⟩ := h
  constructor
  · simp [tally, hw, hf, ha, hi]
  · simp [hi]
  · simp [hw]

/-- A new command, found once more. -/
theorem count_issue {id : Nat} (c : Command) (s : EventLoopState ρ) :
    (s.issued ++ [c.id]).count id = s.issued.count id + [c].countP fun d => decide (d.id = id) := by
  rw [List.count_append, List.countP_singleton, List.count_singleton]
  simp only [beq_iff_eq, decide_eq_true_eq]

theorem tally_step {s' : EventLoopState ρ} {l : EventLoopLabel ρ} (h : s.Accounted) (hstep : EventLoopStep s l s') (id : Nat) :
    s'.tally id = s'.issued.count id := by
  have honce := h.once id
  unfold tally at honce
  cases hstep with
  | @started c dial outcome hid hconn =>
    rw [count_issue]
    simp only [tally, List.countP_append]
    omega
  | @waits c dial outcome more hid hzero hmore hshell =>
    rw [count_issue]
    simp only [tally, List.countP_append]
    omega
  | @refused c dial outcome more hid hshell hzero hmore =>
    rw [tally_giveUp]
    show _ = (s.issued ++ [c.id]).count id
    rw [count_issue]
    simp only [tally, List.countP_append]
    omega
  | @notPersisted c error hid =>
    rw [count_issue]
    simp only [tally, List.countP_append, List.countP_singleton] at honce ⊢
    omega
  | @connected peer addr dial hdial =>
    have hsplit := List.countP_eq_countP_filter_add s.waiting (fun c => decide (c.id = id)) (fun c => decide (c.peer = peer))
    simp only [tally, connectionEstablished, List.countP_append, decide_not]
    omega
  | unreachable error hi hzero =>
    rw [tally_giveUp]
    exact h.once id
  | @completes i c result hi =>
    obtain ⟨hlt, rfl⟩ := List.getElem?_eq_some_iff.1 hi
    have hperm := (List.getElem_cons_eraseIdx_perm hlt).countP_eq fun c => decide (c.id = id)
    rw [List.countP_cons] at hperm
    simp only [tally, List.countP_append, List.countP_singleton] at hperm ⊢
    omega
  | discovered | closed | dialFailed | otherDial | hello | helloRejected | identify => exact h.once id

theorem nodup_step {s' : EventLoopState ρ} {l : EventLoopLabel ρ} (h : s.issued.Nodup) (hstep : EventLoopStep s l s') :
    s'.issued.Nodup := by
  have hnew : ∀ {id}, id ∉ s.issued → (s.issued ++ [id]).Nodup := fun hid =>
    List.nodup_append.2 ⟨h, List.nodup_singleton _, by rintro a ha b hb rfl; exact hid (List.mem_singleton.1 hb ▸ ha)⟩
  cases hstep with
  | started dial outcome hid hconn => exact hnew hid
  | waits outcome hid => exact hnew hid
  | refused outcome hid => exact hnew hid
  | notPersisted error hid => exact hnew hid
  | _ => exact h

theorem unconnected_step {s' : EventLoopState ρ} {l : EventLoopLabel ρ} (h : ∀ c ∈ s.waiting, s.established c.peer = 0)
    (hstep : EventLoopStep s l s') : ∀ c ∈ s'.waiting, s'.established c.peer = 0 := by
  cases hstep with
  | @waits c dial outcome more hid hzero hmore hshell =>
    intro d hd
    rcases List.mem_append.1 hd with hd | hd
    · exact h d hd
    · rw [List.mem_singleton.1 hd]
      exact hzero
  | @refused c dial outcome more hid hshell hzero hmore =>
    intro d hd
    obtain ⟨hd, hne⟩ := List.mem_filter.1 hd
    rcases List.mem_append.1 hd with hd | hd
    · exact h d hd
    · rw [List.mem_singleton.1 hd]
      exact hzero
  | @connected peer addr dial hdial =>
    intro d hd
    obtain ⟨hd, hne⟩ := List.mem_filter.1 hd
    exact (Function.update_of_ne (of_decide_eq_true hne) _ _).trans (h d hd)
  | @closed peer hconn =>
    intro d hd
    have hne : d.peer ≠ peer := by
      rintro rfl
      have := h d hd
      omega
    exact (Function.update_of_ne hne _ _).trans (h d hd)
  | unreachable error hi hzero => exact fun d hd => h d (List.mem_of_mem_filter hd)
  | _ => exact h

theorem Accounted.step {s' : EventLoopState ρ} {l : EventLoopLabel ρ} (h : s.Accounted) (hstep : EventLoopStep s l s') :
    s'.Accounted :=
  ⟨tally_step h hstep, nodup_step h.nodup hstep, unconnected_step h.unconnected hstep⟩

theorem Accounted.reachable (h : (eventLoopMachine ρ env relayPeer).Reachable s) : s.Accounted :=
  h.invariant (fun _ => .start) fun _ _ ha h => h.step (eventLoopStep ha)

end EventLoopState

/-- In every state of the event loop a command that was given is in one place, and there once: it waits for a connection,
or it has been started, or it has been answered; and a command that waits is for a peer that is not connected. -/
theorem command_accounted {ρ : Type} {env : HelloEnv} {relayPeer : Option Multiaddr} {s : EventLoopState ρ}
    (h : (eventLoopMachine ρ env relayPeer).Reachable s) :
    (∀ id, s.waiting.countP (·.id = id) + s.inFlight.countP (·.id = id) + s.answered.countP (·.1 = id) =
      if id ∈ s.issued then 1 else 0) ∧ ∀ c ∈ s.waiting, s.established c.peer = 0 := by
  have hacc := EventLoopState.Accounted.reachable h
  refine ⟨fun id => (hacc.once id).trans ?_, hacc.unconnected⟩
  split
  · exact List.count_eq_one_of_mem hacc.nodup ‹_›
  · exact List.count_eq_zero_of_not_mem ‹_›

/-! ## Who waits for a dial -/

namespace EventLoopState

variable {ρ : Type} {env : HelloEnv} {relayPeer : Option Multiaddr} {s s' : EventLoopState ρ} {l : EventLoopLabel ρ}

/-- The addresses that come with shell commands name the peer. -/
def ShellNamed (_ : EventLoopState ρ) : EventLoopLabel ρ → Prop
  | .command c (some addr) _ => c.kind = .shell → addr.peer? = some c.peer
  | _ => True

/-- Every shell that waits has a dial of its peer under way. -/
def ShellsDialed (s : EventLoopState ρ) : Prop := ∀ c ∈ s.waiting, c.kind = .shell → some c.peer ∈ s.dials

/-- A dial for another peer ends. -/
theorem mem_dials_eraseIdx {peer : PeerId} {i : Nat} {target : Option PeerId} (hmem : some peer ∈ s.dials)
    (hi : s.dials[i]? = some target) (hne : target ≠ some peer) : some peer ∈ s.dials.eraseIdx i := by
  obtain ⟨j, hj⟩ := List.mem_iff_getElem?.1 hmem
  refine List.mem_eraseIdx_iff_getElem?.2 ⟨j, ?_, hj⟩
  rintro rfl
  exact hne (Option.some.inj (hi.symm.trans hj))

theorem ShellsDialed.step (hacc : s.Accounted) (h : s.ShellsDialed) (hnamed : ShellNamed s l) (hstep : EventLoopStep s l s') :
    s'.ShellsDialed := by
  cases hstep with
  | @waits c dial outcome more hid hzero hmore hshell =>
    intro d hd hkind
    rcases List.mem_append.1 hd with hd | hd
    · exact List.mem_append_left _ (h d hd hkind)
    · obtain rfl := List.mem_singleton.1 hd
      have hdial := hshell hkind
      cases dial with
      | none => exact hdial
      | some addr => rwa [Option.elim_some, hnamed hkind] at hdial
  | @refused c dial outcome more hid hshell hzero hmore =>
    intro d hd hkind
    obtain ⟨hd, hother⟩ := List.mem_filter.1 hd
    rcases List.mem_append.1 hd with hd | hd
    · exact List.mem_append_left _ (h d hd hkind)
    · obtain rfl := List.mem_singleton.1 hd
      simp [hkind] at hother
  | discovered peer addresses outcome hmore => exact fun d hd hkind => List.mem_append_left _ (h d hd hkind)
  | @connected peer addr dial hdial =>
    intro d hd hkind
    obtain ⟨hmem, hother⟩ := List.mem_filter.1 hd
    have hne : d.peer ≠ peer := of_decide_eq_true hother
    cases dial with
    | none => exact h d hmem hkind
    | some i =>
      -- the dial that ended was for this peer or for none
      rcases hdial with hi | hi
      · exact mem_dials_eraseIdx (h d hmem hkind) hi (by simp)
      · exact mem_dials_eraseIdx (h d hmem hkind) hi (by simpa using Ne.symm hne)
  | @dialFailed i target error hi hconn =>
    intro d hd hkind
    refine mem_dials_eraseIdx (h d hd hkind) hi ?_
    -- nothing waits for a connected peer
    rintro rfl
    have hpos := hconn d.peer rfl
    rw [hacc.unconnected d hd] at hpos
    exact lt_irrefl _ hpos
  | @unreachable i peer error hi hzero =>
    intro d hd hkind
    obtain ⟨hd, hne⟩ := List.mem_filter.1 hd
    have hne : d.peer ≠ peer := by simpa using hne
    exact mem_dials_eraseIdx (h d hd hkind) hi (by simpa using Ne.symm hne)
  | otherDial target => exact fun d hd hkind => List.mem_append_left _ (h d hd hkind)
  | _ => exact h

end EventLoopState

/-- A shell command that waits has a dial of its peer under way, and is answered when that dial fails. -/
theorem waiting_shell_dialed {ρ : Type} {env : HelloEnv} {relayPeer : Option Multiaddr} {s : EventLoopState ρ}
    (h : ((eventLoopMachine ρ env relayPeer).restrict EventLoopState.ShellNamed).Reachable s) {c : Command} (hc : c ∈ s.waiting)
    (hkind : c.kind = .shell) : ∃ i : Nat, s.dials[i]? = some (some c.peer) ∧
      ∀ error, (c.id, .error (unreachableText error)) ∈ (s.outgoingConnectionError i error).answered := by
  have hinv : s.Accounted ∧ s.ShellsDialed := by
    refine h.invariant (I := fun u => u.Accounted ∧ u.ShellsDialed) (fun u hu => ?_) fun u l hl hu => ?_
    · have hstart : (eventLoopMachine ρ env relayPeer).start u := hu
      refine ⟨.start hstart, fun d hd => ?_⟩
      rw [hstart.2.2.2.1] at hd
      cases hd
    · obtain ⟨hen, hnamed⟩ : u.Enabled l ∧ EventLoopState.ShellNamed u l := hl
      exact ⟨hu.1.step (EventLoopState.eventLoopStep hen), hu.2.step hu.1 hnamed (EventLoopState.eventLoopStep hen)⟩
  obtain ⟨i, hi⟩ := List.mem_iff_getElem?.1 (hinv.2 c hc hkind)
  refine ⟨i, hi, fun error => ?_⟩
  rw [EventLoopState.outgoingConnectionError, hi]
  have hzero : ¬ 0 < s.established c.peer := by
    rw [hinv.1.unconnected c hc]
    exact lt_irrefl 0
  simp only [if_neg hzero]
  exact List.mem_append_right _ (List.mem_map.2 ⟨c, List.mem_filter.2 ⟨hc, decide_eq_true rfl⟩, rfl⟩)

namespace EventLoopState

variable {ρ : Type} {env : HelloEnv} {relayPeer : Option Multiaddr} {s s' : EventLoopState ρ} {l : EventLoopLabel ρ} {peer : PeerId}

/-- The step neither connects the peer nor dials it. -/
def Avoids (peer : PeerId) (_ : EventLoopState ρ) : EventLoopLabel ρ → Prop
  | .command c dial _ => c.peer ≠ peer ∧ ∀ addr ∈ dial, addr.peer? ≠ some peer
  | .discovered p _ _ => p ≠ peer
  | .connectionEstablished p _ _ => p ≠ peer
  | .otherDial target => target ≠ some peer
  | _ => True

/-- The command waits, and its peer is not being dialed. -/
def Stranded (c : Command) (s : EventLoopState ρ) : Prop := c ∈ s.waiting ∧ some c.peer ∉ s.dials

theorem Stranded.step {c : Command} (h : s.Stranded c) (havoids : Avoids c.peer s l) (hstep : EventLoopStep s l s') :
    s'.Stranded c := by
  obtain ⟨hc, hdial⟩ := h
  -- a dial that starts is for another peer
  have hmore : ∀ {more : List (Option PeerId)}, (∀ target ∈ more, target ≠ some c.peer) → some c.peer ∉ s.dials ++ more := by
    intro more hmore hmem
    rcases List.mem_append.1 hmem with hmem | hmem
    · exact hdial hmem
    · exact hmore _ hmem rfl
  have herase : ∀ i, some c.peer ∉ s.dials.eraseIdx i := fun i hmem => hdial (List.mem_of_mem_eraseIdx hmem)
  cases hstep with
  | @waits d dial outcome more hid hzero hmem hshell =>
    refine ⟨List.mem_append_left _ hc, hmore fun target ht heq => ?_⟩
    obtain ⟨hne, haddr⟩ := havoids
    rw [hmem target ht] at heq
    cases dial with
    | none => exact hne (Option.some.inj heq)
    | some addr => exact haddr addr rfl heq
  | @refused d dial outcome more hid hshell hzero hmem =>
    obtain ⟨hne, haddr⟩ := havoids
    refine ⟨List.mem_filter.2 ⟨List.mem_append_left _ hc, by simp [Ne.symm hne]⟩, hmore fun target ht heq => ?_⟩
    rw [hmem target ht] at heq
    cases dial with
    | none => exact hne (Option.some.inj heq)
    | some addr => exact haddr addr rfl heq
  | discovered p addresses outcome hmem =>
    exact ⟨hc, hmore fun target ht heq => havoids (Option.some.inj ((hmem target ht).symm.trans heq))⟩
  | @connected p addr dial hd =>
    refine ⟨List.mem_filter.2 ⟨hc, by simpa using Ne.symm havoids⟩, ?_⟩
    cases dial with
    | none => exact hdial
    | some i => exact herase i
  | @dialFailed i target error hi hconn => exact ⟨hc, herase i⟩
  | @unreachable i p error hi hzero =>
    refine ⟨List.mem_filter.2 ⟨hc, ?_⟩, herase i⟩
    have hne : c.peer ≠ p := by
      rintro rfl
      exact hdial (List.mem_of_getElem? hi)
    simpa using hne
  | otherDial target => exact ⟨hc, hmore fun t ht => List.mem_singleton.1 ht ▸ havoids⟩
  | _ => exact ⟨hc, hdial⟩

end EventLoopState

namespace EventLoopState

variable {ρ : Type} {env : HelloEnv} {relayPeer : Option Multiaddr} {s s' : EventLoopState ρ} {l : EventLoopLabel ρ}

/-- An entry is right about the connection and about the name. -/
structure RightAbout (s : EventLoopState ρ) (peer : PeerId) (entry : DiscoveredPeer) : Prop where
  connected : entry.connected = true ↔ 0 < s.established peer
  name : ∀ name ∈ entry.name, ∃ info, (peer, info) ∈ s.hellos ∧ info.name = name

/-- Every connected peer has an entry, and the entries are right. -/
structure Shown (s : EventLoopState ρ) : Prop where
  known : ∀ peer, 0 < s.established peer → (s.registry.lookup peer).isSome
  right : ∀ peer, ∀ entry ∈ s.registry.lookup peer, s.RightAbout peer entry

/-- The entry of one peer is changed. -/
theorem Shown.change (h : s.Shown) {peer : PeerId} {entry : DiscoveredPeer} (hself : s'.registry.lookup peer = some entry)
    (hother : ∀ q ≠ peer, s'.registry.lookup q = s.registry.lookup q ∧ s'.established q = s.established q)
    (hhellos : ∀ x ∈ s.hellos, x ∈ s'.hellos) (hright : s'.RightAbout peer entry) : s'.Shown := by
  constructor
  · intro q hq
    by_cases hqp : q = peer
    · rw [hqp, hself]
      rfl
    · rw [(hother q hqp).1]
      rw [(hother q hqp).2] at hq
      exact h.known q hq
  · intro q found hfound
    by_cases hqp : q = peer
    · rw [hqp, hself] at hfound
      rw [hqp, ← Option.some.inj hfound]
      exact hright
    · rw [(hother q hqp).1] at hfound
      obtain ⟨hconn, hname⟩ := h.right q found hfound
      refine ⟨by rw [(hother q hqp).2]; exact hconn, fun name hn => ?_⟩
      obtain ⟨info, hinfo, heq⟩ := hname name hn
      exact ⟨info, hhellos _ hinfo, heq⟩

/-- A peer without an entry is not connected. -/
theorem Shown.unconnected (h : s.Shown) {peer : PeerId} (hnone : s.registry.lookup peer = none) : s.established peer = 0 := by
  by_contra hpos
  have hknown := h.known peer (Nat.pos_of_ne_zero hpos)
  rw [hnone] at hknown
  cases hknown

theorem RightAbout.addAddresses {peer : PeerId} {entry : DiscoveredPeer} (h : s.RightAbout peer entry)
    (addrs : List Multiaddr) : s.RightAbout peer (entry.addAddresses addrs) := by
  obtain ⟨addresses, heq⟩ := entry.addAddresses_spec addrs
  rw [heq]
  exact ⟨h.connected, h.name⟩

theorem Shown.step (h : s.Shown) (hstep : EventLoopStep s l s') : s'.Shown := by
  cases hstep with
  | discovered peer addresses outcome hmore =>
    refine h.change PeerRegistry.lookup_update_self (fun q hq => ⟨PeerRegistry.lookup_update_of_ne hq, rfl⟩)
      (fun _ hx => hx) (RightAbout.addAddresses ?_ addresses)
    cases hlook : s.registry.lookup peer with
    | none =>
      have hzero := h.unconnected hlook
      exact ⟨by simp [hzero], by simp [DiscoveredPeer.unknown]⟩
    | some entry => exact ⟨(h.right peer entry hlook).connected, (h.right peer entry hlook).name⟩
  | @connected peer addr dial hdial =>
    refine h.change PeerRegistry.lookup_update_self
      (fun q hq => ⟨PeerRegistry.lookup_update_of_ne hq, Function.update_of_ne hq _ _⟩) (fun _ hx => hx)
      (RightAbout.addAddresses ?_ [addr])
    have hpos : 0 < (s.connectionEstablished peer addr dial).established peer := by
      show 0 < Function.update s.established peer (s.established peer + 1) peer
      rw [Function.update_self]
      omega
    refine ⟨⟨fun _ => hpos, fun _ => rfl⟩, ?_⟩
    cases hlook : s.registry.lookup peer with
    | none => simp [DiscoveredPeer.unknown]
    | some entry => exact (h.right peer entry hlook).name
  | @closed peer hconn =>
    obtain ⟨entry, hentry⟩ := Option.isSome_iff_exists.1 (h.known peer hconn)
    obtain ⟨hright, hname⟩ := h.right peer entry hentry
    have hestab : Function.update s.established peer (s.established peer - 1) peer = s.established peer - 1 :=
      Function.update_self ..
    by_cases hlast : s.established peer - 1 = 0
    · have hreg : s.registry.recordDisconnection peer (s.established peer - 1) =
          s.registry.insert peer { entry with connected := false } := by
        simp [PeerRegistry.recordDisconnection, hlast, hentry]
      rw [hreg]
      refine h.change (AList.lookup_insert _)
        (fun q hq => ⟨AList.lookup_insert_ne hq, Function.update_of_ne hq _ _⟩) (fun _ hx => hx) ⟨?_, hname⟩
      show _ ↔ 0 < Function.update s.established peer (s.established peer - 1) peer
      rw [hestab, hlast]
      simp
    · have hreg : s.registry.recordDisconnection peer (s.established peer - 1) = s.registry := by
        simp [PeerRegistry.recordDisconnection, hlast]
      rw [hreg]
      refine h.change hentry (fun q hq => ⟨rfl, Function.update_of_ne hq _ _⟩) (fun _ hx => hx) ⟨?_, hname⟩
      show _ ↔ 0 < Function.update s.established peer (s.established peer - 1) peer
      rw [hestab, hright]
      omega
  | @hello peer info hknown =>
    obtain ⟨entry, hentry⟩ := Option.isSome_iff_exists.1 hknown
    refine h.change PeerRegistry.lookup_update_self (fun q hq => ⟨PeerRegistry.lookup_update_of_ne hq, rfl⟩)
      (fun _ hx => List.mem_append_left _ hx) ?_
    rw [hentry]
    refine ⟨(h.right peer entry hentry).connected, fun name hn => ⟨info, by simp, ?_⟩⟩
    exact Option.some.inj hn
  | @identify peer protocolVersion listenAddrs hknown =>
    obtain ⟨entry, hentry⟩ := Option.isSome_iff_exists.1 hknown
    refine h.change PeerRegistry.lookup_update_self (fun q hq => ⟨PeerRegistry.lookup_update_of_ne hq, rfl⟩)
      (fun _ hx => hx) (RightAbout.addAddresses ?_ listenAddrs)
    rw [hentry]
    exact ⟨(h.right peer entry hentry).connected, (h.right peer entry hentry).name⟩
  | _ => exact ⟨h.known, fun peer entry hentry => ⟨(h.right peer entry hentry).connected, (h.right peer entry hentry).name⟩⟩

theorem Shown.start (h : (eventLoopMachine ρ env relayPeer).start s) : s.Shown := by
  obtain ⟨hzero, -, hreg, -⟩ := h
  constructor
  · intro peer hpos
    rw [hzero] at hpos
    cases hpos
  · intro peer entry hentry
    rw [hreg, AList.lookup_empty] at hentry
    cases hentry

end EventLoopState

/-- The registry has every connected peer, calls a peer connected exactly while it is, and shows a name that the peer
itself has given. -/
theorem registry_right {ρ : Type} {env : HelloEnv} {relayPeer : Option Multiaddr} {s : EventLoopState ρ}
    (h : (eventLoopMachine ρ env relayPeer).Reachable s) (peer : PeerId) :
    (0 < s.established peer → (s.registry.lookup peer).isSome) ∧
    ∀ entry ∈ s.registry.lookup peer, (entry.connected = true ↔ 0 < s.established peer) ∧
      ∀ name ∈ entry.name, ∃ info, (peer, info) ∈ s.hellos ∧ info.name = name := by
  have hshown : s.Shown := h.invariant (fun _ => .start) fun _ _ ha h => h.step (EventLoopState.eventLoopStep ha)
  exact ⟨hshown.known peer, fun entry hentry => ⟨(hshown.right peer entry hentry).connected, (hshown.right peer entry hentry).name⟩⟩

namespace EventLoopSample

def bob : PeerId := ⟨[2]⟩

def carol : PeerId := ⟨[3]⟩

def helloEnv : HelloEnv := ⟨fun _ => some 100, fun text => if text = "carol" then some carol else none⟩

def machine : Machine (EventLoopState Unit) (EventLoopLabel Unit) := eventLoopMachine Unit helloEnv none

instance (s : EventLoopState Unit) (l : EventLoopLabel Unit) : Decidable (machine.enabled s l) :=
  inferInstanceAs (Decidable (s.Enabled l))

def idle : EventLoopState Unit := ⟨fun _ => 0, [], ∅, [], [], [], [], []⟩

def carolAddr : Multiaddr := [.other "ip4", .quicV1, .p2p carol]

def carolInfo : NodeInfo := ⟨"carol", "printer-room", "linux", "x86_64", "1", false, false⟩

def message : Command := ⟨0, .chat, bob⟩

def shell : Command := ⟨1, .shell, carol⟩

/-- A message to a peer without addresses waits. -/
def asked : EventLoopState Unit := machine.after idle [.command message none .failed]

/-- A shell to another peer is dialed, with an address that names the peer. -/
def dialed : EventLoopState Unit := machine.after asked [.command shell (some carolAddr) .started]

/-- The peer is connected and says who it is, and the shell is opened. -/
def opened : EventLoopState Unit := machine.after dialed
  [.connectionEstablished carol carolAddr (some 0), .hello carol carolInfo, .completes 0 (.ok ())]

theorem reachable_asked : machine.Reachable asked :=
  Machine.Reachable.after _ (.of_start ⟨fun _ => rfl, ⟨none, rfl⟩, rfl, rfl, rfl, rfl, rfl, rfl⟩) (by decide)

theorem reachable_dialed : machine.Reachable dialed := reachable_asked.after _ (by decide)

theorem reachable_opened : machine.Reachable opened := reachable_dialed.after _ (by decide +kernel)

theorem command_accounted_opened : 0 ∈ opened.issued ∧ opened.answered.map Prod.fst = [1] ∧
    opened.waiting.countP (·.id = 0) + opened.inFlight.countP (·.id = 0) + opened.answered.countP (·.1 = 0) = 1 := by
  have hissued : 0 ∈ opened.issued := by decide +kernel
  refine ⟨hissued, by decide +kernel, ?_⟩
  rw [(command_accounted reachable_opened).1, if_pos hissued]

theorem waiting_shell_dialed_sample : shell ∈ dialed.waiting ∧ ∃ i : Nat, dialed.dials[i]? = some (some carol) ∧
    ∀ error, (1, .error (unreachableText error)) ∈ (dialed.outgoingConnectionError i error).answered := by
  have hwaits : shell ∈ dialed.waiting := by decide
  have hstart : (machine.restrict EventLoopState.ShellNamed).Reachable idle :=
    .of_start ⟨fun _ => rfl, ⟨none, rfl⟩, rfl, rfl, rfl, rfl, rfl, rfl⟩
  have hasked : (machine.restrict EventLoopState.ShellNamed).Reachable asked :=
    hstart.after [EventLoopLabel.command message none .failed] ⟨⟨by decide, trivial⟩, trivial⟩
  have hdialed : (machine.restrict EventLoopState.ShellNamed).Reachable dialed :=
    hasked.after [EventLoopLabel.command shell (some carolAddr) .started] ⟨⟨by decide, fun _ => rfl⟩, trivial⟩
  exact ⟨hwaits, waiting_shell_dialed hdialed hwaits rfl⟩

theorem registry_right_opened : 0 < opened.established carol ∧ (opened.registry.lookup carol).isSome := by
  have hpos : 0 < opened.established carol := by decide +kernel
  exact ⟨hpos, (registry_right reachable_opened carol).1 hpos⟩

end EventLoopSample

end Fortiq
