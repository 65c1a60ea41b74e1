/-
What an admitted shell rests on. A handshake that passes the checks carries a certificate the Genesis owner signed for
this network, this transport peer and shells, and an answer to this stream's challenge that the certified key signed
for this ticket; and whoever holds the place for a shell, there is only one.
-/
import Fortiq.Node.Shell

namespace Fortiq

open TicketEngine

/-! ## What the checks establish -/

/-- The owner of the pinned Genesis has certified a session key for shells from this peer, past this moment, and that
key has signed the handshake of the ticket with the challenge of the stream. -/
def BoundAuthority (env : ShellEnv) (node : ManagedNode) (log : SigningLog) (a : Admission) : Prop :=
  ∃ genesis sessionKey capabilities createdAt expiresAt, node.genesis = some genesis ∧
    log.Says genesis.tbs.ownerRootSigningPublicKey (.certificate genesis.tbs.networkId genesis.tbs.ownerId
      ⟨env.crypto.blake3 a.peer.bytes⟩ (sessionKey.deriveId env.crypto) sessionKey capabilities createdAt expiresAt) ∧
    capabilities.has OperatorCapabilities.shellExec = true ∧ a.now < expiresAt ∧
    log.Says sessionKey (.shell genesis.tbs.networkId a.handshake.ticketId (env.peerToString a.peer) a.challenge)

/-- The ticket exists, belongs to the node, and is open or in progress. -/
def WorkingTicket (localPeerId : String) (engine : TicketEngine) (t : String) : Prop :=
  ∃ ticket, engine.state.getTicket t = some ticket ∧ ticket.clientPeerId = localPeerId ∧
    (ticket.state = .«open» ∨ ticket.state = .inProgress)

variable {env : ShellEnv} {node : ManagedNode}

/-- The authority of a node is what its Genesis says. -/
theorem authority_genesis {authority : AuthorityContext} (h : node.authority env = some authority) :
    ∃ genesis, node.genesis = some genesis ∧
      authority = ⟨genesis.tbs.networkId, genesis.tbs.ownerId, genesis.tbs.ownerRootSigningPublicKey⟩ := by
  unfold ManagedNode.authority AuthorityContext.ofGenesisFile at h
  obtain ⟨genesis, hg, hctx⟩ := Option.bind_eq_some_iff.1 h
  refine ⟨genesis, (Option.filter_eq_some_iff.1 hg).1, ?_⟩
  unfold AuthorityContext.fromGenesis verifierOf at hctx
  split at hctx
  · cases hctx; rfl
  · cases hctx

theorem verifyCertificate_spec {authority : AuthorityContext} {peer : PeerId} {c : OperatorSessionCertificate}
    {capability : UInt32} {now : UInt64} (h : authority.verifyCertificate env.crypto peer c capability now = true) :
    c.networkId = authority.networkId ∧ c.ownerId = authority.ownerId ∧ c.hostEntity = ⟨env.crypto.blake3 peer.bytes⟩ ∧
      c.operatorKeyId = c.sessionPubkey.deriveId env.crypto ∧ c.capabilities.has capability = true ∧ now < c.expiresAt ∧
      (verifyDomain env.crypto authority.ownerVerifier operatorCertDomain c.tbs c.signature).isOk = true := by
  simp only [AuthorityContext.verifyCertificate, Bool.and_eq_true, decide_eq_true_eq] at h
  obtain ⟨⟨⟨⟨⟨hn, ho⟩, hh⟩, hk⟩, hc⟩, hv⟩ := h
  obtain ⟨hexp, hsig⟩ := Node.verify_isOk hv
  exact ⟨hn, ho, hh, hk, hc, hexp, verifyDomain_isOk.2 hsig⟩

/-- The texts of a handshake that was read are short. -/
theorem read_short (hjson : env.Compact) {input : List UInt8} {h : ShellNextHandshake}
    (hread : ShellNextHandshake.readFromAsync env.handshakeFromJson input = some h) :
    (utf8 h.ticketId).length ≤ ShellNextHandshake.maxLength ∧
      (utf8 h.operatorTransportPeerId).length ≤ ShellNextHandshake.maxLength := by
  unfold ShellNextHandshake.readFromAsync at hread
  split at hread
  · simp only at hread
    split at hread
    · cases hread
    · split at hread
      · cases hread
      · rename_i hlen _
        obtain ⟨ht, hp⟩ := hjson _ _ hread
        rw [List.length_take] at ht hp
        omega
  · cases hread

theorem checkHandshake_ok {peer : PeerId} {challenge : Challenge} {h : ShellNextHandshake} {now : UInt64}
    {ticket : Option TicketRecord} {a : Admission} (ha : checkHandshake env node peer challenge h now ticket = .ok a) :
    ∃ r, ticket = some r ∧ a = ⟨peer, challenge, h, now, r⟩ ∧ authorityValid env node peer challenge h now = true ∧
      r.clientPeerId = node.localPeerId ∧ r.state.permitsWork = true := by
  unfold checkHandshake at ha
  cases ticket with
  | none => cases ha
  | some r =>
    simp only at ha
    split at ha
    · cases ha
    · rename_i hvalid
      split at ha
      · cases ha
      · rename_i hwork
        cases ha
        simp only [not_or, not_not, Bool.not_eq_false] at hwork
        exact ⟨r, rfl, rfl, by simpa using hvalid, hwork⟩

/-- No check denies with the code of consent. -/
theorem receive_ne_authorized {engine : TicketEngine} {peer : PeerId} {challenge : Challenge}
    {input : Option (List UInt8)} {now : UInt64} (h : receive env node engine peer challenge input now = .error .authorized) :
    False := by
  unfold receive at h
  cases hread : input.bind (ShellNextHandshake.readFromAsync env.handshakeFromJson) with
  | none => rw [hread] at h; cases h
  | some hs =>
    rw [hread] at h
    simp only [checkHandshake] at h
    cases hg : engine.state.getTicket hs.ticketId with
    | none => rw [hg] at h; cases h
    | some ticket =>
      rw [hg] at h
      simp only at h
      split at h
      · cases h
      · split at h <;> cases h

/-- Signatures that are not forged make a valid handshake a bound one. -/
theorem bound_of_valid {s : ShellState} {a : Admission} (hunf : s.Unforged env node a.challenge a.handshake)
    (hshort : (utf8 a.handshake.ticketId).length + (utf8 a.handshake.operatorTransportPeerId).length < 2 ^ 32)
    (hvalid : authorityValid env node a.peer a.challenge a.handshake a.now = true) :
    BoundAuthority env node s.signed a := by
  simp only [authorityValid, Bool.and_eq_true] at hvalid
  obtain ⟨hauth, hsession⟩ := hvalid
  obtain ⟨authority, hctx, hauth⟩ := (Option.any_eq_true _ _).1 hauth
  simp only [Bool.and_eq_true, decide_eq_true_eq] at hauth
  obtain ⟨⟨hnet, hpeer⟩, hcert⟩ := hauth
  obtain ⟨hn, ho, hh, hk, hcap, hexp, hsig⟩ := verifyCertificate_spec hcert
  obtain ⟨genesis, hgenesis, rfl⟩ := authority_genesis hctx
  have hcertified := SigningLog.Backs.certificate (hunf.1 _ hctx hsig)
  have hanswered := SigningLog.Backs.shell hshort (hunf.2 hsession)
  rw [hn, ho, hh, hk] at hcertified
  rw [hnet, hpeer] at hanswered
  exact ⟨genesis, _, _, _, _, hgenesis, hcertified, hcap, hexp, hanswered⟩

theorem receive_ok (hjson : env.Compact) {s : ShellState} {peer : PeerId} {challenge : Challenge}
    {input : Option (List UInt8)} {now : UInt64} {a : Admission}
    (hunf : ∀ h, input.bind (ShellNextHandshake.readFromAsync env.handshakeFromJson) = some h →
      s.Unforged env node challenge h)
    (ha : receive env node s.engine peer challenge input now = .ok a) :
    a.peer = peer ∧ a.challenge = challenge ∧ BoundAuthority env node s.signed a ∧
      WorkingTicket node.localPeerId s.engine a.handshake.ticketId := by
  unfold receive at ha
  cases hread : input.bind (ShellNextHandshake.readFromAsync env.handshakeFromJson) with
  | none => rw [hread] at ha; cases ha
  | some h =>
    rw [hread] at ha
    obtain ⟨r, hticket, rfl, hvalid, hclient, hwork⟩ := checkHandshake_ok ha
    obtain ⟨bytes, -, hbytes⟩ := Option.bind_eq_some_iff.1 hread
    obtain ⟨ht, hp⟩ := read_short hjson hbytes
    have hmax : ShellNextHandshake.maxLength = 16384 := rfl
    refine ⟨rfl, rfl, bound_of_valid (hunf h hread) (by simp only; omega) hvalid, r, hticket, hclient, ?_⟩
    cases hs : r.state with
    | «open» => exact .inl rfl
    | inProgress => exact .inr rfl
    | resolved => rw [hs] at hwork; cases hwork
    | closed => rw [hs] at hwork; cases hwork

theorem BoundAuthority.mono {log log' : SigningLog} {a : Admission} (hsub : log ⊆ log')
    (h : BoundAuthority env node log a) : BoundAuthority env node log' a := by
  have hsays : ∀ {key m}, log.Says key m → log'.Says key m := fun h => h.imp (hsub ·) (hsub ·)
  obtain ⟨genesis, key, caps, c, x, hg, hcert, hcap, hexp, hshell⟩ := h
  exact ⟨genesis, key, caps, c, x, hg, hsays hcert, hcap, hexp, hsays hshell⟩

/-! ## The place for a shell -/

namespace ShellState

/-- The handler holds the place. -/
def acquiring (s : ShellState) : Nat :=
  match s.handling with
  | some (.acquired _) => 1
  | _ => 0

/-- The place is taken by the handler or by a task, and the flag says whether it is. -/
def Exclusive (s : ShellState) : Prop := s.acquiring + s.tasks.length = s.activeShells.toNat

/-- The handshake that is being answered, once it has passed the checks. -/
def admission (s : ShellState) : Option Admission :=
  match s.handling with
  | some (.checked a) => some a
  | some (.acquired a) => some a
  | _ => none

variable {s : ShellState} {l : ShellLabel}

/-- What a step does to the handler and to the place; whatever else it does is aside. -/
inductive Moves (env : ShellEnv) (node : ManagedNode) (s : ShellState) (l : ShellLabel) : ShellState → Prop
  | aside {s' : ShellState} (handling : s'.handling = s.handling) (active : s'.activeShells = s.activeShells)
      (tasks : s'.tasks.length = s.tasks.length) (signed : s.signed ⊆ s'.signed) : Moves env node s l s'
  | accepts {peer : PeerId} {challenge : Challenge} (idle : s.handling = none) :
      Moves env node s l { s with handling := some (.challenged peer challenge) }
  | fails {peer : PeerId} {challenge : Challenge} (waiting : s.handling = some (.challenged peer challenge)) :
      Moves env node s l { s with handling := none }
  | passes {peer : PeerId} {challenge : Challenge} {input : Option (List UInt8)} {now : UInt64} {a : Admission}
      (label : l = .handshake input now) (waiting : s.handling = some (.challenged peer challenge))
      (checks : receive env node s.engine peer challenge input now = .ok a) :
      Moves env node s l { s with handling := some (.checked a) }
  | busy {a : Admission} (checked : s.handling = some (.checked a)) : Moves env node s l { s with handling := none }
  | acquires {a : Admission} (checked : s.handling = some (.checked a)) (free : s.activeShells = false) :
      Moves env node s l { s with activeShells := true, handling := some (.acquired a) }
  | spawns {a : Admission} (acquired : s.handling = some (.acquired a)) (task : ShellTask) :
      Moves env node s l { s with handling := none, tasks := s.tasks ++ [task] }
  | releases {a : Admission} (acquired : s.handling = some (.acquired a)) :
      Moves env node s l { s with handling := none, activeShells := false }
  | frees {i : Nat} (task : i < s.tasks.length) :
      Moves env node s l { s with tasks := s.tasks.eraseIdx i, activeShells := false }

theorem moves_setPhase (engine : TicketEngine) (i : Nat) (phase : ShellPhase) :
    Moves env node s l ({ s with engine }.setPhase i phase) :=
  .aside rfl rfl (by simp [setPhase]) (List.Subset.refl _)

theorem moves_refl : Moves env node s l s := .aside rfl rfl rfl (List.Subset.refl _)

theorem moves_step (hl : s.Enabled env node l) : Moves env node s l (s.step env node l) := by
  cases l with
  | sign key m => exact .aside rfl rfl rfl (List.subset_append_left _ _)
  | work a => exact .aside rfl rfl rfl (List.Subset.refl _)
  | accept peer challenge => exact .accepts hl
  | streamFails =>
    obtain ⟨peer, challenge, hh⟩ := hl
    exact .fails hh
  | handshake input now =>
    obtain ⟨peer, challenge, hh, -⟩ := hl
    simp only [ShellState.step, hh]
    cases hr : receive env node s.engine peer challenge input now with
    | error code => exact .fails hh
    | ok a => exact .passes rfl hh hr
  | acquire =>
    obtain ⟨a, hh⟩ := hl
    simp only [ShellState.step, hh]
    split
    case isTrue hflag => exact .busy hh
    case isFalse hflag => exact .acquires hh (Bool.eq_false_of_not_eq_true hflag)
  | authorize written sessionId =>
    obtain ⟨a, hh⟩ := hl
    simp only [ShellState.step, hh]
    cases written with
    | true => exact .spawns hh _
    | false => exact .releases hh
  | recordStart i disk now =>
    obtain ⟨task, ht, -⟩ := hl
    simp only [ShellState.step, recordStart, ht]
    exact moves_setPhase _ _ _
  | poll i now =>
    obtain ⟨task, ht, -⟩ := hl
    simp only [ShellState.step, ht]
    cases s.watchedValid task now with
    | true => exact moves_refl
    | false => exact moves_setPhase s.engine _ _
  | serveEnds i ok => exact moves_setPhase s.engine _ _
  | recordEnd i disk now order =>
    obtain ⟨ok, task, ht, -⟩ := hl
    simp only [ShellState.step, recordEnd, ht]
    exact moves_setPhase _ _ _
  | dropGuard i =>
    obtain ⟨task, ht, -⟩ := hl
    exact .frees (List.getElem?_eq_some_iff.1 ht).1

namespace Moves

variable {s' : ShellState}

/-- Every step moves the place from one holder to another, or takes or frees it together with the flag. -/
theorem exclusive (hm : Moves env node s l s') (h : s.Exclusive) : s'.Exclusive := by
  have hle := s.activeShells.toNat_le
  unfold Exclusive acquiring at h ⊢
  cases hm with
  | aside handling active tasks signed => rwa [handling, active, tasks]
  | accepts idle => simpa [idle] using h
  | fails waiting => simpa [waiting] using h
  | passes label waiting checks => simpa [waiting] using h
  | busy checked => simpa [checked] using h
  | acquires checked free => simpa [checked, free] using h
  | spawns acquired task => simpa [acquired, add_comm] using h
  | releases acquired =>
    -- the handler holds the place, so no task does
    simp only [acquired] at h
    have hnil : s.tasks = [] := List.eq_nil_of_length_eq_zero (by omega)
    simp [hnil]
  | frees task =>
    -- a task holds the place, so it is the only one and the handler does not
    simp only [List.length_eraseIdx_of_lt task, Bool.toNat_false]
    omega

/-- A step keeps the handshake that is being answered, drops it, or is the one by which it passes the checks. -/
theorem admission_cases (hm : Moves env node s l s') {a : Admission} (ha : s'.admission = some a) :
    s.admission = some a ∨ ∃ peer challenge input now, l = .handshake input now ∧
      s.handling = some (.challenged peer challenge) ∧ receive env node s.engine peer challenge input now = .ok a := by
  cases hm with
  | aside handling active tasks signed => exact .inl (by rwa [admission, handling] at ha)
  | passes label waiting checks => cases ha; exact .inr ⟨_, _, _, _, label, waiting, checks⟩
  | acquires checked free => cases ha; exact .inl (by rw [admission, checked])
  | frees task => exact .inl ha
  | _ => cases ha

/-- Signatures stay. -/
theorem signed_subset (hm : Moves env node s l s') : s.signed ⊆ s'.signed := by
  cases hm with
  | aside handling active tasks signed => exact signed
  | _ => exact List.Subset.refl _

end Moves

end ShellState

/-! ## Admission -/

/-- The handshake rests on signatures, and on the ticket as it was when the handler, then waiting for the answer to
this challenge, looked it up. -/
def Vetted (env : ShellEnv) (node : ManagedNode) (s : ShellState) (a : Admission) : Prop :=
  BoundAuthority env node s.signed a ∧
  ∃ s₀, (shellMachine env node).Reachable s₀ ∧ (shellMachine env node).Run s₀ s ∧
    s₀.handling = some (.challenged a.peer a.challenge) ∧ WorkingTicket node.localPeerId s₀.engine a.handshake.ticketId

variable {s : ShellState} {l : ShellLabel}

theorem Vetted.step {a : Admission} (h : Vetted env node s a) (hl : s.Enabled env node l) :
    Vetted env node (s.step env node l) a := by
  obtain ⟨hbound, s₀, hreach, hrun, hh, hwork⟩ := h
  exact ⟨hbound.mono (ShellState.moves_step hl).signed_subset, s₀, hreach, hrun.tail l hl, hh, hwork⟩

theorem vetted_of_receive (hjson : env.Compact) (hs : (shellMachine env node).Reachable s) {peer : PeerId}
    {challenge : Challenge} {input : Option (List UInt8)} {now : UInt64} {a : Admission}
    (hl : s.Enabled env node (.handshake input now)) (hh : s.handling = some (.challenged peer challenge))
    (hr : receive env node s.engine peer challenge input now = .ok a) :
    Vetted env node (s.step env node (.handshake input now)) a := by
  obtain ⟨peer', challenge', hh', hunf⟩ := hl
  rw [hh] at hh'
  cases hh'
  obtain ⟨rfl, rfl, hbound, hwork⟩ := receive_ok hjson hunf hr
  exact Vetted.step ⟨hbound, s, hs, .refl, hh, hwork⟩ ⟨_, _, hh, hunf⟩

theorem exclusive_of_reachable (h : (shellMachine env node).Reachable s) : s.Exclusive := by
  refine h.invariant (fun s₀ h₀ => ?_) fun s l hl hs => (ShellState.moves_step hl).exclusive hs
  obtain ⟨hflag, hh, ht⟩ := h₀
  simp [ShellState.Exclusive, ShellState.acquiring, hflag, hh, ht]

theorem vetted_of_reachable (hjson : env.Compact) (h : (shellMachine env node).Reachable s) :
    ∀ a, s.admission = some a → Vetted env node s a := by
  -- the invariant carries reachability along, for the state in which a handshake is checked
  refine (h.invariant (I := fun s => (shellMachine env node).Reachable s ∧ ∀ a, s.admission = some a → Vetted env node s a)
    (fun s₀ h₀ => ⟨.of_start h₀, fun a ha => ?_⟩) fun s l hl hs => ⟨hs.1.step hl, fun a ha => ?_⟩).2
  · simp [ShellState.admission, h₀.2.1] at ha
  · rcases (ShellState.moves_step hl).admission_cases ha with hold | ⟨peer, challenge, input, now, rfl, hh, hr⟩
    · exact (hs.2 a hold).step hl
    · exact vetted_of_receive hjson hs.1 hl hh hr

/-- The only code AUTHORIZED is that of a handler which holds the place. -/
theorem acquired_of_sends {peer : PeerId} (hsend : s.sends env node l = some (peer, .authorized)) :
    ∃ a, s.handling = some (.acquired a) ∧ a.peer = peer := by
  unfold ShellState.sends at hsend
  cases l with
  | handshake input now =>
    cases hh : s.handling with
    | none => rw [hh] at hsend; cases hsend
    | some hd =>
      rw [hh] at hsend
      cases hd with
      | challenged p c =>
        simp only at hsend
        cases hr : receive env node s.engine p c input now with
        | ok a => rw [hr] at hsend; cases hsend
        | error code =>
          rw [hr] at hsend
          cases hsend
          exact (receive_ne_authorized hr).elim
      | checked a => cases hsend
      | acquired a => cases hsend
  | acquire =>
    cases hh : s.handling with
    | none => rw [hh] at hsend; cases hsend
    | some hd =>
      rw [hh] at hsend
      cases hd with
      | challenged p c => cases hsend
      | checked a =>
        simp only at hsend
        split at hsend <;> cases hsend
      | acquired a => cases hsend
  | authorize written sessionId =>
    cases hh : s.handling with
    | none => rw [hh] at hsend; cases hsend
    | some hd =>
      rw [hh] at hsend
      cases hd with
      | challenged p c => cases hsend
      | checked a => cases hsend
      | acquired a => cases hsend; exact ⟨a, rfl, rfl⟩
  | _ => cases hsend

/-- A shell is authorised only on fresh and bound authority. Whenever the node answers a stream of a peer with
AUTHORIZED, the Genesis owner has signed a certificate for this network, this peer and shells that has not expired;
the certified key has signed the handshake for this network, the ticket, this peer and the challenge of this stream;
the ticket was the node's own and open or in progress when it was looked up; and no other shell is active. -/
theorem shell_authorized (hjson : env.Compact) (h : (shellMachine env node).Reachable s) {peer : PeerId}
    (hsend : s.sends env node l = some (peer, .authorized)) :
    ∃ a, s.handling = some (.acquired a) ∧ a.peer = peer ∧ BoundAuthority env node s.signed a ∧
      (∃ s₀, (shellMachine env node).Reachable s₀ ∧ (shellMachine env node).Run s₀ s ∧
        s₀.handling = some (.challenged peer a.challenge) ∧
        WorkingTicket node.localPeerId s₀.engine a.handshake.ticketId) ∧
      s.tasks = [] := by
  obtain ⟨a, hh, hpeer⟩ := acquired_of_sends hsend
  obtain ⟨hbound, s₀, hreach, hrun, hh₀, hwork⟩ := vetted_of_reachable hjson h a (by simp [ShellState.admission, hh])
  refine ⟨a, hh, hpeer, hbound, ⟨s₀, hreach, hrun, hpeer ▸ hh₀, hwork⟩, ?_⟩
  have hle := s.activeShells.toNat_le
  have hex := exclusive_of_reachable h
  simp only [ShellState.Exclusive, ShellState.acquiring, hh] at hex
  exact List.eq_nil_of_length_eq_zero (by omega)

/-! ## A sample -/

namespace ShellSample

/-- A ticket of the node, and the record the task of a shell session writes. -/
def shellTable : EventTable where
  bodies :=
    [⟨[], 10, 1, .ticket (.created "T-aaaaaaaa" "printer" "on fire" .high "home")⟩,
     ⟨[idAt 0], 100, 2, .ticket (.shellSessionStarted "5e551011" "T-aaaaaaaa" "op" "QUIC/shell-next" 100)⟩]

def opPeer : PeerId := ⟨utf8 "op"⟩

def network : NetworkId := ⟨Vector.replicate 32 7⟩

def ownerKey : PublicKey := alice.publicKey tagCrypto

def sessionKey : PublicKey := bob.publicKey tagCrypto

/-- The node `home`, with a Genesis signed by alice. -/
def managed : ManagedNode where
  localPeerId := "home"
  genesis := some (.create tagCrypto ⟨network, deriveOwnerId tagCrypto ownerKey, ownerKey, 0⟩ alice)

def challenge : Challenge := Vector.replicate 32 9

def certificate : OperatorSessionCertificate :=
  .issue tagCrypto network (deriveOwnerId tagCrypto ownerKey) ⟨tagCrypto.blake3 opPeer.bytes⟩
    (sessionKey.deriveId tagCrypto) sessionKey ⟨OperatorCapabilities.shellExec⟩ 0 1000 alice

/-- Bob's answer to the challenge, with the certificate alice issued. -/
def answer : ShellNextHandshake where
  networkId := network
  ticketId := "T-aaaaaaaa"
  operatorTransportPeerId := "op"
  sessionCertificate := certificate
  challengeSignature := (bob.signDomain tagCrypto objectSigDomain
    (ShellNextHandshake.signingPayload network "T-aaaaaaaa" "op" challenge)).bytes.toList

def shellEnv : ShellEnv where
  toEnv := shellTable.env
  peerToString := fun peer => String.ofList (peer.bytes.map fun b => Char.ofNat b.toNat)
  certificateFromCbor := fun _ => none
  handshakeFromJson := fun json => if json.length = 16 then some answer else none

theorem shellEnv_compact : shellEnv.Compact := by
  intro json h hj
  simp only [shellEnv, Option.ite_none_right_eq_some] at hj
  obtain ⟨hlen, hj⟩ := hj
  cases hj
  rw [hlen]
  decide +kernel

def homeEngine : Reached shellTable :=
  (Reached.start shellTable).after (.createTicket "aaaaaaaa" 10 "printer" "on fire" .high "home")

/-- The node with its ticket, after alice and bob have signed. -/
def idle : ShellState where
  engine := homeEngine.engine
  activeShells := false
  handling := none
  tasks := []
  signed :=
    [(ownerKey, .certificate network (deriveOwnerId tagCrypto ownerKey) ⟨tagCrypto.blake3 opPeer.bytes⟩
        (sessionKey.deriveId tagCrypto) sessionKey ⟨OperatorCapabilities.shellExec⟩ 0 1000),
     (sessionKey, .shell network "T-aaaaaaaa" "op" challenge)]

def waiting : ShellState := (shellMachine shellEnv managed).step idle (.accept opPeer challenge)

/-- The length of the JSON, and the JSON. -/
def input : Option (List UInt8) := some (0 :: 16 :: List.replicate 16 0)

def vetted : ShellState := (shellMachine shellEnv managed).step waiting (.handshake input 100)

def holding : ShellState := (shellMachine shellEnv managed).step vetted .acquire

/-- The handshake as it is admitted. -/
def granted : Admission where
  peer := opPeer
  challenge := challenge
  handshake := answer
  now := 100
  ticket :=
    { id := "T-aaaaaaaa", title := "printer", description := "on fire", state := .«open», priority := .high,
      clientPeerId := "home", revision := 1, createdAt := 10, updatedAt := 10, closedAt := none }

theorem waiting_unforged : waiting.Unforged shellEnv managed challenge answer := by
  refine ⟨fun authority h _ => ?_, fun _ => ⟨_, List.mem_cons_of_mem _ (List.mem_cons_self ..), rfl⟩⟩
  obtain ⟨genesis, hg, rfl⟩ := authority_genesis h
  cases hg
  exact ⟨_, List.mem_cons_self .., rfl⟩

theorem holding_acquired : holding.handling = some (.acquired granted) := by decide +kernel

theorem holding_reachable : (shellMachine shellEnv managed).Reachable holding := by
  have h₀ : (shellMachine shellEnv managed).Reachable idle := .of_start ⟨rfl, rfl, rfl⟩
  have h₁ : (shellMachine shellEnv managed).Reachable waiting := h₀.step (a := .accept opPeer challenge) rfl
  have h₂ : (shellMachine shellEnv managed).Reachable vetted :=
    h₁.step (a := .handshake input 100) ⟨opPeer, challenge, rfl, fun h hread => by
      have hanswer : input.bind (ShellNextHandshake.readFromAsync shellEnv.handshakeFromJson) = some answer := by
        decide +kernel
      rw [hanswer] at hread
      cases hread
      exact waiting_unforged⟩
  exact h₂.step (a := .acquire) ⟨granted, by decide +kernel⟩

end ShellSample

open ShellSample in
/-- The theorem at a handshake that is answered with AUTHORIZED. -/
theorem shell_authorized_granted :
    holding.sends shellEnv managed (.authorize true "5e551011") = some (opPeer, .authorized) ∧
    ∃ a, holding.handling = some (.acquired a) ∧ BoundAuthority shellEnv managed holding.signed a ∧ holding.tasks = [] := by
  have hsend : holding.sends shellEnv managed (.authorize true "5e551011") = some (opPeer, .authorized) := by
    simp [ShellState.sends, holding_acquired, granted]
  obtain ⟨a, hh, -, hbound, -, htasks⟩ := shell_authorized shellEnv_compact holding_reachable hsend
  exact ⟨hsend, a, hh, hbound, htasks⟩

end Fortiq
