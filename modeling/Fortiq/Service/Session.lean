/-
The operator session of the service (`fortiq-service/src/ipc_server.rs`): unlocking with the owner's mnemonic,
locking, status and authorisation checks, and the expiry timers of all sessions ever made. Each touches the
session under one lock, so a run is any sequence of them; a timer outlives its session and may wake at any time.
A session that leaves its place is cancelled and wiped on every path.
-/
import Fortiq.Authority.Mnemonic
import Fortiq.Authority.Policy
import Fortiq.Event.Table
import Fortiq.Lib.Machine

namespace Fortiq

abbrev Uuid := Vector UInt8 16

/-! ## Workspace and session -/

/-- The secrets an operator session holds in memory. -/
structure MemoryWorkspace where
  networkId : Option NetworkId
  ownerId : Option OwnerId
  segmentMasterSeed : Option Seed
  unlocked : Bool
deriving DecidableEq, Repr

namespace MemoryWorkspace

def new : MemoryWorkspace := ⟨none, none, none, false⟩

def isUnlocked (w : MemoryWorkspace) : Bool := w.unlocked

def lock (_ : MemoryWorkspace) : MemoryWorkspace := ⟨none, none, none, false⟩

def wipe (w : MemoryWorkspace) : MemoryWorkspace := w.lock

def unlock (w : MemoryWorkspace) (networkId : NetworkId) (ownerId : OwnerId) (segmentMasterSeed : Seed) : MemoryWorkspace :=
  { w.lock with networkId := some networkId, ownerId := some ownerId, segmentMasterSeed := some segmentMasterSeed,
                unlocked := true }

end MemoryWorkspace

/-- `tokio_util::sync::CancellationToken`: once cancelled it stays so, for every holder of a clone. -/
structure CancellationToken where
  cancelled : Bool
deriving DecidableEq, Repr

namespace CancellationToken

def new : CancellationToken := ⟨false⟩

def cancel (_ : CancellationToken) : CancellationToken := ⟨true⟩

end CancellationToken

structure ActiveOperatorSession where
  sessionId : Uuid
  ownerId : OwnerId
  cert : OperatorSessionCertificate
  workspace : MemoryWorkspace
  expiresAt : UInt64
  sessionSigner : Ed25519Signer
  cancellationToken : CancellationToken
deriving DecidableEq, Repr

namespace ActiveOperatorSession

/-- What each path does to a session it has taken out, before it drops it. -/
def retire (session : ActiveOperatorSession) : ActiveOperatorSession :=
  { session with cancellationToken := session.cancellationToken.cancel, workspace := session.workspace.wipe }

/-- `LockOperator` also replaces the signing key. -/
def lock (session : ActiveOperatorSession) : ActiveOperatorSession :=
  { session.retire with sessionSigner := ⟨Vector.replicate 32 0⟩ }

/-- The session cannot be used any more. -/
def Retired (session : ActiveOperatorSession) : Prop :=
  session.cancellationToken.cancelled = true ∧ session.workspace = MemoryWorkspace.new

/-- The session can be used. -/
def Live (session : ActiveOperatorSession) : Prop :=
  session.cancellationToken.cancelled = false ∧ session.workspace.isUnlocked = true

theorem retired_retire (session : ActiveOperatorSession) : session.retire.Retired := ⟨rfl, rfl⟩

theorem retired_lock (session : ActiveOperatorSession) : session.lock.Retired := ⟨rfl, rfl⟩

end ActiveOperatorSession

/-- What the service shows of its session. -/
structure OperatorSessionStatus where
  isUnlocked : Bool
  ownerId : Option String
  expiresAt : Option UInt64
  capabilities : List String
deriving DecidableEq, Repr

namespace OperatorSessionStatus

def locked : OperatorSessionStatus := ⟨false, none, none, []⟩

def ofSession (session : ActiveOperatorSession) : OperatorSessionStatus :=
  ⟨true, some session.ownerId.toHex, some session.expiresAt, session.cert.capabilities.toNames⟩

end OperatorSessionStatus

/-! ## The place of the session -/

/-- The session behind its lock, and beside it what has become of sessions: the ids of those that were put there,
those that were taken out as they were dropped, and the timers that still sleep. -/
structure OperatorState where
  operatorSession : Option ActiveOperatorSession
  installed : List Uuid
  dropped : List ActiveOperatorSession
  timers : List Uuid

namespace OperatorState

def new : OperatorState := ⟨none, [], [], []⟩

/-- `guard.take()`, what is done with the session, and its drop. -/
def take (s : OperatorState) (f : ActiveOperatorSession → ActiveOperatorSession) : OperatorState :=
  match s.operatorSession with
  | none => s
  | some session => { s with operatorSession := none, dropped := s.dropped ++ [f session] }

def isOperatorAuthorizedFor (s : OperatorState) (required : UInt32) (now : UInt64) : Bool × OperatorState :=
  match s.operatorSession with
  | none => (false, s)
  | some session =>
    if session.expiresAt > now && session.cert.capabilities.has required then (true, s)
    else if now ≥ session.expiresAt then (false, s.take ActiveOperatorSession.retire)
    else (false, s)

/-- A session is put in the place of the previous one, and its timer started. -/
def install (s : OperatorState) (session : ActiveOperatorSession) : OperatorState :=
  let s := s.take ActiveOperatorSession.retire
  { s with operatorSession := some session, installed := s.installed ++ [session.sessionId],
           timers := s.timers ++ [session.sessionId] }

def lockOperator (s : OperatorState) : OperatorState := s.take ActiveOperatorSession.lock

def getOperatorStatus (s : OperatorState) (now : UInt64) : OperatorSessionStatus × OperatorState :=
  match s.operatorSession with
  | none => (.locked, s)
  | some session =>
    if now ≥ session.expiresAt then (.locked, s.take ActiveOperatorSession.retire)
    else (.ofSession session, s)

/-- The timer of a session wakes: it ends the session in place if that is its own. -/
def expire (s : OperatorState) (sessionId : Uuid) : OperatorState :=
  let s := { s with timers := s.timers.erase sessionId }
  if s.operatorSession.any fun session => session.sessionId = sessionId then s.take ActiveOperatorSession.retire else s

end OperatorState

/-! ## Unlocking -/

/-- What unlocking finds outside: the primitives, the pinned Genesis, and the bytes of the host's peer id. -/
structure OperatorEnv where
  crypto : Crypto
  mnemonic : MnemonicEnv
  genesis : Option Genesis
  peerBytes : List UInt8

def sessionTtl : UInt64 := 3600

/-- The names of everything an operator session may do. -/
def sessionCapabilities : OperatorCapabilities :=
  .fromNames ["admin", "read", "write", "shell", "file", "ticket", "diagnostics"]

section Unlock

variable (env : OperatorEnv)

/-- The session of a mnemonic, or the text of the error; nothing shared is touched before it is complete. -/
def openSession (mnemonic : String) (now : UInt64) (nonce sessionId : Uuid) : Except String ActiveOperatorSession :=
  match env.genesis with
  | none => .error "Genesis canonique indisponible; déverrouillage refusé"
  | some genesis => do
    (genesis.verify env.crypto).mapError fun e => "Genesis canonique invalide: " ++ e.text
    let entropy ← (parseMnemonicPhrase env.mnemonic mnemonic).mapError fun e => "Phrase mnémonique invalide: " ++ e.text
    let rootSeed ← (MnemonicDeriver.deriveRootSigningSeed env.mnemonic entropy).mapError fun e =>
      "Échec dérivation clé racine: " ++ e.text
    let segmentMasterSeed ← (MnemonicDeriver.deriveSegmentMasterSeed env.mnemonic entropy).mapError fun e =>
      "Échec dérivation clé maître de segment: " ++ e.text
    let expiresAt := now + sessionTtl
    let rootSigner : Ed25519Signer := ⟨rootSeed⟩
    let rootPublicKey := rootSigner.publicKey env.crypto
    let ownerId := deriveOwnerId env.crypto rootPublicKey
    if ownerId ≠ genesis.tbs.ownerId ∨ rootPublicKey ≠ genesis.tbs.ownerRootSigningPublicKey then
      throw "Cette phrase mnémonique ne correspond pas au Owner de Genesis"
    let hostEntity : EntityId := ⟨env.crypto.blake3 env.peerBytes⟩
    let sessionSeed ← (MnemonicDeriver.deriveOperatorSessionSeed env.mnemonic entropy nonce).mapError fun e =>
      "Échec dérivation session: " ++ e.text
    let sessionSigner : Ed25519Signer := ⟨sessionSeed⟩
    let sessionPubkey := sessionSigner.publicKey env.crypto
    -- `now.saturating_sub(10)`
    let createdAt := if now < 10 then 0 else now - 10
    let cert := OperatorSessionCertificate.issue env.crypto genesis.tbs.networkId ownerId hostEntity
      (sessionPubkey.deriveId env.crypto) sessionPubkey sessionCapabilities createdAt expiresAt rootSigner
    return { sessionId, ownerId, cert, expiresAt, sessionSigner,
             workspace := MemoryWorkspace.new.unlock genesis.tbs.networkId ownerId segmentMasterSeed,
             cancellationToken := CancellationToken.new }

def unlockOperator (s : OperatorState) (mnemonic : String) (now : UInt64) (nonce sessionId : Uuid) :
    Except String OperatorSessionStatus × OperatorState :=
  match openSession env mnemonic now nonce sessionId with
  | .error text => (.error text, s)
  | .ok session => (.ok (.ofSession session), s.install session)

/-! ## Runs -/

/-- One access to the session, with the clock reading it makes. -/
inductive SessionOp where
  | unlock (mnemonic : String) (now : UInt64) (nonce sessionId : Uuid)
  | lock
  | status (now : UInt64)
  | authorize (required : UInt32) (now : UInt64)
  | expire (sessionId : Uuid)

/-- The accesses to the session in any order. A session id is a fresh uuid, and a timer wakes once. -/
def sessionMachine : Machine OperatorState SessionOp where
  start := fun s => s = OperatorState.new
  enabled := fun s op =>
    match op with
    | .unlock _ _ _ sessionId => sessionId ∉ s.installed
    | .expire sessionId => sessionId ∈ s.timers
    | _ => True
  step := fun s op =>
    match op with
    | .unlock mnemonic now nonce sessionId => (unlockOperator env s mnemonic now nonce sessionId).2
    | .lock => s.lockOperator
    | .status now => (s.getOperatorStatus now).2
    | .authorize required now => (s.isOperatorAuthorizedFor required now).2
    | .expire sessionId => s.expire sessionId

end Unlock

/-! ## What an access does -/

namespace OperatorState

variable {s : OperatorState}

/-- The session leaves its place through `f`. -/
theorem take_cases (s : OperatorState) (f : ActiveOperatorSession → ActiveOperatorSession) :
    (s.operatorSession = none ∧ s.take f = s) ∨
    ∃ session, s.operatorSession = some session ∧
      s.take f = { s with operatorSession := none, dropped := s.dropped ++ [f session] } := by
  unfold take
  cases h : s.operatorSession with
  | none => exact .inl ⟨rfl, rfl⟩
  | some session => exact .inr ⟨session, rfl, rfl⟩

/-- A check leaves the session in place, or ends an expired one. -/
theorem isOperatorAuthorizedFor_cases (s : OperatorState) (required : UInt32) (now : UInt64) :
    (s.isOperatorAuthorizedFor required now).2 = s ∨
      (s.isOperatorAuthorizedFor required now).2 = s.take ActiveOperatorSession.retire := by
  unfold isOperatorAuthorizedFor
  cases s.operatorSession with
  | none => exact .inl rfl
  | some session =>
    simp only
    split
    · exact .inl rfl
    · split
      · exact .inr rfl
      · exact .inl rfl

/-- A check succeeds only for a session that is there, is not expired and has the capabilities. -/
theorem isOperatorAuthorizedFor_true {required : UInt32} {now : UInt64}
    (h : (s.isOperatorAuthorizedFor required now).1 = true) :
    ∃ session, s.operatorSession = some session ∧ session.expiresAt > now ∧
      session.cert.capabilities.has required = true ∧ (s.isOperatorAuthorizedFor required now).2 = s := by
  unfold isOperatorAuthorizedFor at h ⊢
  cases hs : s.operatorSession with
  | none => rw [hs] at h; cases h
  | some session =>
    rw [hs] at h
    simp only at h ⊢
    split at h
    · rename_i hc
      simp only [Bool.and_eq_true, decide_eq_true_eq] at hc
      exact ⟨session, rfl, hc.1, hc.2, by simp [hc]⟩
    · split at h <;> cases h

theorem getOperatorStatus_cases (s : OperatorState) (now : UInt64) :
    (s.getOperatorStatus now).2 = s ∨ (s.getOperatorStatus now).2 = s.take ActiveOperatorSession.retire := by
  unfold getOperatorStatus
  cases s.operatorSession with
  | none => exact .inl rfl
  | some session =>
    simp only
    split
    · exact .inr rfl
    · exact .inl rfl

/-- A timer takes out its own session or nothing. -/
theorem expire_cases (s : OperatorState) (sessionId : Uuid) :
    ((∀ session, s.operatorSession = some session → session.sessionId ≠ sessionId) ∧
      s.expire sessionId = { s with timers := s.timers.erase sessionId }) ∨
    ∃ session, s.operatorSession = some session ∧ session.sessionId = sessionId ∧
      s.expire sessionId = { s with operatorSession := none, dropped := s.dropped ++ [session.retire],
                                    timers := s.timers.erase sessionId } := by
  unfold expire take
  cases s.operatorSession with
  | none => exact .inl ⟨by simp, rfl⟩
  | some session =>
    by_cases hid : session.sessionId = sessionId
    · exact .inr ⟨session, rfl, hid, by simp [hid]⟩
    · refine .inl ⟨fun x hx => ?_, by simp [hid]⟩
      cases hx; exact hid

end OperatorState

section Runs

variable {env : OperatorEnv} {s : OperatorState} {mnemonic : String} {now : UInt64} {nonce sessionId : Uuid}

theorem ok_of_bind {ε α β : Type} {x : Except ε α} {f : α → Except ε β} {b : β} (h : x >>= f = .ok b) :
    ∃ a, x = .ok a ∧ f a = .ok b := by
  cases x with
  | error e => cases h
  | ok a => exact ⟨a, rfl, h⟩

/-- A session that is opened has the id it was given and can be used. -/
theorem openSession_ok {session : ActiveOperatorSession} (h : openSession env mnemonic now nonce sessionId = .ok session) :
    session.sessionId = sessionId ∧ session.Live := by
  unfold openSession at h
  cases hg : env.genesis with
  | none => rw [hg] at h; cases h
  | some genesis =>
    rw [hg] at h
    obtain ⟨_, -, h⟩ := ok_of_bind h
    obtain ⟨entropy, -, h⟩ := ok_of_bind h
    obtain ⟨rootSeed, -, h⟩ := ok_of_bind h
    obtain ⟨segmentMasterSeed, -, h⟩ := ok_of_bind h
    dsimp only at h
    split at h
    · cases h
    · obtain ⟨sessionSeed, -, h⟩ := ok_of_bind h
      cases h
      exact ⟨rfl, rfl, rfl⟩

/-- A refused unlock touches nothing. -/
theorem unlockOperator_cases (env : OperatorEnv) (s : OperatorState) (mnemonic : String) (now : UInt64)
    (nonce sessionId : Uuid) :
    (∃ text, unlockOperator env s mnemonic now nonce sessionId = (.error text, s)) ∨
    ∃ session, session.sessionId = sessionId ∧ session.Live ∧
      unlockOperator env s mnemonic now nonce sessionId = (.ok (.ofSession session), s.install session) := by
  unfold unlockOperator
  cases h : openSession env mnemonic now nonce sessionId with
  | error text => exact .inl ⟨text, rfl⟩
  | ok session =>
    obtain ⟨hid, hlive⟩ := openSession_ok h
    exact .inr ⟨session, hid, hlive, rfl⟩

/-- What holds whenever the lock is free. The ids are in the order in which their sessions were put in place, so
that all but the one in place have been dropped. -/
structure Settled (s : OperatorState) : Prop where
  ids : s.installed = s.dropped.map (·.sessionId) ++ (s.operatorSession.map (·.sessionId)).toList
  nodup : s.installed.Nodup
  live : ∀ session, s.operatorSession = some session → session.Live
  retired : ∀ session ∈ s.dropped, session.Retired

/-- Taking the session out keeps the order of ids if what is dropped is the retired session. -/
theorem Settled.take (h : Settled s) (f : ActiveOperatorSession → ActiveOperatorSession)
    (hid : ∀ session, (f session).sessionId = session.sessionId) (hf : ∀ session, (f session).Retired) :
    Settled (s.take f) ∧ (s.take f).operatorSession = none ∧ (s.take f).installed = s.installed := by
  rcases s.take_cases f with ⟨hnone, heq⟩ | ⟨session, hsome, heq⟩
  · rw [heq]
    exact ⟨h, hnone, rfl⟩
  · rw [heq]
    refine ⟨⟨?_, h.nodup, by simp, List.forall_mem_append.2 ⟨h.retired, ?_⟩⟩, rfl, rfl⟩
    · simp [h.ids, hsome, hid]
    · exact List.forall_mem_singleton.2 (hf session)

theorem Settled.retire (h : Settled s) : Settled (s.take ActiveOperatorSession.retire) :=
  (h.take ActiveOperatorSession.retire (fun _ => rfl) ActiveOperatorSession.retired_retire).1

theorem Settled.install (h : Settled s) {session : ActiveOperatorSession} (hlive : session.Live)
    (hfresh : session.sessionId ∉ s.installed) : Settled (s.install session) := by
  obtain ⟨ht, hnone, hids⟩ := h.take ActiveOperatorSession.retire (fun _ => rfl) ActiveOperatorSession.retired_retire
  have hfresh' : session.sessionId ∉ (s.take ActiveOperatorSession.retire).installed := hids ▸ hfresh
  refine ⟨?_, ?_, ?_, ht.retired⟩
  · simp [OperatorState.install, ht.ids, hnone]
  · exact List.nodup_append.2 ⟨ht.nodup, by simp, fun a ha b hb => by
      rintro rfl
      exact hfresh' (List.mem_singleton.1 hb ▸ ha)⟩
  · rintro x ⟨⟩
    exact hlive

theorem Settled.timers (h : Settled s) (timers : List Uuid) : Settled { s with timers } :=
  ⟨h.ids, h.nodup, h.live, h.retired⟩

theorem Settled.step (h : Settled s) (op : SessionOp) (hop : (sessionMachine env).enabled s op) :
    Settled ((sessionMachine env).step s op) := by
  cases op with
  | unlock mnemonic now nonce sessionId =>
    show Settled (unlockOperator env s mnemonic now nonce sessionId).2
    rcases unlockOperator_cases env s mnemonic now nonce sessionId with ⟨text, heq⟩ | ⟨session, hid, hlive, heq⟩
    · rw [heq]
      exact h
    · rw [heq]
      exact h.install hlive (hid ▸ hop)
  | lock => exact (h.take ActiveOperatorSession.lock (fun _ => rfl) ActiveOperatorSession.retired_lock).1
  | status now =>
    show Settled (s.getOperatorStatus now).2
    rcases s.getOperatorStatus_cases now with heq | heq <;> rw [heq]
    exacts [h, h.retire]
  | authorize required now =>
    show Settled (s.isOperatorAuthorizedFor required now).2
    rcases s.isOperatorAuthorizedFor_cases required now with heq | heq <;> rw [heq]
    exacts [h, h.retire]
  | expire sessionId =>
    show Settled (s.expire sessionId)
    unfold OperatorState.expire
    dsimp only
    split
    exacts [(h.timers _).retire, h.timers _]

theorem settled_of_reachable (h : (sessionMachine env).Reachable s) : Settled s := by
  refine h.invariant (fun s₀ h₀ => ?_) fun s op hop hs => hs.step op hop
  cases h₀
  exact ⟨rfl, List.nodup_nil, by simp [OperatorState.new], by simp [OperatorState.new]⟩

/-- The life of operator sessions, whatever the order of requests, checks and timers. The sessions that were ever in
place are those dropped, all of them cancelled and wiped, and the one in place, which can be used; a refused unlock
changes nothing; a timer leaves every session but its own; a check succeeds only on the session in place, before its
end and within its capabilities. -/
theorem operator_session_lifecycle (h : (sessionMachine env).Reachable s) :
    (s.installed = s.dropped.map (·.sessionId) ++ (s.operatorSession.map (·.sessionId)).toList ∧ s.installed.Nodup) ∧
    (∀ session, s.operatorSession = some session →
      session.workspace.isUnlocked = true ∧ session.cancellationToken.cancelled = false) ∧
    (∀ session ∈ s.dropped, session.cancellationToken.cancelled = true ∧ session.workspace = MemoryWorkspace.new) ∧
    (∀ mnemonic now nonce sessionId text, (unlockOperator env s mnemonic now nonce sessionId).1 = .error text →
      (unlockOperator env s mnemonic now nonce sessionId).2 = s) ∧
    (∀ sessionId session, s.operatorSession = some session → session.sessionId ≠ sessionId →
      (s.expire sessionId).operatorSession = some session ∧ (s.expire sessionId).dropped = s.dropped) ∧
    (∀ required now, (s.isOperatorAuthorizedFor required now).1 = true → ∃ session, s.operatorSession = some session ∧
      session.expiresAt > now ∧ session.cert.capabilities.bits &&& required = required) := by
  have hs := settled_of_reachable h
  refine ⟨⟨hs.ids, hs.nodup⟩, fun session hc => (hs.live session hc).symm, hs.retired, ?_, ?_, ?_⟩
  · intro mnemonic now nonce sessionId text herr
    rcases unlockOperator_cases env s mnemonic now nonce sessionId with ⟨_, heq⟩ | ⟨session, _, _, heq⟩
    · rw [heq]
    · rw [heq] at herr
      cases herr
  · intro sessionId session hc hne
    rcases s.expire_cases sessionId with ⟨-, heq⟩ | ⟨session', hc', hid, -⟩
    · rw [heq]
      exact ⟨hc, rfl⟩
    · rw [hc] at hc'
      cases hc'
      exact absurd hid hne
  · intro required now hok
    obtain ⟨session, hc, hexp, hcap, -⟩ := OperatorState.isOperatorAuthorizedFor_true hok
    exact ⟨session, hc, hexp, by simpa [OperatorCapabilities.has] using hcap⟩

end Runs

/-! ## A sample: two sessions and the timer of the first -/

namespace SessionSample

/-- A host whose Genesis is signed by alice, and a word list of one word from which alice's key is derived. -/
def host : OperatorEnv where
  crypto := tagCrypto
  mnemonic := ⟨fun _ => Vector.replicate 32 0, fun _ _ _ => .ok alice.seed, ["a"]⟩
  genesis := some (.create tagCrypto ⟨⟨Vector.replicate 32 7⟩, deriveOwnerId tagCrypto (alice.publicKey tagCrypto),
    alice.publicKey tagCrypto, 0⟩ alice)
  peerBytes := []

def phrase : String := " ".intercalate (List.replicate 24 "a")

def first : Uuid := Vector.replicate 16 1

def second : Uuid := Vector.replicate 16 2

def unlocked : OperatorState := (sessionMachine host).step .new (.unlock phrase 100 first first)

def replaced : OperatorState := (sessionMachine host).step unlocked (.unlock phrase 200 second second)

def late : OperatorState := (sessionMachine host).step replaced (.expire first)

theorem late_reachable : (sessionMachine host).Reachable late := by
  have h₀ : (sessionMachine host).Reachable OperatorState.new := .of_start rfl
  have h₁ : (sessionMachine host).Reachable unlocked :=
    h₀.step (a := .unlock phrase 100 first first) (by simp [sessionMachine, OperatorState.new])
  have h₂ : (sessionMachine host).Reachable replaced :=
    h₁.step (a := .unlock phrase 200 second second) (by show second ∉ unlocked.installed; decide +kernel)
  exact h₂.step (a := .expire first) (by show first ∈ replaced.timers; decide +kernel)

end SessionSample

open SessionSample in
/-- The timer of the first session wakes after the second has replaced it: the second is in place and can be used,
the first is cancelled and wiped. -/
theorem operator_session_lifecycle_late :
    late.installed = [first, second] ∧ late.operatorSession.map (·.sessionId) = some second ∧
    (∀ session, late.operatorSession = some session →
      session.workspace.isUnlocked = true ∧ session.cancellationToken.cancelled = false) ∧
    (∀ session ∈ late.dropped, session.cancellationToken.cancelled = true ∧ session.workspace = MemoryWorkspace.new) := by
  obtain ⟨-, hlive, hretired, -⟩ := operator_session_lifecycle late_reachable
  exact ⟨by decide +kernel, by decide +kernel, hlive, hretired⟩

end Fortiq
