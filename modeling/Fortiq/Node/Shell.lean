/-
Incoming shells (`handle_incoming_shell_next` in `fortiq-p2p/src/node.rs`). The event loop handles one stream at a
time: it draws a challenge, reads the handshake, checks it, looks the ticket up, takes the only place for a shell
and answers; a task of its own then records the session, serves it, watches its ticket and gives the place back.
A run interleaves these with every other section of the engine and with signatures made anywhere; whoever sends the
handshakes can replay all signatures but forge none.
-/
import Fortiq.Lib.Machine
import Fortiq.Node.Lifecycle
import Fortiq.Node.Statement

namespace Fortiq

open TicketEngine

/-! ## The handler -/

structure ShellEnv extends NodeEnv where
  /-- `serde_json::from_slice` at handshakes. -/
  handshakeFromJson : List UInt8 → Option ShellNextHandshake

/-- A text that is decoded is no longer than the JSON it was written in. -/
def ShellEnv.Compact (env : ShellEnv) : Prop := ∀ json h, env.handshakeFromJson json = some h →
  (utf8 h.ticketId).length ≤ json.length ∧ (utf8 h.operatorTransportPeerId).length ≤ json.length

/-- A node as it was started, with the Genesis of its file if there was one. -/
structure ManagedNode where
  localPeerId : String
  genesis : Option Genesis

/-- A handshake that has passed the checks: who sent it, the challenge it answers, when it was checked, and the ticket
as it was looked up. -/
structure Admission where
  peer : PeerId
  challenge : Challenge
  handshake : ShellNextHandshake
  now : UInt64
  ticket : TicketRecord
deriving DecidableEq, Repr

section Handler

variable (env : ShellEnv) (node : ManagedNode)

def ManagedNode.authority : Option AuthorityContext :=
  AuthorityContext.ofGenesisFile env.crypto node.genesis

/-- The session key of the certificate has signed the handshake with the challenge. -/
def sessionVerifies (challenge : Challenge) (handshake : ShellNextHandshake) : Bool :=
  ((verifierOf env.crypto handshake.sessionCertificate.sessionPubkey).bind fun verifier =>
    verifyBytes env.crypto verifier
      (ShellNextHandshake.signingPayload handshake.networkId handshake.ticketId handshake.operatorTransportPeerId challenge)
      handshake.challengeSignature).isOk

def authorityValid (peer : PeerId) (challenge : Challenge) (handshake : ShellNextHandshake) (now : UInt64) : Bool :=
  (node.authority env).any (fun authority =>
    handshake.networkId = authority.networkId && handshake.operatorTransportPeerId = env.peerToString peer &&
      authority.verifyCertificate env.crypto peer handshake.sessionCertificate OperatorCapabilities.shellExec now) &&
  sessionVerifies env challenge handshake

/-- The checks of a handshake on the ticket it names, or the code of the denial. -/
def checkHandshake (peer : PeerId) (challenge : Challenge) (handshake : ShellNextHandshake) (now : UInt64)
    (ticket : Option TicketRecord) : Except AuthorizationCode Admission :=
  match ticket with
  | none => .error .deniedNoTicket
  | some ticket =>
    if !authorityValid env node peer challenge handshake now then .error .deniedInvalidAuthority
    else if ticket.clientPeerId ≠ node.localPeerId ∨ ticket.state.permitsWork = false then .error .deniedTicketClosed
    else .ok { peer, challenge, handshake, now, ticket }

/-- What arrives on a stream within five seconds, on an engine. -/
def receive (engine : TicketEngine) (peer : PeerId) (challenge : Challenge) (input : Option (List UInt8)) (now : UInt64) :
    Except AuthorizationCode Admission :=
  match input.bind (ShellNextHandshake.readFromAsync env.handshakeFromJson) with
  | none => .error .deniedInvalidAuthority
  | some handshake => checkHandshake env node peer challenge handshake now (engine.state.getTicket handshake.ticketId)

end Handler

/-! ## Runs -/

/-- Where the handling of a stream is. -/
inductive Handling where
  | challenged (peer : PeerId) (challenge : Challenge)
  | checked (a : Admission)
  | acquired (a : Admission)
deriving DecidableEq, Repr

/-- Where the task of a session is. A session that has ended is past its `select!`, and was a success or not; what
`serve` has started and is still running then is not a part of the task (`Node/Watcher`). -/
inductive ShellPhase where
  | spawned
  | serving
  | ended (ok : Bool)
  | recorded
deriving DecidableEq, Repr

structure ShellTask where
  sessionId : String
  ticketId : String
  operatorTransport : String
  expiresAt : UInt64
  phase : ShellPhase
deriving DecidableEq, Repr

structure ShellState where
  engine : TicketEngine
  activeShells : Bool
  handling : Option Handling
  tasks : List ShellTask
  /-- All signatures made so far, by anyone. -/
  signed : SigningLog

inductive ShellLabel where
  /-- A key signs. -/
  | sign (key : PublicKey) (m : Statement)
  /-- Another task of the node runs a section of the engine. -/
  | work (a : Action)
  /-- The next stream, with the challenge drawn for it. -/
  | accept (peer : PeerId) (challenge : Challenge)
  /-- The challenge cannot be written. -/
  | streamFails
  | handshake (input : Option (List UInt8)) (now : UInt64)
  /-- `compare_exchange`. -/
  | acquire
  /-- The answer is written, or cannot be; the uuid is for the session. -/
  | authorize (written : Bool) (sessionId : String)
  | recordStart (i : Nat) (disk : Disk) (now : UInt64)
  /-- The watcher looks at the ticket and the clock. -/
  | poll (i : Nat) (now : UInt64)
  /-- `serve` returns. -/
  | serveEnds (i : Nat) (ok : Bool)
  | recordEnd (i : Nat) (disk : Disk) (now : UInt64) (order : List TicketAggregate → List TicketAggregate)
  /-- The guard of a task is dropped. -/
  | dropGuard (i : Nat)

namespace ShellState

/-- The task is there, in a phase. -/
def TaskIn (s : ShellState) (i : Nat) (phase : ShellPhase) : Prop := ∃ task, s.tasks[i]? = some task ∧ task.phase = phase

def setPhase (s : ShellState) (i : Nat) (phase : ShellPhase) : ShellState :=
  { s with tasks := s.tasks.modify i fun task => { task with phase } }

variable (env : ShellEnv) (node : ManagedNode)

/-- The ticket of a session still permits work, and its certificate has not expired. -/
def watchedValid (s : ShellState) (task : ShellTask) (now : UInt64) : Bool :=
  (s.engine.state.getTicket task.ticketId).any (fun ticket => ticket.state.permitsWork) && now < task.expiresAt

/-- The session and the ticket are passed in this order. -/
def recordStart (s : ShellState) (i : Nat) (disk : Disk) (now : UInt64) : ShellState :=
  match s.tasks[i]? with
  | none => s
  | some task =>
    let call := Call.recordShellSessionStart disk now task.sessionId task.ticketId task.operatorTransport "QUIC/shell-next"
    { s with engine := (call.run (exec env.toEnv) s.engine).2 }.setPhase i .serving

def recordEnd (s : ShellState) (i : Nat) (disk : Disk) (now : UInt64)
    (order : List TicketAggregate → List TicketAggregate) : ShellState :=
  match s.tasks[i]? with
  | none => s
  | some task =>
    let result := if task.phase = .ended true then "SUCCESS" else "REVOKED_OR_ERROR"
    let call := Call.recordShellSessionEnd disk now order task.sessionId (some result)
    { s with engine := (call.run (exec env.toEnv) s.engine).2 }.setPhase i .recorded

def step (s : ShellState) : ShellLabel → ShellState
  | .sign key m => { s with signed := s.signed ++ [(key, m)] }
  | .work a => { s with engine := (exec env.toEnv a s.engine).2 }
  | .accept peer challenge => { s with handling := some (.challenged peer challenge) }
  | .streamFails => { s with handling := none }
  | .handshake input now =>
    match s.handling with
    | some (.challenged peer challenge) =>
      match receive env node s.engine peer challenge input now with
      | .error _ => { s with handling := none }
      | .ok a => { s with handling := some (.checked a) }
    | _ => s
  | .acquire =>
    match s.handling with
    | some (.checked a) =>
      if s.activeShells then { s with handling := none }
      else { s with activeShells := true, handling := some (.acquired a) }
    | _ => s
  | .authorize written sessionId =>
    match s.handling with
    | some (.acquired a) =>
      if written then
        let task : ShellTask :=
          { sessionId, ticketId := a.ticket.id, operatorTransport := env.peerToString a.peer,
            expiresAt := a.handshake.sessionCertificate.expiresAt, phase := .spawned }
        { s with handling := none, tasks := s.tasks ++ [task] }
      else { s with handling := none, activeShells := false }
    | _ => s
  | .recordStart i disk now => s.recordStart env i disk now
  | .poll i now =>
    match s.tasks[i]? with
    | none => s
    | some task => if s.watchedValid task now then s else s.setPhase i (.ended false)
  | .serveEnds i ok => s.setPhase i (.ended ok)
  | .recordEnd i disk now order => s.recordEnd env i disk now order
  | .dropGuard i => { s with tasks := s.tasks.eraseIdx i, activeShells := false }

/-- The code a step writes to the stream. -/
def sends (s : ShellState) : ShellLabel → Option (PeerId × AuthorizationCode)
  | .handshake input now =>
    match s.handling with
    | some (.challenged peer challenge) =>
      match receive env node s.engine peer challenge input now with
      | .error code => some (peer, code)
      | .ok _ => none
    | _ => none
  | .acquire =>
    match s.handling with
    | some (.checked a) => if s.activeShells then some (a.peer, .deniedBusy) else none
    | _ => none
  | .authorize _ _ =>
    match s.handling with
    | some (.acquired a) => some (a.peer, .authorized)
    | _ => none
  | _ => none

/-- A signature in the handshake verifies only for bytes its key has signed. -/
def Unforged (s : ShellState) (challenge : Challenge) (h : ShellNextHandshake) : Prop :=
  (∀ authority, node.authority env = some authority →
    (verifyDomain env.crypto authority.ownerVerifier operatorCertDomain h.sessionCertificate.tbs
      h.sessionCertificate.signature).isOk = true →
    s.signed.Backs authority.ownerVerifier (Statement.message operatorCertDomain h.sessionCertificate.tbs)) ∧
  (sessionVerifies env challenge h = true →
    s.signed.Backs h.sessionCertificate.sessionPubkey
      (Statement.shell h.networkId h.ticketId h.operatorTransportPeerId challenge).bytes)

def Enabled (s : ShellState) : ShellLabel → Prop
  | .sign _ _ => True
  | .work _ => True
  | .accept _ _ => s.handling = none
  | .streamFails => ∃ peer challenge, s.handling = some (.challenged peer challenge)
  | .handshake input _ => ∃ peer challenge, s.handling = some (.challenged peer challenge) ∧
      ∀ h, input.bind (ShellNextHandshake.readFromAsync env.handshakeFromJson) = some h → s.Unforged env node challenge h
  | .acquire => ∃ a, s.handling = some (.checked a)
  | .authorize _ _ => ∃ a, s.handling = some (.acquired a)
  | .recordStart i _ _ => s.TaskIn i .spawned
  | .poll i _ => s.TaskIn i .serving
  | .serveEnds i _ => s.TaskIn i .serving
  | .recordEnd i _ _ _ => ∃ ok, s.TaskIn i (.ended ok)
  | .dropGuard i => s.TaskIn i .recorded

end ShellState

/-- The node from its start, on any engine and with any signatures in the world. -/
def shellMachine (env : ShellEnv) (node : ManagedNode) : Machine ShellState ShellLabel where
  start := fun s => s.activeShells = false ∧ s.handling = none ∧ s.tasks = []
  enabled := fun s l => s.Enabled env node l
  step := fun s l => s.step env node l

end Fortiq
