/-
The ticket engine (`fortiq-core/src/engine.rs`) over its object store (`store/fs.rs`). Each section
the engine runs under one lock is an `Action`; `exec` says what it does, and a call of the engine is
a program over the actions, so that the same definition serves one call after the other and any
interleaving at lock granularity. Clock readings, fresh uuids and the outcome of file writes are
arguments of the calls.
-/
import Fortiq.Authority.Policy
import Fortiq.Reducer.Basic
import Fortiq.Lib.Prog

namespace Fortiq

/-! ## The object store -/

/-- The stored objects, at most one for each id: the files `<id>.cbor`. -/
structure FsObjectStore where
  objects : List SignedObject
  nodup : (objects.map SignedObject.id).Nodup

/-- Which writes of a call fail, and with what text. -/
abbrev Disk := SignedObject → Option String

namespace FsObjectStore

def empty : FsObjectStore := ⟨[], List.nodup_nil⟩

def has (store : FsObjectStore) (id : ObjectId) : Bool := id ∈ store.objects.map SignedObject.id

theorem nodup_append {store : FsObjectStore} {obj : SignedObject} (h : store.has obj.id = false) :
    ((store.objects ++ [obj]).map SignedObject.id).Nodup := by
  rw [List.map_append, List.nodup_append]
  refine ⟨store.nodup, List.nodup_singleton _, ?_⟩
  intro a ha b hb
  rw [List.map_singleton, List.mem_singleton] at hb
  subst hb; rintro rfl
  simp only [has, decide_eq_false_iff_not] at h
  exact h ha

/-- Persist a valid object; one whose file exists is left as it is. A failure of the disk is reported here; bytes that the
`BufWriter` loses with an error of its last flush are in `Store/Durable`. -/
def put (crypto : Crypto) (disk : Disk) (store : FsObjectStore) (obj : SignedObject) : Result ObjectId × FsObjectStore :=
  match Result.context "cannot store invalid SignedObject" (obj.verify crypto) with
  | .error e => (.error e, store)
  | .ok () =>
    if h : store.has obj.id = true then (.ok obj.id, store)
    else
      match disk obj with
      | some text => (.error (.disk text), store)
      | none => (.ok obj.id, ⟨store.objects ++ [obj], nodup_append (by simpa using h)⟩)

/-- The object in the file of an id. A read may fail, and what is read is verified again; that its id is the one
in the file name is how objects are stored here. -/
def get (crypto : Crypto) (read : ObjectId → Option String) (store : FsObjectStore) (id : ObjectId) :
    Result (Option SignedObject) :=
  match store.objects.find? fun o => o.id = id with
  | none => .ok none
  | some obj =>
    match read id with
    | some text => .error (.disk text)
    | none =>
      match Result.context "corrupted object signature in store" (obj.verify crypto) with
      | .error e => .error e
      | .ok () => .ok (some obj)

/-- The stored objects in the order a directory walk lists them; a corrupt one fails the load. -/
def loadAllObjects (crypto : Crypto) : List SignedObject → Result (List SignedObject)
  | [] => .ok []
  | obj :: files =>
    match Result.context "corrupted object in store" (obj.verify crypto) with
    | .error e => .error e
    | .ok () =>
      match loadAllObjects crypto files with
      | .error e => .error e
      | .ok objs => .ok (obj :: objs)

end FsObjectStore

/-! ## The engine and its atomic sections -/

structure TicketEngine where
  store : FsObjectStore
  graph : EventGraph
  state : TicketStateStore
  signer : Ed25519Signer
  policy : AuthorityPolicy

/-- The sections of the engine that run under a lock, or touch one file. -/
inductive Action where
  /-- `state.read()`. -/
  | readState
  /-- `graph.read()`. -/
  | readGraph
  /-- `store.get`. -/
  | getObject (id : ObjectId) (read : ObjectId → Option String)
  /-- `append_ticket_event`: the graph lock is held to the end. -/
  | append (event : TicketEvent) (timestamp : UInt64) (disk : Disk)
  /-- `store.put`. -/
  | put (obj : SignedObject) (disk : Disk)
  /-- `graph.write()` around one insertion. -/
  | insertGraph (event : Event)
  /-- `graph.write()` around the loop of `apply_remote_objects`. -/
  | ingest (objects : List SignedObject) (disk : Disk)
  /-- `graph.read()` around the reduction and the replacement of the state. -/
  | replaceState

/-- What each section returns. -/
def Action.Ret : Action → Type
  | readState => TicketStateStore
  | readGraph => EventGraph
  | getObject _ _ => Result (Option SignedObject)
  | append _ _ _ => Result (Event × SignedObject)
  | put _ _ => Result ObjectId
  | insertGraph _ => Result Unit
  | ingest _ _ => Nat
  | replaceState => Unit

namespace TicketEngine

variable (env : Env)

/-- Append an event on top of the current heads: write the object, insert the event, apply it. -/
def appendTicketEvent (ticketEvent : TicketEvent) (timestamp : UInt64) (disk : Disk) (s : TicketEngine) :
    Result (Event × SignedObject) × TicketEngine :=
  let parents := s.graph.heads.toVec
  let lamport := s.graph.nextLamport parents
  match Event.new env parents timestamp lamport (.ticket ticketEvent) s.signer with
  | .error e => (.error e, s)
  | .ok (event, signedObj) =>
    match s.store.put env.crypto disk signedObj with
    | (.error e, store) => (.error e, { s with store })
    | (.ok _, store) =>
      match s.graph.insert event with
      | (.error e, graph) => (.error e, { s with store, graph })
      | (.ok (), graph) =>
        match TicketReducer.applyEvent env s.state event with
        | (.error e, state) => (.error e, { s with store, graph, state })
        | (.ok (), state) => (.ok (event, signedObj), { s with store, graph, state })

/-- One object of a batch: verified, decoded, written and inserted, or passed over. -/
def ingestObject (disk : Disk) (acc : Nat × TicketEngine) (obj : SignedObject) : Nat × TicketEngine :=
  match obj.verify env.crypto with
  | .error _ => acc
  | .ok () =>
    match Event.fromSignedObject env obj with
    | .error _ => acc
    | .ok event =>
      match acc.2.store.put env.crypto disk obj with
      | (.error _, store) => (acc.1, { acc.2 with store })
      | (.ok _, store) =>
        match acc.2.graph.insert event with
        | (.error _, graph) => (acc.1, { acc.2 with store, graph })
        | (.ok (), graph) => (acc.1 + 1, { acc.2 with store, graph })

/-- What a section does: its result and the engine it leaves. -/
def exec : (a : Action) → TicketEngine → a.Ret × TicketEngine
  | .readState, s => (s.state, s)
  | .readGraph, s => (s.graph, s)
  | .getObject id read, s => (s.store.get env.crypto read id, s)
  | .append ticketEvent timestamp disk, s => appendTicketEvent env ticketEvent timestamp disk s
  | .put obj disk, s => ((s.store.put env.crypto disk obj).1, { s with store := (s.store.put env.crypto disk obj).2 })
  | .insertGraph event, s => ((s.graph.insert event).1, { s with graph := (s.graph.insert event).2 })
  | .ingest objects disk, s => objects.foldl (ingestObject env disk) ((0 : Nat), s)
  | .replaceState, s => ((), { s with state := TicketReducer.reduce env s.graph })

/-- One loaded object: its event is inserted, and an error of either step is ignored. -/
def loadObject (graph : EventGraph) (obj : SignedObject) : EventGraph :=
  match Event.fromSignedObject env obj with
  | .ok event => (graph.insert event).2
  | .error _ => graph

/-- An engine on a store whose files are listed as `files`. -/
def «open» (store : FsObjectStore) (files : List SignedObject) (signer : Ed25519Signer) (policy : AuthorityPolicy) :
    Result TicketEngine :=
  match FsObjectStore.loadAllObjects env.crypto files with
  | .error e => .error e
  | .ok objects =>
    let graph := objects.foldl (loadObject env) EventGraph.new
    .ok { store, graph, state := TicketReducer.reduce env graph, signer, policy }

end TicketEngine

/-! ## The calls -/

/-- A call of the engine. -/
abbrev Call := Prog Action Action.Ret Error

namespace Call

def readState : Call TicketStateStore := .act .readState .ret

def appendTicketEvent (event : TicketEvent) (timestamp : UInt64) (disk : Disk) : Call (Event × SignedObject) :=
  .act (.append event timestamp disk) fun r => .ofExcept r

def getTicket (ticketId : String) : Call (Option TicketRecord) := do
  let state ← readState
  return state.getTicket ticketId

def listTickets (stateFilter : Option TicketState) : Call (List TicketRecord) := do
  let state ← readState
  return state.listTickets stateFilter

def currentHeads {ε : Type} : Prog Action Action.Ret ε (List ObjectId) :=
  .act .readGraph fun (graph : EventGraph) => .ret graph.heads.toVec

def ticketHeads {ε : Type} (ticketId : String) : Prog Action Action.Ret ε (List ObjectId) :=
  .act .readGraph fun (graph : EventGraph) => .ret (graph.ticketHeads ticketId)

/-- The stored objects among the ids, up to the first that cannot be read. -/
def getObjects (read : ObjectId → Option String) : List ObjectId → Call (List SignedObject)
  | [] => return []
  | id :: ids => do
    let obj ← .act (.getObject id read) fun r => .ofExcept r
    let objects ← getObjects read ids
    return obj.toList ++ objects

/-- The stored objects of the events of one ticket. -/
def getTicketObjects (read : ObjectId → Option String) (ticketId : String) : Call (List SignedObject) :=
  .act .readGraph fun (graph : EventGraph) => getObjects read (graph.ticketEventIds ticketId)

def createTicket (disk : Disk) (uuid : String) (now : UInt64) (title description : String) (priority : TicketPriority)
    (clientPeerId : String) : Call TicketRecord := do
  let ticketId := "T-" ++ String.ofList (uuid.toList.take 8)
  let _ ← appendTicketEvent (.created ticketId title description priority clientPeerId) now disk
  let ticket ← getTicket ticketId
  .ofOption (.msg "failed to retrieve newly created ticket") ticket

def updateTicketState (policy : AuthorityPolicy) (disk : Disk) (now : UInt64) (ticketId : String)
    (newState : TicketState) (actorPeerId : String) : Call TicketRecord := do
  let ticket ← getTicket ticketId
  let current ← .ofOption (.msg "ticket not found") ticket
  if !policy.canTransitionTicket current.state newState actorPeerId then
    .fail (.msg ("unauthorized or invalid transition from " ++ current.state.debug ++ " to " ++ newState.debug))
  else do
    let _ ← appendTicketEvent (.statusChanged ticketId newState actorPeerId none) now disk
    let ticket ← getTicket ticketId
    .ofOption (.msg "failed to retrieve updated ticket") ticket

/-- The timestamp a caller gave, or the clock reading where it gave zero. -/
def timestampOr (createdAt now : UInt64) : UInt64 := if createdAt = 0 then now else createdAt

def addChatMessage (disk : Disk) (now : UInt64) (msg : ChatMessage) : Call Unit := do
  let now := timestampOr msg.createdAt now
  let _ ← appendTicketEvent (.chatMessageAdded msg.ticketId msg.id msg.senderPeerId msg.body now) now disk
  return ()

def addAttachment (disk : Disk) (now : UInt64) (att : AttachmentRecord) : Call Unit := do
  let now := timestampOr att.createdAt now
  let event := TicketEvent.attachmentAdded att.ticketId att.id att.senderPeerId att.filename att.sizeBytes att.sha256
    att.localPath now
  let _ ← appendTicketEvent event now disk
  return ()

def recordEvent (disk : Disk) (uuid : String) (now : UInt64) (ticketId kind actorPeerId : String)
    (metadata : Option String) : Call Unit := do
  let _ ← appendTicketEvent (.customAudit ticketId uuid kind actorPeerId metadata now) now disk
  return ()

def startShellSession (disk : Disk) (now : UInt64) (ticketId sessionId operatorPeerId transport : String) :
    Call ShellSessionRecord := do
  let _ ← appendTicketEvent (.shellSessionStarted ticketId sessionId operatorPeerId transport now) now disk
  return { id := sessionId, ticketId := ticketId, operatorPeerId := operatorPeerId, startedAt := now, endedAt := none,
           transport := transport, result := none }

def endShellSession (disk : Disk) (now : UInt64) (ticketId sessionId : String) (result : Option String) : Call Unit := do
  let _ ← appendTicketEvent (.shellSessionEnded ticketId sessionId now result) now disk
  return ()

def recordShellSessionStart (disk : Disk) (now : UInt64) (ticketId sessionId operatorPeerId transport : String) :
    Call Unit := do
  let _ ← startShellSession disk now ticketId sessionId operatorPeerId transport
  return ()

/-- The session is ended in the first ticket that has it, in the `order` in which the map lists them. -/
def recordShellSessionEnd (disk : Disk) (now : UInt64) (order : List TicketAggregate → List TicketAggregate)
    (sessionId : String) (result : Option String) : Call Unit := do
  let state ← readState
  let found := (order state.tickets.values).find? fun agg => agg.shellSessions.any fun s => s.id = sessionId
  match found with
  | some agg => endShellSession disk now agg.record.id sessionId result
  | none => return ()

/-- The lifecycle event an imported record stands for. -/
def importedStatus (ticket : TicketRecord) : TicketEvent :=
  .statusChanged ticket.id ticket.state ticket.clientPeerId none

def importCanonicalTicket (disk : Disk) (ticket : TicketRecord) : Call Unit := do
  let existing ← getTicket ticket.id
  match existing with
  | none => do
    let event := TicketEvent.created ticket.id ticket.title ticket.description ticket.priority ticket.clientPeerId
    let _ ← appendTicketEvent event ticket.createdAt disk
    if ticket.state ≠ .«open» then do
      let _ ← appendTicketEvent (importedStatus ticket) ticket.updatedAt disk
      return ()
    else return ()
  | some curr =>
    if ticket.revision > curr.revision ∧ ticket.state ≠ curr.state then do
      let _ ← appendTicketEvent (importedStatus ticket) ticket.updatedAt disk
      return ()
    else return ()

variable (env : Env)

def applyRemoteObject (disk : Disk) (obj : SignedObject) : Call Unit := do
  let _ ← .ofExcept (Result.context "failed to verify remote SignedObject" (obj.verify env.crypto))
  let event ← .ofExcept (Event.fromSignedObject env obj)
  let _ ← .act (.put obj disk) fun r => .ofExcept r
  let _ ← .act (.insertGraph event) fun r => .ofExcept r
  .act .replaceState .ret

def applyRemoteObjects (disk : Disk) (objects : List SignedObject) : Call Nat :=
  .act (.ingest objects disk) fun (count : Nat) =>
    if count > 0 then .act .replaceState fun _ => .ret count else .ret count

end Call

/-! ## Mutations -/

/-- What a call returns. -/
inductive Reply where
  | ticket (record : TicketRecord)
  | session (record : ShellSessionRecord)
  | done
  | count (n : Nat)
deriving DecidableEq, Repr

/-- The calls that change an engine, with their arguments. -/
inductive Mutation where
  | createTicket (uuid : String) (now : UInt64) (title description : String) (priority : TicketPriority)
      (clientPeerId : String)
  | updateTicketState (now : UInt64) (ticketId : String) (newState : TicketState) (actorPeerId : String)
  | addChatMessage (now : UInt64) (msg : ChatMessage)
  | addAttachment (now : UInt64) (att : AttachmentRecord)
  | recordEvent (uuid : String) (now : UInt64) (ticketId kind actorPeerId : String) (metadata : Option String)
  | startShellSession (now : UInt64) (ticketId sessionId operatorPeerId transport : String)
  | endShellSession (now : UInt64) (ticketId sessionId : String) (result : Option String)
  | importCanonicalTicket (ticket : TicketRecord)
  | applyRemoteObject (obj : SignedObject)
  | applyRemoteObjects (objects : List SignedObject)

namespace Mutation

/-- The program of a mutation, on an engine with a policy. -/
def call (env : Env) (policy : AuthorityPolicy) (disk : Disk) : Mutation → Call Reply
  | createTicket uuid now title description priority client => do
    return .ticket (← Call.createTicket disk uuid now title description priority client)
  | updateTicketState now ticketId newState actor => do
    return .ticket (← Call.updateTicketState policy disk now ticketId newState actor)
  | addChatMessage now msg => do
    Call.addChatMessage disk now msg
    return .done
  | addAttachment now att => do
    Call.addAttachment disk now att
    return .done
  | recordEvent uuid now ticketId kind actor metadata => do
    Call.recordEvent disk uuid now ticketId kind actor metadata
    return .done
  | startShellSession now ticketId sessionId operator transport => do
    return .session (← Call.startShellSession disk now ticketId sessionId operator transport)
  | endShellSession now ticketId sessionId result => do
    Call.endShellSession disk now ticketId sessionId result
    return .done
  | importCanonicalTicket ticket => do
    Call.importCanonicalTicket disk ticket
    return .done
  | applyRemoteObject obj => do
    Call.applyRemoteObject env disk obj
    return .done
  | applyRemoteObjects objects => do
    return .count (← Call.applyRemoteObjects disk objects)

/-- The mutation appends local events only. -/
def isLocal : Mutation → Bool
  | applyRemoteObject _ => false
  | applyRemoteObjects _ => false
  | _ => true

end Mutation

namespace TicketEngine

variable (env : Env)

/-- A mutation run alone. -/
def perform (disk : Disk) (m : Mutation) (s : TicketEngine) : Result Reply × TicketEngine :=
  (m.call env s.policy disk).run (exec env) s

/-- A fresh engine on an empty store. -/
def fresh (signer : Ed25519Signer) (policy : AuthorityPolicy) : TicketEngine where
  store := FsObjectStore.empty
  graph := EventGraph.new
  state := TicketStateStore.new
  signer := signer
  policy := policy

end TicketEngine

end Fortiq
