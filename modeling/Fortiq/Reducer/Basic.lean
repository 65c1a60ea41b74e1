/-
The reducer from the causal graph to ticket state (`fortiq-core/src/reducer/ticket.rs`). `applyEvent`
returns its result beside the store it leaves; `reduce` folds the deterministic order and drops the
results. Revisions are `u64` and wrap, as in a release build.
-/
import Fortiq.Event.Graph
import Mathlib.Data.String.Basic

namespace Fortiq

open KeyOrder

/-! ## Aggregates -/

/-- The reduced state of one ticket. -/
structure TicketAggregate where
  record : TicketRecord
  messages : List ChatMessage
  attachments : List AttachmentRecord
  shellSessions : List ShellSessionRecord
  events : List TicketEventRecord
deriving DecidableEq, Repr

namespace TicketAggregate

def toDetail (agg : TicketAggregate) : TicketDetail :=
  ⟨agg.record, agg.messages, agg.attachments, agg.shellSessions, agg.events⟩

/-- The bookkeeping of an effective change. -/
def touch (agg : TicketAggregate) (timestamp : UInt64) : TicketAggregate :=
  { agg with record := { agg.record with updatedAt := timestamp, revision := agg.record.revision + 1 } }

end TicketAggregate

/-- Apply `f` to the first element that satisfies `p`. -/
def updateFirst {α : Type} (p : α → Bool) (f : α → α) : List α → List α
  | [] => []
  | a :: l => if p a then f a :: l else a :: updateFirst p f l

/-! ## The store -/

structure TicketStateStore where
  tickets : Std.ExtTreeMap String TicketAggregate
deriving DecidableEq

namespace TicketStateStore

def new : TicketStateStore := ⟨∅⟩

def get (s : TicketStateStore) (ticketId : String) : Option TicketAggregate := s.tickets.get? ticketId

def set (s : TicketStateStore) (ticketId : String) (agg : TicketAggregate) : TicketStateStore :=
  ⟨s.tickets.insert ticketId agg⟩

def getTicket (s : TicketStateStore) (ticketId : String) : Option TicketRecord :=
  (s.get ticketId).map TicketAggregate.record

/-- Records with the wanted state, latest update first, then by id. -/
def listTickets (s : TicketStateStore) (stateFilter : Option TicketState) : List TicketRecord :=
  let list := (s.tickets.values.map TicketAggregate.record).filter fun r => stateFilter.all fun f => r.state = f
  keySort (fun r => toLex (OrderDual.toDual r.updatedAt.toNat, r.id)) list

def getTicketDetail (s : TicketStateStore) (ticketId : String) : Option TicketDetail :=
  (s.get ticketId).map TicketAggregate.toDetail

def listMessages (s : TicketStateStore) (ticketId : String) : List ChatMessage :=
  ((s.get ticketId).map TicketAggregate.messages).getD []

def listAttachments (s : TicketStateStore) (ticketId : String) : List AttachmentRecord :=
  ((s.get ticketId).map TicketAggregate.attachments).getD []

def listShellSessions (s : TicketStateStore) (ticketId : String) : List ShellSessionRecord :=
  ((s.get ticketId).map TicketAggregate.shellSessions).getD []

def getActiveTicket (s : TicketStateStore) : Option TicketRecord :=
  (s.listTickets none).find? fun t => t.state.permitsWork

/-- `get_mut`, or the not-found error; an update that fails leaves the store as it is. -/
def updateTicket (s : TicketStateStore) (ticketId : String) (f : TicketAggregate → Result TicketAggregate) :
    Result Unit × TicketStateStore :=
  match s.get ticketId with
  | none => (.error (.msg ("ticket not found: " ++ ticketId)), s)
  | some agg =>
    match f agg with
    | .error e => (.error e, s)
    | .ok agg' => (.ok (), s.set ticketId agg')

end TicketStateStore

/-! ## Applying one event -/

namespace TicketReducer

/-- The aggregate a creation makes. -/
def create (event : Event) (actorPeerId ticketId title description : String) (priority : TicketPriority)
    (clientPeerId : String) : TicketAggregate where
  record :=
    { id := ticketId, title := title, description := description, state := .«open», priority := priority,
      clientPeerId := clientPeerId, revision := 1, createdAt := event.timestamp, updatedAt := event.timestamp,
      closedAt := none }
  messages := []
  attachments := []
  shellSessions := []
  events :=
    [{ id := event.id.toHex, ticketId := ticketId, kind := "CREATED", actorPeerId := actorPeerId,
       timestamp := event.timestamp, metadata := none }]

def changeStatus (event : Event) (actorPeerId ticketId : String) (newState : TicketState) (reason : Option String)
    (agg : TicketAggregate) : Result TicketAggregate :=
  if !agg.record.state.canTransitionTo newState then
    .error (.msg ("invalid transition for ticket " ++ ticketId ++ " from " ++ agg.record.state.debug ++ " to " ++
      newState.debug))
  else
    .ok { agg with
      record :=
        { agg.record with
          state := newState, revision := agg.record.revision + 1, updatedAt := event.timestamp,
          closedAt := if newState = .closed then some event.timestamp else agg.record.closedAt }
      events := agg.events ++
        [{ id := event.id.toHex, ticketId := ticketId, kind := "STATUS_CHANGED_TO_" ++ newState.asStr,
           actorPeerId := actorPeerId, timestamp := event.timestamp, metadata := reason }] }

def addMessage (event : Event) (ticketId messageId senderPeerId body : String) (timestamp : UInt64)
    (agg : TicketAggregate) : Result TicketAggregate :=
  if agg.messages.any fun m => m.id = messageId then .ok agg
  else
    let message : ChatMessage :=
      { id := messageId, ticketId := ticketId, senderPeerId := senderPeerId, body := body, createdAt := timestamp,
        deliveryState := "DELIVERED" }
    .ok ({ agg with messages := agg.messages ++ [message] }.touch event.timestamp)

def addAttachment (event : Event) (ticketId attachmentId senderPeerId filename : String) (sizeBytes : UInt64)
    (sha256 localPath : String) (timestamp : UInt64) (agg : TicketAggregate) : Result TicketAggregate :=
  if agg.attachments.any fun a => a.id = attachmentId then .ok agg
  else
    let attachment : AttachmentRecord :=
      { id := attachmentId, ticketId := ticketId, senderPeerId := senderPeerId, filename := filename,
        sizeBytes := sizeBytes, sha256 := sha256, localPath := localPath, createdAt := timestamp,
        state := "AVAILABLE" }
    .ok ({ agg with attachments := agg.attachments ++ [attachment] }.touch event.timestamp)

def startSession (event : Event) (ticketId sessionId operatorPeerId transport : String) (startedAt : UInt64)
    (agg : TicketAggregate) : Result TicketAggregate :=
  if agg.shellSessions.any fun s => s.id = sessionId then .ok agg
  else
    let session : ShellSessionRecord :=
      { id := sessionId, ticketId := ticketId, operatorPeerId := operatorPeerId, startedAt := startedAt,
        endedAt := none, transport := transport, result := none }
    .ok ({ agg with shellSessions := agg.shellSessions ++ [session] }.touch event.timestamp)

/-- The first session with the id is ended, each time anew. -/
def endSession (event : Event) (sessionId : String) (endedAt : UInt64) (result : Option String)
    (agg : TicketAggregate) : Result TicketAggregate :=
  if agg.shellSessions.any fun s => s.id = sessionId then
    let sessions := updateFirst (fun s => s.id = sessionId)
      (fun s => { s with endedAt := some endedAt, result := result }) agg.shellSessions
    .ok ({ agg with shellSessions := sessions }.touch event.timestamp)
  else .ok agg

def addAudit (event : Event) (ticketId eventId kind actorPeerId : String) (metadata : Option String)
    (timestamp : UInt64) (agg : TicketAggregate) : Result TicketAggregate :=
  if agg.events.any fun e => e.id = eventId then .ok agg
  else
    let audit : TicketEventRecord :=
      { id := eventId, ticketId := ticketId, kind := kind, actorPeerId := actorPeerId, timestamp := timestamp,
        metadata := metadata }
    .ok ({ agg with events := agg.events ++ [audit] }.touch event.timestamp)

variable (env : Env)

/-- Apply an event to a store. -/
def applyEvent (store : TicketStateStore) (event : Event) : Result Unit × TicketStateStore :=
  match event.payload with
  | .custom _ _ => (.ok (), store)
  | .ticket ticketEvent =>
    let actor := (event.author.deriveId env.crypto).toHex
    match ticketEvent with
    | .created ticketId title description priority clientPeerId =>
      if (store.get ticketId).isSome then (.error (.msg ("ticket already exists: " ++ ticketId)), store)
      else (.ok (), store.set ticketId (create event actor ticketId title description priority clientPeerId))
    | .statusChanged ticketId newState _ reason =>
      store.updateTicket ticketId (changeStatus event actor ticketId newState reason)
    | .chatMessageAdded ticketId messageId senderPeerId body timestamp =>
      store.updateTicket ticketId (addMessage event ticketId messageId senderPeerId body timestamp)
    | .attachmentAdded ticketId attachmentId senderPeerId filename sizeBytes sha256 localPath timestamp =>
      store.updateTicket ticketId
        (addAttachment event ticketId attachmentId senderPeerId filename sizeBytes sha256 localPath timestamp)
    | .shellSessionStarted ticketId sessionId operatorPeerId transport startedAt =>
      store.updateTicket ticketId (startSession event ticketId sessionId operatorPeerId transport startedAt)
    | .shellSessionEnded ticketId sessionId endedAt result =>
      store.updateTicket ticketId (endSession event sessionId endedAt result)
    | .customAudit ticketId eventId kind actorPeerId metadata timestamp =>
      store.updateTicket ticketId (addAudit event ticketId eventId kind actorPeerId metadata timestamp)

/-- The store after an event, its result dropped. -/
def step (store : TicketStateStore) (event : Event) : TicketStateStore := (applyEvent env store event).2

/-- Fold the whole graph in its deterministic order. -/
def reduce (graph : EventGraph) : TicketStateStore := graph.topologicalSort.foldl (step env) TicketStateStore.new

end TicketReducer

end Fortiq
