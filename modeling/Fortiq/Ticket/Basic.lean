/-
Ticket lifecycle, records and events (`fortiq-core/src/ticket`).
-/
import Mathlib.Tactic

namespace Fortiq

/-! ## Lifecycle -/

inductive TicketState where
  | «open»
  | inProgress
  | resolved
  | closed
deriving DecidableEq, Repr

namespace TicketState

def asStr : TicketState → String
  | «open» => "OPEN"
  | inProgress => "IN_PROGRESS"
  | resolved => "RESOLVED"
  | closed => "CLOSED"

/-- The derived `Debug` text, as error messages print it. -/
def debug : TicketState → String
  | «open» => "Open"
  | inProgress => "InProgress"
  | resolved => "Resolved"
  | closed => "Closed"

/-- The state as a byte. -/
def code : TicketState → UInt8
  | «open» => 0
  | inProgress => 1
  | resolved => 2
  | closed => 3

def permitsWork : TicketState → Bool
  | «open» => true
  | inProgress => true
  | resolved => false
  | closed => false

def canTransitionTo (s next : TicketState) : Bool :=
  s == next ||
    match s, next with
    | «open», inProgress => true
    | «open», resolved => true
    | «open», closed => true
    | inProgress, resolved => true
    | inProgress, closed => true
    | resolved, inProgress => true
    | resolved, closed => true
    | _, _ => false

/-- Every state can be closed. -/
@[simp] theorem canTransitionTo_closed (s : TicketState) : s.canTransitionTo closed = true := by cases s <;> rfl

/-- Only `closed` follows `closed`. -/
theorem eq_closed_of_canTransitionTo {s : TicketState} (h : closed.canTransitionTo s = true) : s = closed := by
  cases s <;> first | rfl | cases h

/-- A ticket that is open can move to every state. -/
@[simp] theorem open_canTransitionTo (s : TicketState) : canTransitionTo «open» s = true := by cases s <;> rfl

end TicketState

inductive TicketPriority where
  | normal
  | high
  | urgent
deriving DecidableEq, Repr

/-! ## Records -/

structure TicketRecord where
  id : String
  title : String
  description : String
  state : TicketState
  priority : TicketPriority
  clientPeerId : String
  revision : UInt64
  createdAt : UInt64
  updatedAt : UInt64
  closedAt : Option UInt64
deriving DecidableEq, Repr

structure ChatMessage where
  id : String
  ticketId : String
  senderPeerId : String
  body : String
  createdAt : UInt64
  deliveryState : String
deriving DecidableEq, Repr

structure AttachmentRecord where
  id : String
  ticketId : String
  senderPeerId : String
  filename : String
  sizeBytes : UInt64
  sha256 : String
  localPath : String
  createdAt : UInt64
  state : String
deriving DecidableEq, Repr

structure ShellSessionRecord where
  id : String
  ticketId : String
  operatorPeerId : String
  startedAt : UInt64
  endedAt : Option UInt64
  transport : String
  result : Option String
deriving DecidableEq, Repr

structure TicketEventRecord where
  id : String
  ticketId : String
  kind : String
  actorPeerId : String
  timestamp : UInt64
  metadata : Option String
deriving DecidableEq, Repr

/-- A ticket with everything recorded about it. -/
structure TicketDetail where
  ticket : TicketRecord
  messages : List ChatMessage
  attachments : List AttachmentRecord
  shellSessions : List ShellSessionRecord
  events : List TicketEventRecord
deriving DecidableEq, Repr

/-! ## Events -/

inductive TicketEvent where
  | created (ticketId title description : String) (priority : TicketPriority) (clientPeerId : String)
  | statusChanged (ticketId : String) (newState : TicketState) (actorPeerId : String) (reason : Option String)
  | chatMessageAdded (ticketId messageId senderPeerId body : String) (timestamp : UInt64)
  | attachmentAdded (ticketId attachmentId senderPeerId filename : String) (sizeBytes : UInt64)
      (sha256 localPath : String) (timestamp : UInt64)
  | shellSessionStarted (ticketId sessionId operatorPeerId transport : String) (startedAt : UInt64)
  | shellSessionEnded (ticketId sessionId : String) (endedAt : UInt64) (result : Option String)
  | customAudit (ticketId eventId kind actorPeerId : String) (metadata : Option String) (timestamp : UInt64)
deriving DecidableEq, Repr

namespace TicketEvent

def ticketId : TicketEvent → String
  | created t _ _ _ _ => t
  | statusChanged t _ _ _ => t
  | chatMessageAdded t _ _ _ _ => t
  | attachmentAdded t _ _ _ _ _ _ _ => t
  | shellSessionStarted t _ _ _ _ => t
  | shellSessionEnded t _ _ _ => t
  | customAudit t _ _ _ _ _ => t

end TicketEvent

end Fortiq
