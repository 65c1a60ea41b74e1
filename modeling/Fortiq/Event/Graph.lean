/-
The in-memory causal graph (`fortiq-core/src/event/graph.rs`, `heads.rs`). The hash map of events is
the list of its values, at most one for each id; arithmetic on `u64` clocks wraps, as in a release
build. `insert` returns its result beside the graph it leaves.
-/
import Fortiq.Event.Basic
import Fortiq.Lib.Kahn

namespace Fortiq

open KeyOrder

/-! ## Heads -/

/-- The tips of the graph: a `BTreeSet` of ids. -/
structure Heads where
  heads : OrdSet ObjectId
deriving DecidableEq

namespace Heads

def new : Heads := ⟨OrdSet.empty⟩

def fromSet (heads : OrdSet ObjectId) : Heads := ⟨heads⟩

def contains (h : Heads) (id : ObjectId) : Bool := id ∈ h.heads

def toVec (h : Heads) : List ObjectId := h.heads.toList

end Heads

/-! ## The graph -/

structure EventGraph where
  events : List Event
  nodup : (events.map Event.id).Nodup
  children : Std.ExtTreeMap ObjectId (List ObjectId)
  heads : Heads

namespace EventGraph

def new : EventGraph := ⟨[], List.nodup_nil, ∅, Heads.new⟩

def contains (g : EventGraph) (id : ObjectId) : Bool := id ∈ g.events.map Event.id

def get (g : EventGraph) (id : ObjectId) : Option Event := g.events.find? fun e => e.id = id

/-- The child list of an id, empty when there is none. -/
def childrenOf (g : EventGraph) (id : ObjectId) : List ObjectId := (g.children.get? id).getD []

/-- The first known parent whose clock is not below the event's. -/
def parentViolation (g : EventGraph) (event : Event) : Option Error :=
  event.parents.findSome? fun parent =>
    match g.get parent with
    | some parentEvent =>
      if event.lamport ≤ parentEvent.lamport then
        some (.msg ("causal invariant violated: event " ++ event.id.toHex ++ " lamport " ++ toString event.lamport ++
          " <= parent " ++ parent.toHex ++ " lamport " ++ toString parentEvent.lamport))
      else none
    | none => none

/-- The first child that arrived earlier whose clock is not above the event's. -/
def childViolation (g : EventGraph) (event : Event) : Option Error :=
  (g.childrenOf event.id).findSome? fun childId =>
    match g.get childId with
    | some childEvent =>
      if childEvent.lamport ≤ event.lamport then
        some (.msg ("causal invariant violated: child " ++ childId.toHex ++ " lamport " ++
          toString childEvent.lamport ++ " <= event " ++ event.id.toHex ++ " lamport " ++ toString event.lamport))
      else none
    | none => none

/-- The event registered as a child of each of its parents. -/
def registerChild (children : Std.ExtTreeMap ObjectId (List ObjectId)) (event : Event) :
    Std.ExtTreeMap ObjectId (List ObjectId) :=
  event.parents.foldl (fun m parent => m.insert parent ((m.get? parent).getD [] ++ [event.id])) children

theorem nodup_append {g : EventGraph} {event : Event} (h : g.contains event.id = false) :
    ((g.events ++ [event]).map Event.id).Nodup := by
  rw [List.map_append, List.nodup_append]
  refine ⟨g.nodup, List.nodup_singleton _, ?_⟩
  intro a ha b hb
  rw [List.map_singleton, List.mem_singleton] at hb
  subst hb; rintro rfl
  simp only [contains, decide_eq_false_iff_not] at h
  exact h ha

/-- Insertion: a no-op for a known id, refused when a clock is not above a known parent's or not
below a known child's. -/
def insert (g : EventGraph) (event : Event) : Result Unit × EventGraph :=
  if h : g.contains event.id = true then (.ok (), g)
  else
    match g.parentViolation event with
    | some e => (.error e, g)
    | none =>
      match g.childViolation event with
      | some e => (.error e, g)
      | none =>
        let children := registerChild g.children event
        let headsSet := event.parents.foldl OrdSet.remove g.heads.heads
        let hasChildren := !((children.get? event.id).getD []).isEmpty
        let headsSet := if hasChildren then headsSet else headsSet.insert event.id
        (.ok (), { events := g.events ++ [event], nodup := nodup_append (by simpa using h), children := children,
                   heads := Heads.fromSet headsSet })

/-- Parent ids that no event of the graph has. -/
def missingParents (g : EventGraph) : List ObjectId :=
  ((g.events.flatMap Event.parents).filter fun p => !g.contains p).dedup

def isCausallyComplete (g : EventGraph) : Bool := g.missingParents.isEmpty

/-- The greatest clock among the known events of a list of ids. -/
def maxLamport (g : EventGraph) (parents : List ObjectId) : UInt64 :=
  parents.foldl (fun m parent =>
    match g.get parent with
    | some parentEvent => if parentEvent.lamport > m then parentEvent.lamport else m
    | none => m) 0

def nextLamport (g : EventGraph) (parents : List ObjectId) : UInt64 := g.maxLamport parents + 1

/-- The heads of one ticket: its events without a child of the same ticket. -/
def ticketHeads (g : EventGraph) (ticketId : String) : List ObjectId :=
  let matching := g.events.filter fun e => e.ticketId = some ticketId
  let heads := matching.filter fun e => !(g.childrenOf e.id).any fun c =>
    match g.get c with
    | some child => child.ticketId = some ticketId
    | none => false
  keySort id (heads.map Event.id)

def ticketEventIds (g : EventGraph) (ticketId : String) : List ObjectId :=
  keySort id ((g.events.filter fun e => e.ticketId = some ticketId).map Event.id)

end EventGraph

/-! ## The deterministic order -/

/-- The key of the deterministic order: clock, timestamp, id. -/
abbrev SortKey := ℕ ×ₗ ℕ ×ₗ ObjectId

def Event.sortKey (e : Event) : SortKey := toLex (e.lamport.toNat, toLex (e.timestamp.toNat, e.id))

namespace EventGraph

/-- The graph as the topological sort walks it. -/
def index (g : EventGraph) : Kahn Event ObjectId SortKey where
  nodes := g.events
  id := Event.id
  parents := Event.parents
  children := g.childrenOf
  key := Event.sortKey

/-- Kahn's algorithm over the present parents, the least key first; events it cannot reach are
appended in key order. -/
def topologicalSort (g : EventGraph) : List Event := g.index.sort

end EventGraph

end Fortiq
