/-
The peers a node has heard of (`PeerRegistry`, `dial_candidates` and `validate_hello` in `fortiq-p2p/src/node.rs`). An
entry is made by the first event about a peer and filled in by the others: connections, HELLO messages, identify and
rendezvous. Addresses are lists of protocols; `PeerId` and JSON are external. When an entry was last touched is read by
nothing and left out.
-/
import Fortiq.Node.Basic
import Mathlib.Data.List.AList

namespace Fortiq

/-! ## Addresses -/

/-- A component of an address, as far as the node tells them apart. -/
inductive Protocol where
  | p2pCircuit
  | quicV1
  | p2p (peer : PeerId)
  | other (text : String)
deriving DecidableEq, Repr

abbrev Multiaddr := List Protocol

/-- The peer an address names at its end. -/
def Multiaddr.peer? (addr : Multiaddr) : Option PeerId :=
  match addr.getLast? with
  | some (.p2p peer) => some peer
  | _ => none

def transportOf (addr : Multiaddr) : String :=
  if .p2pCircuit ∈ addr then "RELAY CIRCUIT" else if .quicV1 ∈ addr then "QUIC DIRECT" else "P2P"

/-! ## Entries -/

structure NodeInfo where
  peerId : String
  name : String
  os : String
  arch : String
  version : String
  relay : Bool
  rendezvous : Bool
deriving DecidableEq, Repr

structure DiscoveredPeer where
  name : Option String
  os : Option String
  arch : Option String
  version : Option String
  relay : Bool
  rendezvous : Bool
  addresses : List Multiaddr
  transport : String
  connected : Bool
deriving DecidableEq, Repr

/-- An entry of which nothing is known. -/
def DiscoveredPeer.unknown : DiscoveredPeer where
  name := none
  os := none
  arch := none
  version := none
  relay := false
  rendezvous := false
  addresses := []
  transport := "P2P"
  connected := true

def DiscoveredPeer.addAddress (entry : DiscoveredPeer) (addr : Multiaddr) : DiscoveredPeer :=
  if addr ∈ entry.addresses then entry else { entry with addresses := entry.addresses ++ [addr] }

def DiscoveredPeer.addAddresses (entry : DiscoveredPeer) (addrs : List Multiaddr) : DiscoveredPeer :=
  addrs.foldl addAddress entry

/-- The registry: a map, in no order. -/
abbrev PeerRegistry := AList fun _ : PeerId => DiscoveredPeer

namespace PeerRegistry

/-- The entry of a peer, made if it is missing, is changed. -/
def update (r : PeerRegistry) (peer : PeerId) (fresh : DiscoveredPeer) (change : DiscoveredPeer → DiscoveredPeer) :
    PeerRegistry :=
  r.insert peer (change ((r.lookup peer).getD fresh))

def recordConnection (r : PeerRegistry) (peer : PeerId) (addr : Multiaddr) : PeerRegistry :=
  let transport := transportOf addr
  r.update peer { DiscoveredPeer.unknown with transport } fun entry =>
    { entry with connected := true, transport }.addAddress addr

def recordDisconnection (r : PeerRegistry) (peer : PeerId) (remainingEstablished : Nat) : PeerRegistry :=
  if remainingEstablished = 0 then
    match r.lookup peer with
    | some entry => r.insert peer { entry with connected := false }
    | none => r
  else r

def recordHello (r : PeerRegistry) (peer : PeerId) (info : NodeInfo) : PeerRegistry :=
  r.update peer .unknown fun entry =>
    { entry with
      name := some info.name
      os := some info.os
      arch := some info.arch
      version := some info.version
      relay := info.relay
      rendezvous := info.rendezvous }

def recordIdentify (r : PeerRegistry) (peer : PeerId) (protocolVersion : String) (listenAddrs : List Multiaddr) : PeerRegistry :=
  r.update peer { DiscoveredPeer.unknown with version := some protocolVersion } (·.addAddresses listenAddrs)

def recordRendezvous (r : PeerRegistry) (peer : PeerId) (addresses : List Multiaddr) : PeerRegistry :=
  r.update peer { DiscoveredPeer.unknown with connected := false } (·.addAddresses addresses)

end PeerRegistry

/-! ## Dialing -/

/-- The addresses to dial for a peer: through the relay first, then those that are known. -/
def dialCandidates (peer : PeerId) (registry : PeerRegistry) (relayPeer : Option Multiaddr) : List Multiaddr :=
  let circuit := (relayPeer.map fun relay => relay ++ [.p2pCircuit, .p2p peer]).toList
  let known := ((registry.lookup peer).map DiscoveredPeer.addresses).getD []
  known.foldl (fun candidates addr =>
    let full := if addr.peer?.isSome then addr else addr ++ [.p2p peer]
    if full ∈ candidates then candidates else candidates ++ [full]) circuit

/-! ## HELLO -/

structure HelloEnv where
  /-- The length of `serde_json::to_vec` of the metadata, if it has one. -/
  infoSize : NodeInfo → Option Nat
  parsePeerId : String → Option PeerId

def maxHelloBytes : Nat := 16 * 1024

/-- The metadata is short enough, and claims the peer it came from. -/
def validateHello (env : HelloEnv) (authenticatedPeer : PeerId) (info : NodeInfo) : Bool :=
  match env.infoSize info with
  | none => false
  | some size => decide (size ≤ maxHelloBytes) && decide (env.parsePeerId info.peerId = some authenticatedPeer)

/-! ## What the records leave -/

namespace PeerRegistry

variable {r : PeerRegistry} {peer q : PeerId} {fresh : DiscoveredPeer} {change : DiscoveredPeer → DiscoveredPeer}

@[simp] theorem lookup_update_self : (r.update peer fresh change).lookup peer = some (change ((r.lookup peer).getD fresh)) :=
  AList.lookup_insert r

theorem lookup_update_of_ne (h : q ≠ peer) : (r.update peer fresh change).lookup q = r.lookup q :=
  AList.lookup_insert_ne h

end PeerRegistry

/-- More addresses change nothing else. -/
theorem DiscoveredPeer.addAddresses_spec (entry : DiscoveredPeer) (addrs : List Multiaddr) :
    ∃ addresses, entry.addAddresses addrs = { entry with addresses } := by
  induction addrs generalizing entry with
  | nil => exact ⟨entry.addresses, rfl⟩
  | cons addr addrs ih =>
    obtain ⟨addresses, h⟩ := ih (entry.addAddress addr)
    refine ⟨addresses, h.trans ?_⟩
    unfold addAddress
    split <;> rfl

end Fortiq
