/-
An environment to evaluate the model on. The payload of an object is the position of its body in a
table, in unary; the digest of a text is its length; a signature is the key followed by the digest.
Like the libraries it stands for, it decodes what it encodes and verifies what it signs.
-/
import Fortiq.Event.Basic

namespace Fortiq

/-! ## The environment of a table -/

def tagCrypto : Crypto where
  blake3 := fun bytes => Vector.replicate 32 bytes.length.toUInt8
  verifyingKey := id
  sign := fun seed digest => ⟨⟨seed.toList ++ digest.toList⟩, by simp⟩
  validKey := fun _ => true
  verifyStrict := fun key digest signature => signature.toList = key.toList ++ digest.toList

def Env.ofTable (table : List EventBody) : Env where
  crypto := tagCrypto
  intoWriter := fun body => (table.idxOf? body).map fun i => List.replicate i 0
  fromReader := fun bytes => table[bytes.length]?

theorem tagCrypto_signs : tagCrypto.Signs := fun seed digest => ⟨rfl, by simp [tagCrypto]⟩

theorem Env.ofTable_roundTrips (table : List EventBody) : (Env.ofTable table).RoundTrips := by
  intro body bytes h
  simp only [Env.ofTable, Option.map_eq_some_iff] at h ⊢
  obtain ⟨i, hi, rfl⟩ := h
  rw [List.length_replicate]
  obtain ⟨hlt, hb, -⟩ := List.findIdx?_eq_some_iff_getElem.1 hi
  rw [List.getElem?_eq_getElem hlt]
  simpa using hb

/-- The environment of a table that encodes every body; a body that is not in the table gets a payload that does
not decode. -/
def Env.ofTableTotal (table : List EventBody) : Env :=
  { Env.ofTable table with intoWriter := fun body => some (List.replicate (table.idxOf body) 0) }

theorem Env.ofTableTotal_encodes (table : List EventBody) : (Env.ofTableTotal table).Encodes := fun _ => rfl

/-- The id of an object with the body at position `i`. -/
def idAt (i : Nat) : ObjectId := ⟨Vector.replicate 32 (57 + i).toUInt8⟩

def alice : Ed25519Signer := ⟨Vector.replicate 32 1⟩

def bob : Ed25519Signer := ⟨Vector.replicate 32 2⟩

def mallory : Ed25519Signer := ⟨Vector.replicate 32 3⟩

/-- The object with the body at position `i`. -/
def objectAt (signer : Ed25519Signer) (i : Nat) (createdAt : UInt64) : SignedObject :=
  SignedObject.sign tagCrypto signer (List.replicate i 0) createdAt

theorem idAt_inj {i j : Nat} (hi : i < 199) (hj : j < 199) (h : idAt i = idAt j) : i = j := by
  have hv : Vector.replicate 32 (57 + i).toUInt8 = Vector.replicate 32 (57 + j).toUInt8 := congrArg ObjectId.bytes h
  have h0 := congrArg (fun v : Vector UInt8 32 => (v[0]).toNat) hv
  simp only [Vector.getElem_replicate, UInt8.toNat_ofNat', Nat.toUInt8] at h0
  omega

/-! ## Tables of events -/

/-- The events of bodies, each with its author. -/
def tableEvents (author : Nat → PublicKey) (bodies : List EventBody) : List Event :=
  bodies.mapIdx fun i body => Event.ofBody (idAt i) (author i) body

/-- Bodies with their authors; the parents a body names come before it. -/
structure EventTable where
  bodies : List EventBody
  author : Nat → PublicKey := fun _ => alice.publicKey tagCrypto
  short : bodies.length < 199 := by decide
  earlier : ∀ e ∈ tableEvents author bodies, ∀ p ∈ e.parents, (p.bytes[0]).toNat < (e.id.bytes[0]).toNat := by
    decide +kernel

namespace EventTable

def env (t : EventTable) : Env := Env.ofTable t.bodies

def events (t : EventTable) : List Event := tableEvents t.author t.bodies

/-- The events of the table are those in play. -/
def inPlay (t : EventTable) : Set Event := {e | e ∈ t.events}

instance (t : EventTable) : DecidablePred (· ∈ t.inPlay) := fun e => inferInstanceAs (Decidable (e ∈ t.events))

theorem idealIds (t : EventTable) : IdealIds t.inPlay := by
  refine ⟨fun a ha b hb hab => ?_, fun a ha hp => lt_irrefl _ (t.earlier a ha a.id hp)⟩
  obtain ⟨i, hi, rfl⟩ := List.mem_mapIdx.1 ha
  obtain ⟨j, hj, rfl⟩ := List.mem_mapIdx.1 hb
  have hlen := t.short
  obtain rfl := idAt_inj (by omega) (by omega) hab
  rfl

theorem acyclic (t : EventTable) : Acyclic t.inPlay := ⟨fun i => (i.bytes[0]).toNat, t.earlier⟩

theorem roundTrips (t : EventTable) : t.env.RoundTrips := Env.ofTable_roundTrips t.bodies

/-- The events in play are no more than the bodies. -/
theorem finite_ncard_le (t : EventTable) : t.inPlay.Finite ∧ t.inPlay.ncard ≤ t.bodies.length := by
  have heq : t.inPlay = (t.events.toFinset : Set Event) := by ext e; simp [inPlay]
  rw [heq, Set.ncard_coe_finset]
  refine ⟨Finset.finite_toSet _, t.events.toFinset_card_le.trans ?_⟩
  simp [events, tableEvents]

end EventTable

end Fortiq
