/-
Events of the causal graph (`fortiq-core/src/event/model.rs`): a signed object whose payload is the
CBOR encoding of an event body. The CBOR library is external; an `Env` gives its two functions
beside the primitives of `Crypto`.
-/
import Fortiq.Object.Basic
import Fortiq.Ticket.Basic

namespace Fortiq

inductive EventPayload where
  | ticket (event : TicketEvent)
  | custom (name : String) (data : List UInt8)
deriving DecidableEq, Repr

/-- The body of an event, as it is encoded into the payload of its object. -/
structure EventBody where
  parents : List ObjectId
  timestamp : UInt64
  lamport : UInt64
  payload : EventPayload
deriving DecidableEq, Repr

structure Event where
  id : ObjectId
  parents : List ObjectId
  author : PublicKey
  timestamp : UInt64
  lamport : UInt64
  payload : EventPayload
deriving DecidableEq, Repr

/-- What the core takes from other crates. -/
structure Env where
  crypto : Crypto
  /-- `ciborium::into_writer` of an event body. -/
  intoWriter : EventBody → Option (List UInt8)
  /-- `ciborium::from_reader` as an event body. -/
  fromReader : List UInt8 → Option EventBody

namespace Event

variable (env : Env)

/-- The event with this body, author and id. -/
def ofBody (id : ObjectId) (author : PublicKey) (body : EventBody) : Event where
  id := id
  parents := body.parents
  author := author
  timestamp := body.timestamp
  lamport := body.lamport
  payload := body.payload

/-- A new event with its signed object. -/
def new (parents : List ObjectId) (timestamp lamport : UInt64) (payload : EventPayload) (signer : Ed25519Signer) :
    Result (Event × SignedObject) :=
  let body : EventBody := ⟨parents, timestamp, lamport, payload⟩
  match env.intoWriter body with
  | none => .error (.context "failed to serialize event body to canonical CBOR" (.msg "cbor"))
  | some bytes =>
    let obj := SignedObject.sign env.crypto signer bytes timestamp
    .ok (ofBody obj.id obj.author body, obj)

/-- The event a verified object carries. -/
def fromSignedObject (obj : SignedObject) : Result Event :=
  match Result.context "invalid SignedObject envelope" (obj.verify env.crypto) with
  | .error e => .error e
  | .ok () =>
    match env.fromReader obj.payload with
    | none => .error (.context "failed to decode event body from CBOR payload" (.msg "cbor"))
    | some body => .ok (ofBody obj.id obj.author body)

/-- The ticket an event is about. -/
def ticketId (e : Event) : Option String :=
  match e.payload with
  | .ticket t => some t.ticketId
  | .custom _ _ => none

end Event

/-- Content addressing without collisions, on the events in play: an id belongs to one of them, and none
of them has its own id among its parents. -/
structure IdealIds (U : Set Event) : Prop where
  inj : ∀ a ∈ U, ∀ b ∈ U, a.id = b.id → a = b
  noSelf : ∀ a ∈ U, a.id ∉ a.parents

/-- A parent is hashed before its children: ids can be ranked so that parents rank below. -/
def Acyclic (U : Set Event) : Prop := ∃ rank : ObjectId → Nat, ∀ e ∈ U, ∀ p ∈ e.parents, rank p < rank e.id

/-! ## What creation and decoding give -/

section

variable {env : Env}

/-- A new event has the parents, clock and payload it was made with, and the id of its object. -/
theorem Event.new_ok {ps : List ObjectId} {ts l : UInt64} {p : EventPayload} {signer : Ed25519Signer}
    {e : Event} {obj : SignedObject} (h : Event.new env ps ts l p signer = .ok (e, obj)) :
    e.parents = ps ∧ e.timestamp = ts ∧ e.lamport = l ∧ e.payload = p ∧ e.id = obj.id ∧
      e.author = signer.publicKey env.crypto := by
  unfold Event.new at h
  cases hw : env.intoWriter ⟨ps, ts, l, p⟩ with
  | none => simp [hw] at h
  | some bytes =>
    simp only [hw] at h
    cases h
    exact ⟨rfl, rfl, rfl, rfl, rfl, rfl⟩

/-- A decoded event has the id of its object, which verifies. -/
theorem Event.fromSignedObject_ok {obj : SignedObject} {e : Event} (h : Event.fromSignedObject env obj = .ok e) :
    e.id = obj.id ∧ obj.verify env.crypto = .ok () := by
  unfold Event.fromSignedObject at h
  cases hv : obj.verify env.crypto with
  | error err => simp [hv] at h
  | ok u =>
    cases hr : env.fromReader obj.payload with
    | none => simp [hv, hr] at h
    | some body =>
      simp only [hv, hr, Result.context_ok] at h
      cases h
      exact ⟨rfl, rfl⟩

end

/-! ## What the external libraries are for -/

/-- The codec decodes what it encodes. -/
def Env.RoundTrips (env : Env) : Prop := ∀ body bytes, env.intoWriter body = some bytes → env.fromReader bytes = some body

/-- The codec encodes every body. -/
def Env.Encodes (env : Env) : Prop := ∀ body, (env.intoWriter body).isSome

/-- A signature verifies under the key of its signer. -/
def Crypto.Signs (crypto : Crypto) : Prop := ∀ seed digest, crypto.validKey (crypto.verifyingKey seed) = true ∧
  crypto.verifyStrict (crypto.verifyingKey seed) digest (crypto.sign seed digest) = true

/-- A signed object verifies. -/
theorem SignedObject.verify_sign {crypto : Crypto} (h : crypto.Signs) (signer : Ed25519Signer) (payload : List UInt8)
    (createdAt : UInt64) : (SignedObject.sign crypto signer payload createdAt).verify crypto = .ok () := by
  obtain ⟨hkey, hsig⟩ := h signer.seed
    (domainDigest crypto objectSigDomain (computeTbsBytes (signer.publicKey crypto) createdAt payload))
  unfold SignedObject.verify verifierOf verifyDomain
  simp only [SignedObject.sign, Ed25519Signer.publicKey, Ed25519Signer.signDomain] at hsig ⊢
  simp [bind, Except.bind, hkey, hsig]

/-- Where everything can be encoded, a new event can be made, and its object verifies. -/
theorem Event.new_total {env : Env} (he : env.Encodes) (hs : env.crypto.Signs) (ps : List ObjectId) (ts l : UInt64)
    (p : EventPayload) (signer : Ed25519Signer) :
    ∃ e obj, Event.new env ps ts l p signer = .ok (e, obj) ∧ obj.verify env.crypto = .ok () := by
  obtain ⟨bytes, hw⟩ := Option.isSome_iff_exists.1 (he ⟨ps, ts, l, p⟩)
  simp only [Event.new, hw]
  exact ⟨_, _, rfl, SignedObject.verify_sign hs signer bytes ts⟩

/-- The object of a new event decodes to the event once it verifies. -/
theorem Event.new_decodes {env : Env} (hc : env.RoundTrips) {ps : List ObjectId} {ts l : UInt64}
    {p : EventPayload} {signer : Ed25519Signer} {e : Event} {obj : SignedObject}
    (h : Event.new env ps ts l p signer = .ok (e, obj)) (hv : obj.verify env.crypto = .ok ()) :
    Event.fromSignedObject env obj = .ok e := by
  unfold Event.new at h
  cases hw : env.intoWriter ⟨ps, ts, l, p⟩ with
  | none => simp [hw] at h
  | some bytes =>
    simp only [hw] at h
    cases h
    unfold Event.fromSignedObject
    rw [hv]
    simp only [Result.context_ok]
    rw [show (SignedObject.sign env.crypto signer bytes ts).payload = bytes from rfl, hc _ _ hw]

end Fortiq
