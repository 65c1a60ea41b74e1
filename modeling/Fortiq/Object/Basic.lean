/-
Content ids, keys, signatures and signed objects (`fortiq-core/src/object`), and the errors the core
reports. BLAKE3 and Ed25519 are external: a `Crypto` gives their functions, and what a result needs
of them is a hypothesis of that result.
-/
import Mathlib.Data.List.Lex
import Mathlib.Tactic

namespace Fortiq

/-! ## Errors -/

/-- An error as the code builds it: a failed file operation, a message, or a context around a cause. -/
inductive Error where
  | disk (text : String)
  | msg (text : String)
  | context (text : String) (cause : Error)
deriving DecidableEq, Repr

namespace Error

/-- What printing the error shows: the outermost text. -/
def text : Error → String
  | disk t => t
  | msg t => t
  | context t _ => t

/-- The root cause is a failed file operation. -/
def isDisk : Error → Bool
  | disk _ => true
  | msg _ => false
  | context _ c => c.isDisk

@[simp] theorem isDisk_context (t : String) (c : Error) : (context t c).isDisk = c.isDisk := rfl

end Error

abbrev Result := Except Error

/-- A context around the error of a result. -/
def Result.context {α : Type} (text : String) : Result α → Result α
  | .ok a => .ok a
  | .error e => .error (.context text e)

@[simp] theorem Result.context_ok {α : Type} (t : String) (a : α) : Result.context t (.ok a) = .ok a := rfl

@[simp] theorem Result.context_error {α : Type} (t : String) (e : Error) :
    (Result.context t (.error e) : Result α) = .error (.context t e) := rfl

/-! ## Bytes -/

/-- The UTF-8 bytes of a string. -/
def utf8 (s : String) : List UInt8 := s.toUTF8.data.toList

/-- The little-endian bytes of a `u64`. -/
def leBytes (n : UInt64) : List UInt8 := (List.range 8).map fun i => (n.toNat / 256 ^ i).toUInt8

def leBytes32 (n : UInt32) : List UInt8 := (List.range 4).map fun i => (n.toNat / 256 ^ i).toUInt8

/-- The big-endian bytes of a `u64`. -/
def beBytes (n : UInt64) : List UInt8 := (leBytes n).reverse

def beBytes32 (n : UInt32) : List UInt8 := (leBytes32 n).reverse

def hexDigit (n : Nat) : Char := if n < 10 then Char.ofNat (48 + n) else Char.ofNat (87 + n)

/-- Lower-case hexadecimal, two digits a byte. -/
def hexEncode (bytes : List UInt8) : String :=
  String.ofList (bytes.flatMap fun b => [hexDigit (b.toNat / 16), hexDigit (b.toNat % 16)])

/-! ## Ids and keys -/

/-- Equality of byte arrays, decided on their lists. -/
def decEqBytes {n : Nat} (a b : Vector UInt8 n) : Decidable (a = b) :=
  decidable_of_iff (a.toList = b.toList) Vector.toList_inj

/-- A 32-byte content identifier. -/
structure ObjectId where
  bytes : Vector UInt8 32
deriving Repr

namespace ObjectId

/-- The bytes as numbers; ids are ordered by them lexicographically. -/
def digits (i : ObjectId) : List Nat := i.bytes.toList.map UInt8.toNat

theorem digits_injective : Function.Injective digits := by
  intro a b h
  have h1 : a.bytes.toList = b.bytes.toList := List.map_injective_iff.2 (fun x y hxy => UInt8.toNat_inj.1 hxy) h
  cases a; cases b; simpa [Vector.toList_inj] using h1

instance : DecidableEq ObjectId := fun a b => decidable_of_iff (a.digits = b.digits) digits_injective.eq_iff

instance : LinearOrder ObjectId := LinearOrder.lift' digits digits_injective

instance : Std.LawfulEqOrd ObjectId := ⟨fun h => compare_eq_iff_eq.1 h⟩

def toHex (i : ObjectId) : String := hexEncode i.bytes.toList

end ObjectId

structure PublicKey where
  bytes : Vector UInt8 32
deriving Repr

instance : DecidableEq PublicKey := fun a b =>
  let _ := decEqBytes a.bytes b.bytes
  decidable_of_iff (a.bytes = b.bytes) ⟨fun h => by cases a; cases b; simpa using h, congrArg PublicKey.bytes⟩

structure Signature where
  bytes : Vector UInt8 64
deriving Repr

instance : DecidableEq Signature := fun a b =>
  let _ := decEqBytes a.bytes b.bytes
  decidable_of_iff (a.bytes = b.bytes) ⟨fun h => by cases a; cases b; simpa using h, congrArg Signature.bytes⟩

/-- The 32 secret bytes of an `Ed25519Signer`. -/
structure Ed25519Signer where
  seed : Vector UInt8 32
deriving DecidableEq, Repr

/-- The external primitives: BLAKE3, and Ed25519 on 32-byte digests. -/
structure Crypto where
  /-- `blake3::Hasher` over the concatenated updates. -/
  blake3 : List UInt8 → Vector UInt8 32
  /-- `SigningKey::verifying_key`. -/
  verifyingKey : Vector UInt8 32 → Vector UInt8 32
  /-- `SigningKey::sign`. -/
  sign : Vector UInt8 32 → Vector UInt8 32 → Vector UInt8 64
  /-- `VerifyingKey::from_bytes` accepts the key. -/
  validKey : Vector UInt8 32 → Bool
  /-- `VerifyingKey::verify_strict`. -/
  verifyStrict : Vector UInt8 32 → Vector UInt8 32 → Vector UInt8 64 → Bool

section

variable (crypto : Crypto)

/-- The digest of a domain-separated payload. -/
def domainDigest (domain : String) (payload : List UInt8) : Vector UInt8 32 :=
  crypto.blake3 (utf8 domain ++ utf8 ":" ++ payload)

def ObjectId.derive (domain : String) (data : List UInt8) : ObjectId := ⟨domainDigest crypto domain data⟩

def PublicKey.deriveId (pk : PublicKey) : ObjectId := ObjectId.derive crypto "FORTIQ-KEY-ID-V5" pk.bytes.toList

def Ed25519Signer.publicKey (signer : Ed25519Signer) : PublicKey := ⟨crypto.verifyingKey signer.seed⟩

def Ed25519Signer.signDomain (signer : Ed25519Signer) (domain : String) (payload : List UInt8) : Signature :=
  ⟨crypto.sign signer.seed (domainDigest crypto domain payload)⟩

/-- A public key accepted by `Ed25519Verifier::from_public_key`. -/
def verifierOf (pk : PublicKey) : Result PublicKey :=
  if crypto.validKey pk.bytes then .ok pk else .error (.context "invalid ed25519 public key" (.msg "signature error"))

def verifyDomain (pk : PublicKey) (domain : String) (payload : List UInt8) (signature : Signature) : Result Unit :=
  if crypto.verifyStrict pk.bytes (domainDigest crypto domain payload) signature.bytes then .ok ()
  else .error (.context "signature verification failed" (.msg "signature error"))

end

/-! ## Signed objects -/

def objectSigDomain : String := "FORTIQ-OBJECT-SIG-V5"

def objectIdDomain : String := "FORTIQ-OBJECT-V5"

/-- `Verifier::verify`: the signature is a slice, the domain that of objects. -/
def verifyBytes (crypto : Crypto) (pk : PublicKey) (payload signature : List UInt8) : Result Unit :=
  if h : signature.length = 64 then
    match verifyDomain crypto pk objectSigDomain payload ⟨⟨signature.toArray, by simpa using h⟩⟩ with
    | .ok () => .ok ()
    | .error e => .error (.msg ("signing error: " ++ e.text))
  else .error (.msg "signing error: invalid signature length")

theorem verifyDomain_isOk {crypto : Crypto} {pk : PublicKey} {domain : String} {payload : List UInt8} {sig : Signature} :
    (verifyDomain crypto pk domain payload sig).isOk = true ↔
      crypto.verifyStrict pk.bytes (domainDigest crypto domain payload) sig.bytes = true := by
  unfold verifyDomain
  split <;> simp_all [Except.isOk, Except.toBool]

theorem verifyBytes_isOk {crypto : Crypto} {pk : PublicKey} {payload sig : List UInt8}
    (h : (verifyBytes crypto pk payload sig).isOk = true) :
    ∃ hl : sig.length = 64, crypto.verifyStrict pk.bytes (domainDigest crypto objectSigDomain payload)
      ⟨sig.toArray, by simpa using hl⟩ = true := by
  unfold verifyBytes at h
  split at h
  · rename_i hl
    refine ⟨hl, ?_⟩
    split at h
    · rename_i hv
      exact verifyDomain_isOk.1 (by rw [hv]; rfl)
    · cases h
  · cases h

/-- An immutable signed object. -/
structure SignedObject where
  id : ObjectId
  author : PublicKey
  createdAt : UInt64
  payload : List UInt8
  signature : Signature
deriving DecidableEq, Repr

namespace SignedObject

variable (crypto : Crypto)

/-- The bytes to be signed. -/
def computeTbsBytes (author : PublicKey) (createdAt : UInt64) (payload : List UInt8) : List UInt8 :=
  author.bytes.toList ++ leBytes createdAt ++ payload

def computeId (author : PublicKey) (createdAt : UInt64) (payload : List UInt8) : ObjectId :=
  ObjectId.derive crypto objectIdDomain (computeTbsBytes author createdAt payload)

def sign (signer : Ed25519Signer) (payload : List UInt8) (createdAt : UInt64) : SignedObject where
  id := computeId crypto (signer.publicKey crypto) createdAt payload
  author := signer.publicKey crypto
  createdAt := createdAt
  payload := payload
  signature := signer.signDomain crypto objectSigDomain (computeTbsBytes (signer.publicKey crypto) createdAt payload)

/-- The id is the content address and the signature is the author's. -/
def verify (obj : SignedObject) : Result Unit := do
  let expectedId := computeId crypto obj.author obj.createdAt obj.payload
  if obj.id ≠ expectedId then
    throw (.msg ("SignedObject ID mismatch: header " ++ obj.id.toHex ++ " does not match computed " ++
      expectedId.toHex))
  let tbs := computeTbsBytes obj.author obj.createdAt obj.payload
  let verifier ← Result.context "failed to construct verifier from author public key" (verifierOf crypto obj.author)
  Result.context "SignedObject signature is invalid" (verifyDomain crypto verifier objectSigDomain tbs obj.signature)

end SignedObject

end Fortiq
