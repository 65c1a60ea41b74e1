/-
The ticket policy of the engine, operator capabilities, session certificates and proofs, and the Genesis record
(`fortiq-core/src/authority/policy.rs`).
-/
import Fortiq.Object.Basic
import Fortiq.Ticket.Basic

namespace Fortiq

structure AuthorityPolicy where
  rootOwnerPubkey : Option PublicKey
deriving DecidableEq, Repr

namespace AuthorityPolicy

/-- The policy looks at the states only; the actor is not consulted. -/
def canTransitionTicket (_policy : AuthorityPolicy) (currentState newState : TicketState) (_actorPeerId : String) : Bool :=
  currentState.canTransitionTo newState

end AuthorityPolicy

/-! ## Capabilities -/

/-- A set of capabilities, one bit each. -/
structure OperatorCapabilities where
  bits : UInt32
deriving DecidableEq, Repr

namespace OperatorCapabilities

def read : UInt32 := (1 : UInt32) <<< 0

def write : UInt32 := (1 : UInt32) <<< 1

def shellExec : UInt32 := (1 : UInt32) <<< 2

def fileTransfer : UInt32 := (1 : UInt32) <<< 3

def ticketManage : UInt32 := (1 : UInt32) <<< 4

def diagnostics : UInt32 := (1 : UInt32) <<< 5

def admin : UInt32 := read ||| write ||| shellExec ||| fileTransfer ||| ticketManage ||| diagnostics

def has (c : OperatorCapabilities) (required : UInt32) : Bool := c.bits &&& required == required

/-- The bits of a name; a name that is not known has none. -/
def ofName (name : String) : UInt32 :=
  match name.toLower with
  | "admin" | "all" => admin
  | "read" => read
  | "write" => write
  | "shell" | "shell_exec" => shellExec
  | "file" | "file_transfer" => fileTransfer
  | "ticket" | "ticket_manage" => ticketManage
  | "diagnostics" => diagnostics
  | _ => 0

def fromNames (names : List String) : OperatorCapabilities := ⟨names.foldl (fun bits name => bits ||| ofName name) 0⟩

def toNames (c : OperatorCapabilities) : List String :=
  [(read, "read"), (write, "write"), (shellExec, "shell"), (fileTransfer, "file"), (ticketManage, "ticket"),
    (diagnostics, "diagnostics")].filterMap fun (bit, name) => if c.has bit then some name else none

end OperatorCapabilities

/-! ## Session certificates -/

abbrev NetworkId := ObjectId

abbrev EntityId := ObjectId

abbrev OwnerId := ObjectId

abbrev KeyId := ObjectId

def operatorCertDomain : String := "FORTIQ-OPERATOR-CERT-V5"

/-- The owner's word that a session key acts for an operator on a host. -/
structure OperatorSessionCertificate where
  networkId : NetworkId
  ownerId : OwnerId
  hostEntity : EntityId
  operatorKeyId : KeyId
  sessionPubkey : PublicKey
  capabilities : OperatorCapabilities
  createdAt : UInt64
  expiresAt : UInt64
  signature : Signature
deriving DecidableEq, Repr

namespace OperatorSessionCertificate

def computeTbsBytes (networkId : NetworkId) (ownerId : OwnerId) (hostEntity : EntityId) (operatorKeyId : KeyId)
    (sessionPubkey : PublicKey) (capabilities : OperatorCapabilities) (createdAt expiresAt : UInt64) : List UInt8 :=
  networkId.bytes.toList ++ ownerId.bytes.toList ++ hostEntity.bytes.toList ++ operatorKeyId.bytes.toList ++
    sessionPubkey.bytes.toList ++ leBytes32 capabilities.bits ++ leBytes createdAt ++ leBytes expiresAt

/-- The bytes of this certificate that the owner signs. -/
def tbs (c : OperatorSessionCertificate) : List UInt8 :=
  computeTbsBytes c.networkId c.ownerId c.hostEntity c.operatorKeyId c.sessionPubkey c.capabilities c.createdAt c.expiresAt

/-- Not expired, and signed by the owner; the time of issue is not looked at. -/
def verify (crypto : Crypto) (c : OperatorSessionCertificate) (ownerVerifier : PublicKey) (now : UInt64) : Result Unit :=
  if now ≥ c.expiresAt then .error (.msg "operator session certificate has expired")
  else verifyDomain crypto ownerVerifier operatorCertDomain c.tbs c.signature

/-- A certificate signed by the owner's key. -/
def issue (crypto : Crypto) (networkId : NetworkId) (ownerId : OwnerId) (hostEntity : EntityId) (operatorKeyId : KeyId)
    (sessionPubkey : PublicKey) (capabilities : OperatorCapabilities) (createdAt expiresAt : UInt64)
    (signer : Ed25519Signer) : OperatorSessionCertificate where
  networkId := networkId
  ownerId := ownerId
  hostEntity := hostEntity
  operatorKeyId := operatorKeyId
  sessionPubkey := sessionPubkey
  capabilities := capabilities
  createdAt := createdAt
  expiresAt := expiresAt
  signature := signer.signDomain crypto operatorCertDomain
    (computeTbsBytes networkId ownerId hostEntity operatorKeyId sessionPubkey capabilities createdAt expiresAt)

end OperatorSessionCertificate

/-! ## Genesis -/

def genesisSigDomain : String := "FORTIQ-GENESIS-V5"

structure GenesisTbs where
  networkId : NetworkId
  ownerId : OwnerId
  ownerRootSigningPublicKey : PublicKey
  createdAt : UInt64
deriving DecidableEq, Repr

/-- The bytes of the record that the owner signs. -/
def GenesisTbs.bytes (tbs : GenesisTbs) : List UInt8 :=
  tbs.networkId.bytes.toList ++ tbs.ownerId.bytes.toList ++ tbs.ownerRootSigningPublicKey.bytes.toList ++
    leBytes tbs.createdAt

structure Genesis where
  tbs : GenesisTbs
  signature : Signature
deriving DecidableEq, Repr

def deriveOwnerId (crypto : Crypto) (pk : PublicKey) : OwnerId := pk.deriveId crypto

def Genesis.create (crypto : Crypto) (tbs : GenesisTbs) (signer : Ed25519Signer) : Genesis :=
  ⟨tbs, signer.signDomain crypto genesisSigDomain tbs.bytes⟩

/-- The record is signed by the key it names; that the owner id is derived from the key is not checked. -/
def Genesis.verify (crypto : Crypto) (genesis : Genesis) : Result Unit := do
  let verifier ← verifierOf crypto genesis.tbs.ownerRootSigningPublicKey
  verifyDomain crypto verifier genesisSigDomain genesis.tbs.bytes genesis.signature

def deriveGenesisId (crypto : Crypto) (networkId : NetworkId) (ownerId : OwnerId) : ObjectId :=
  ObjectId.derive crypto "FORTIQ-GENESIS-ID-V5" (networkId.bytes.toList ++ ownerId.bytes.toList)

def Genesis.genesisId (crypto : Crypto) (genesis : Genesis) : ObjectId :=
  deriveGenesisId crypto genesis.tbs.networkId genesis.tbs.ownerId

def Genesis.verifyPinned (crypto : Crypto) (genesis : Genesis) (expectedGenesisId : ObjectId) : Result Unit := do
  genesis.verify crypto
  let actualId := genesis.genesisId crypto
  if actualId ≠ expectedGenesisId then
    throw (.msg ("genesis verification failed: expected genesis_id " ++ expectedGenesisId.toHex ++ ", got " ++
      actualId.toHex))

/-! ## Session proofs -/

/-- What the owner signs in a session proof of the authority module. The peer id comes first, without its length. -/
def Authority.OperatorSessionProof.computeTbsBytes (operatorPeerId : String) (sessionPubkey : PublicKey)
    (capabilities : OperatorCapabilities) (createdAt expiresAt : UInt64) : List UInt8 :=
  utf8 operatorPeerId ++ sessionPubkey.bytes.toList ++ leBytes32 capabilities.bits ++ leBytes createdAt ++
    leBytes expiresAt

end Fortiq
