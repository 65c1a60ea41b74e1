/-
What the pin of a Genesis record fixes (`Genesis::verify_pinned`, `fortiq-core/src/authority/policy.rs`). The id is
derived from the network and the owner id; the signature is checked against the key in the record; and nothing checks
that the owner id is derived from that key. So the pin fixes the network and the owner id, and the key only among the
records whose owner id is derived from their key.
-/
import Fortiq.Authority.Policy
import Fortiq.Event.Table
import Fortiq.Object.Fields

namespace Fortiq

variable {crypto : Crypto}

/-- The texts that are hashed for the id of a record and for the id of its key. -/
def Genesis.hashed (g : Genesis) : Set (List UInt8) :=
  {utf8 "FORTIQ-GENESIS-ID-V5" ++ utf8 ":" ++ (g.tbs.networkId.bytes.toList ++ g.tbs.ownerId.bytes.toList),
    utf8 "FORTIQ-KEY-ID-V5" ++ utf8 ":" ++ g.tbs.ownerRootSigningPublicKey.bytes.toList}

theorem Genesis.verifyPinned_ok {g : Genesis} {expected : ObjectId} :
    g.verifyPinned crypto expected = .ok () ↔ g.verify crypto = .ok () ∧ g.genesisId crypto = expected := by
  unfold verifyPinned
  cases hv : g.verify crypto with
  | error e => simp [bind, Except.bind]
  | ok u =>
    by_cases hid : g.genesisId crypto = expected <;>
      simp [bind, Except.bind, hid, pure, Except.pure, throw, throwThe, MonadExceptOf.throw]

theorem deriveGenesisId_inj {U : Set (List UInt8)} (hfree : Set.InjOn crypto.blake3 U) {a b : Genesis}
    (ha : a.hashed ⊆ U) (hb : b.hashed ⊆ U) (h : a.genesisId crypto = b.genesisId crypto) :
    a.tbs.networkId = b.tbs.networkId ∧ a.tbs.ownerId = b.tbs.ownerId := by
  have htext := hfree (ha (.inl rfl)) (hb (.inl rfl)) (congrArg ObjectId.bytes h)
  obtain ⟨hnet, hrest⟩ := delimits_objectId _ trivial _ trivial _ _ (List.append_cancel_left htext)
  exact ⟨hnet, delimits_objectId.injOn trivial trivial hrest⟩

theorem deriveOwnerId_inj {U : Set (List UInt8)} (hfree : Set.InjOn crypto.blake3 U) {a b : Genesis}
    (ha : a.hashed ⊆ U) (hb : b.hashed ⊆ U)
    (h : deriveOwnerId crypto a.tbs.ownerRootSigningPublicKey = deriveOwnerId crypto b.tbs.ownerRootSigningPublicKey) :
    a.tbs.ownerRootSigningPublicKey = b.tbs.ownerRootSigningPublicKey := by
  have htext := hfree (ha (.inr rfl)) (hb (.inr rfl)) (congrArg ObjectId.bytes h)
  exact delimits_publicKey.injOn trivial trivial (List.append_cancel_left htext)

/-- Two records that pass one pin, where BLAKE3 has no collision among their texts, have one network and one owner
id. If the owner id of the first is derived from its key, then they have one key exactly if that of the second is. -/
theorem pinned_key_iff (expected : ObjectId) (a b : Genesis)
    (hfree : Set.InjOn crypto.blake3 (a.hashed ∪ b.hashed)) (ha : a.verifyPinned crypto expected = .ok ())
    (hb : b.verifyPinned crypto expected = .ok ()) :
    a.tbs.networkId = b.tbs.networkId ∧ a.tbs.ownerId = b.tbs.ownerId ∧
      (a.tbs.ownerId = deriveOwnerId crypto a.tbs.ownerRootSigningPublicKey →
        (a.tbs.ownerRootSigningPublicKey = b.tbs.ownerRootSigningPublicKey ↔
          b.tbs.ownerId = deriveOwnerId crypto b.tbs.ownerRootSigningPublicKey)) := by
  obtain ⟨-, hida⟩ := Genesis.verifyPinned_ok.1 ha
  obtain ⟨-, hidb⟩ := Genesis.verifyPinned_ok.1 hb
  obtain ⟨hnet, howner⟩ :=
    deriveGenesisId_inj hfree Set.subset_union_left Set.subset_union_right (hida.trans hidb.symm)
  refine ⟨hnet, howner, fun hderived => ?_⟩
  constructor
  · intro hkey
    rw [← howner, ← hkey, hderived]
  · intro hderived'
    refine deriveOwnerId_inj hfree Set.subset_union_left Set.subset_union_right ?_
    rw [← hderived, ← hderived', howner]

/-- Whoever has a key can sign a record that names it, and the record passes every pin of its network and owner id. -/
theorem own_key_passes (hsig : crypto.Signs) (tbs : GenesisTbs) (signer : Ed25519Signer) :
    (Genesis.create crypto { tbs with ownerRootSigningPublicKey := signer.publicKey crypto } signer).verifyPinned crypto
      (deriveGenesisId crypto tbs.networkId tbs.ownerId) = .ok () := by
  have hkey : verifierOf crypto (signer.publicKey crypto) = .ok (signer.publicKey crypto) :=
    if_pos (hsig signer.seed (crypto.blake3 [])).1
  have hverify : ∀ payload, verifyDomain crypto (signer.publicKey crypto) genesisSigDomain payload
      (signer.signDomain crypto genesisSigDomain payload) = .ok () := fun payload => if_pos (hsig signer.seed _).2
  refine Genesis.verifyPinned_ok.2 ⟨?_, rfl⟩
  show (verifierOf crypto (signer.publicKey crypto) >>= _) = _
  rw [hkey]
  exact hverify _

namespace GenesisSample

/-- A digest that tells texts by their length and their last 31 bytes. -/
def tailDigest (bytes : List UInt8) : Vector UInt8 32 :=
  Vector.ofFn fun i : Fin 32 => if i.val = 0 then bytes.length.toUInt8 else bytes.reverse.getD (i.val - 1) 0

def tailCrypto : Crypto := { tagCrypto with blake3 := tailDigest }

theorem tailCrypto_signs : tailCrypto.Signs := fun seed digest => ⟨rfl, by simp [tailCrypto, tagCrypto]⟩

def ownerTbs (createdAt : UInt64) : GenesisTbs where
  networkId := ⟨Vector.replicate 32 7⟩
  ownerId := deriveOwnerId tailCrypto (alice.publicKey tailCrypto)
  ownerRootSigningPublicKey := alice.publicKey tailCrypto
  createdAt := createdAt

/-- The record of the owner. -/
def ownerGenesis (createdAt : UInt64) : Genesis := Genesis.create tailCrypto (ownerTbs createdAt) alice

/-- The same network and owner id, with a key of somebody else. -/
def malloryGenesis : Genesis :=
  Genesis.create tailCrypto { ownerTbs 10 with ownerRootSigningPublicKey := mallory.publicKey tailCrypto } mallory

def pin : ObjectId := deriveGenesisId tailCrypto (ownerTbs 10).networkId (ownerTbs 10).ownerId

/-- All texts that are hashed for two records, those that are signed among them. -/
def texts (a b : Genesis) : List (List UInt8) :=
  [a, b].flatMap fun g =>
    [utf8 "FORTIQ-GENESIS-ID-V5" ++ utf8 ":" ++ (g.tbs.networkId.bytes.toList ++ g.tbs.ownerId.bytes.toList),
      utf8 "FORTIQ-KEY-ID-V5" ++ utf8 ":" ++ g.tbs.ownerRootSigningPublicKey.bytes.toList,
      utf8 genesisSigDomain ++ utf8 ":" ++ g.tbs.bytes]

theorem hashed_subset (a b : Genesis) : a.hashed ∪ b.hashed ⊆ {t | t ∈ texts a b} := by
  rintro t ((rfl | rfl) | (rfl | rfl)) <;> simp [texts]

theorem injOn_texts {a b : Genesis}
    (h : ∀ x ∈ texts a b, ∀ y ∈ texts a b, (tailDigest x).toList = (tailDigest y).toList → x = y) :
    Set.InjOn tailCrypto.blake3 {t | t ∈ texts a b} :=
  fun x hx y hy hxy => h x hx y hy (congrArg Vector.toList hxy)

/-- The theorem for the record of the owner and the same record of a later day. -/
theorem pinned_key_iff_renewed :
    (ownerGenesis 10).tbs.ownerRootSigningPublicKey = (ownerGenesis 20).tbs.ownerRootSigningPublicKey ↔
      (ownerGenesis 20).tbs.ownerId = deriveOwnerId tailCrypto (ownerGenesis 20).tbs.ownerRootSigningPublicKey := by
  have hfree := injOn_texts (a := ownerGenesis 10) (b := ownerGenesis 20) (by decide +kernel)
  have hpins : ∀ createdAt, (ownerGenesis createdAt).verifyPinned tailCrypto pin = .ok () :=
    fun createdAt => own_key_passes tailCrypto_signs (ownerTbs createdAt) alice
  exact (pinned_key_iff pin (ownerGenesis 10) (ownerGenesis 20) (hfree.mono (hashed_subset _ _)) (hpins 10) (hpins 20)).2.2 rfl

/-- Both records pass the pin, and no two texts have one digest; but the second has another key, and its owner id is
not that of its key. -/
theorem pinned_key_replaced :
    Set.InjOn tailCrypto.blake3 {t | t ∈ texts (ownerGenesis 10) malloryGenesis} ∧
      (ownerGenesis 10).verifyPinned tailCrypto pin = .ok () ∧ malloryGenesis.verifyPinned tailCrypto pin = .ok () ∧
      (ownerGenesis 10).tbs.ownerRootSigningPublicKey ≠ malloryGenesis.tbs.ownerRootSigningPublicKey ∧
      malloryGenesis.tbs.ownerId ≠ deriveOwnerId tailCrypto malloryGenesis.tbs.ownerRootSigningPublicKey :=
  ⟨injOn_texts (by decide +kernel), own_key_passes tailCrypto_signs (ownerTbs 10) alice,
    own_key_passes tailCrypto_signs (ownerTbs 10) mallory, by decide +kernel, by decide +kernel⟩

end GenesisSample

end Fortiq
