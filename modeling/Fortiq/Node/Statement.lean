/-
What keys sign. Certificates, shell handshakes, session proofs and ticket mutations are signed as bytes under two
domains, the last three under one; their beginnings differ and their fields mark their own ends, so the bytes of a
certificate or of a shell handshake belong to no other statement.
-/
import Fortiq.Object.Fields
import Fortiq.Shell.Handshake

namespace Fortiq

theorem delimits_lengthPrefixed : DelimitsOn {l : List UInt8 | l.length < 2 ^ 32} lengthPrefixed :=
  delimits_length.length_first

/-! ## Statements -/

/-- What a signature can stand for: the four records the code signs, each by its fields, and anything else by the
bytes that are hashed. -/
inductive Statement where
  | certificate (networkId : NetworkId) (ownerId : OwnerId) (hostEntity : EntityId) (operatorKeyId : KeyId)
      (sessionPubkey : PublicKey) (capabilities : OperatorCapabilities) (createdAt expiresAt : UInt64)
  | shell (networkId : NetworkId) (ticketId operatorTransportPeerId : String) (challenge : Challenge)
  | proof (operation ticketId requestId : String) (createdAt : UInt64) (content : List UInt8) (transportPeerId : String)
  | mutation (m : TicketStateMutation)
  | other (bytes : List UInt8)

namespace Statement

/-- The bytes whose digest is signed for a payload under a domain. -/
def message (domain : String) (payload : List UInt8) : List UInt8 := utf8 domain ++ utf8 ":" ++ payload

def bytes : Statement → List UInt8
  | certificate networkId ownerId hostEntity operatorKeyId sessionPubkey capabilities createdAt expiresAt =>
    message operatorCertDomain (OperatorSessionCertificate.computeTbsBytes networkId ownerId hostEntity operatorKeyId
      sessionPubkey capabilities createdAt expiresAt)
  | shell networkId ticketId operatorTransportPeerId challenge =>
    message objectSigDomain (ShellNextHandshake.signingPayload networkId ticketId operatorTransportPeerId challenge)
  | proof operation ticketId requestId createdAt content transportPeerId =>
    message objectSigDomain
      (OperatorSessionProof.signingPayload operation ticketId requestId createdAt content transportPeerId)
  | mutation m => message objectSigDomain m.signingPayload
  | other bytes => bytes

end Statement

/-- The signatures that have been made. -/
abbrev SigningLog := List (PublicKey × Statement)

namespace SigningLog

/-- The key has signed these bytes. -/
def Backs (log : SigningLog) (key : PublicKey) (bytes : List UInt8) : Prop := ∃ m, (key, m) ∈ log ∧ m.bytes = bytes

/-- The key has signed the statement: as such, or, if it signs outside the four records, its bytes. -/
def Says (log : SigningLog) (key : PublicKey) (m : Statement) : Prop :=
  (key, m) ∈ log ∨ (key, .other m.bytes) ∈ log

end SigningLog

/-! ## The bytes of a statement -/

/-- The tail of a text in which the domain ends. -/
theorem message_eq_iff {domain : String} {x y : List UInt8} :
    Statement.message domain x = Statement.message domain y ↔ x = y := by simp [Statement.message]

/-- Certificates and the other three are signed under domains that differ. -/
theorem message_cert_ne_object {x y : List UInt8} :
    Statement.message operatorCertDomain x ≠ Statement.message objectSigDomain y := by
  intro h
  rcases begins_of_append_eq h with hp | hp <;> revert hp <;> decide +kernel

theorem shell_ne_proof (networkId : NetworkId) (t peer : String) (challenge : Challenge) (operation t' requestId : String)
    (createdAt : UInt64) (content : List UInt8) (peer' : String) :
    ShellNextHandshake.signingPayload networkId t peer challenge ≠
      OperatorSessionProof.signingPayload operation t' requestId createdAt content peer' := by
  intro h
  simp only [ShellNextHandshake.signingPayload, OperatorSessionProof.signingPayload, List.append_assoc] at h
  rcases begins_of_append_eq h with hp | hp <;> revert hp <;> decide +kernel

theorem shell_ne_mutation (networkId : NetworkId) (t peer : String) (challenge : Challenge) (m : TicketStateMutation) :
    ShellNextHandshake.signingPayload networkId t peer challenge ≠ m.signingPayload := by
  intro h
  simp only [ShellNextHandshake.signingPayload, TicketStateMutation.signingPayload, List.append_assoc] at h
  rcases begins_of_append_eq h with hp | hp <;> revert hp <;> decide +kernel

/-- A shell payload says one thing, as long as its texts are short. -/
theorem shell_payload_inj {n n' : NetworkId} {t t' p p' : String} {c c' : Challenge}
    (ht : (utf8 t).length < 2 ^ 32) (ht' : (utf8 t').length < 2 ^ 32) (hp : (utf8 p).length < 2 ^ 32)
    (hp' : (utf8 p').length < 2 ^ 32)
    (h : ShellNextHandshake.signingPayload n t p c = ShellNextHandshake.signingPayload n' t' p' c') :
    n = n' ∧ t = t' ∧ p = p' ∧ c = c' := by
  simp only [ShellNextHandshake.signingPayload, List.append_assoc, List.append_cancel_left_eq] at h
  obtain ⟨hn, h⟩ := delimits_objectId _ trivial _ trivial _ _ h
  obtain ⟨ht, h⟩ := delimits_lengthPrefixed _ ht _ ht' _ _ h
  obtain ⟨hp, h⟩ := delimits_lengthPrefixed _ hp _ hp' _ _ h
  exact ⟨hn, utf8_injective ht, utf8_injective hp, Vector.toList_inj.1 h⟩

theorem length_shell_payload (n : NetworkId) (t p : String) (c : Challenge) :
    (ShellNextHandshake.signingPayload n t p c).length =
      (utf8 ShellNextHandshake.signatureDomain).length + (utf8 t).length + (utf8 p).length + 72 := by
  simp only [ShellNextHandshake.signingPayload, lengthPrefixed, beBytes32, leBytes32, List.length_append, List.length_reverse,
    List.length_map, List.length_range, Vector.length_toList]
  omega

/-- The fields of a certificate have fixed widths. -/
theorem certificate_tbs_inj {n n' : NetworkId} {o o' : OwnerId} {e e' : EntityId} {k k' : KeyId} {s s' : PublicKey}
    {c c' : OperatorCapabilities} {a a' x x' : UInt64}
    (h : OperatorSessionCertificate.computeTbsBytes n o e k s c a x =
      OperatorSessionCertificate.computeTbsBytes n' o' e' k' s' c' a' x') :
    n = n' ∧ o = o' ∧ e = e' ∧ k = k' ∧ s = s' ∧ c = c' ∧ a = a' ∧ x = x' := by
  simp only [OperatorSessionCertificate.computeTbsBytes, List.append_assoc] at h
  obtain ⟨hn, h⟩ := delimits_objectId _ trivial _ trivial _ _ h
  obtain ⟨ho, h⟩ := delimits_objectId _ trivial _ trivial _ _ h
  obtain ⟨he, h⟩ := delimits_objectId _ trivial _ trivial _ _ h
  obtain ⟨hk, h⟩ := delimits_objectId _ trivial _ trivial _ _ h
  obtain ⟨hs, h⟩ := delimits_publicKey _ trivial _ trivial _ _ h
  obtain ⟨hc, h⟩ := delimits_leBytes32 _ trivial _ trivial _ _ h
  obtain ⟨ha, h⟩ := delimits_leBytes _ trivial _ trivial _ _ h
  refine ⟨hn, ho, he, hk, hs, ?_, ha, leBytes_injective h⟩
  cases c; cases c'; exact congrArg OperatorCapabilities.mk hc

namespace SigningLog

variable {log : SigningLog} {key : PublicKey}

/-- The bytes of a certificate are signed only as that certificate. -/
theorem Backs.certificate {n : NetworkId} {o : OwnerId} {e : EntityId} {k : KeyId} {s : PublicKey}
    {c : OperatorCapabilities} {a x : UInt64} (h : log.Backs key (Statement.certificate n o e k s c a x).bytes) :
    log.Says key (.certificate n o e k s c a x) := by
  obtain ⟨m, hm, hb⟩ := h
  cases m with
  | certificate =>
    obtain ⟨rfl, rfl, rfl, rfl, rfl, rfl, rfl, rfl⟩ := certificate_tbs_inj (message_eq_iff.1 hb)
    exact .inl hm
  | other bytes => exact .inr (hb ▸ hm)
  | _ => exact (message_cert_ne_object hb.symm).elim

/-- The bytes of a short shell handshake are signed only as that handshake. -/
theorem Backs.shell {n : NetworkId} {t p : String} {c : Challenge} (hshort : (utf8 t).length + (utf8 p).length < 2 ^ 32)
    (h : log.Backs key (Statement.shell n t p c).bytes) : log.Says key (.shell n t p c) := by
  obtain ⟨m, hm, hb⟩ := h
  cases m with
  | certificate => exact (message_cert_ne_object hb).elim
  | shell n' t' p' c' =>
    have hpay := message_eq_iff.1 hb
    -- the signed texts are as long in all as those that were read, so they are short too
    have hlen := congrArg List.length hpay
    rw [length_shell_payload, length_shell_payload] at hlen
    obtain ⟨rfl, rfl, rfl, rfl⟩ := shell_payload_inj (by omega) (by omega) (by omega) (by omega) hpay
    exact .inl hm
  | proof => exact (shell_ne_proof _ _ _ _ _ _ _ _ _ _ (message_eq_iff.1 hb).symm).elim
  | mutation => exact (shell_ne_mutation _ _ _ _ _ (message_eq_iff.1 hb).symm).elim
  | other bytes => exact .inr (hb ▸ hm)

end SigningLog

end Fortiq
