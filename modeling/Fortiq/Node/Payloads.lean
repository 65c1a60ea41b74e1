/-
Signed payloads say one thing. A session key signs three kinds of requests, under one domain: the answer to a shell
challenge, the proof of a session for an operation, and the change of a ticket's state. Their payloads begin
differently, and the fields of each have fixed widths or come after their lengths; so as long as lengths fit in 32
bits, a payload is the payload of one request only. The bytes signed for objects, certificates and the session proofs
of the authority module are told apart in the same way.
-/
import Fortiq.Event.Table
import Fortiq.Node.Statement

namespace Fortiq

/-! ## Requests under a session key -/

/-- What a session key signs. -/
inductive SessionRequest where
  | shell (networkId : NetworkId) (ticketId operatorTransportPeerId : String) (challenge : Challenge)
  | proof (operation ticketId requestId : String) (createdAt : UInt64) (content : List UInt8) (transportPeerId : String)
  | mutation (networkId : NetworkId) (ticketId : String) (expectedRevision : UInt64) (newState : TicketState)
      (requestId : Vector UInt8 16) (operatorTransportPeerId : String)

/-- The request a mutation makes; its certificate and its signature are not part of it. -/
def TicketStateMutation.request (m : TicketStateMutation) : SessionRequest :=
  .mutation m.networkId m.ticketId m.expectedRevision m.newState m.requestId m.operatorTransportPeerId

namespace SessionRequest

def payload : SessionRequest → List UInt8
  | shell networkId ticketId peer challenge => ShellNextHandshake.signingPayload networkId ticketId peer challenge
  | proof operation ticketId requestId createdAt content peer =>
    OperatorSessionProof.signingPayload operation ticketId requestId createdAt content peer
  | mutation networkId ticketId expectedRevision newState requestId peer =>
    utf8 TicketStateMutation.signatureDomain ++ networkId.bytes.toList ++ lengthPrefixed (utf8 ticketId) ++
      beBytes expectedRevision ++ [newState.code] ++ requestId.toList ++ lengthPrefixed (utf8 peer)

/-- The payload of a mutation is that of its request. -/
theorem payload_request (m : TicketStateMutation) : m.request.payload = m.signingPayload := rfl

/-- The strings of the request are shorter than 2^32 bytes. -/
def Short : SessionRequest → Prop
  | shell _ ticketId peer _ => (utf8 ticketId).length < 2 ^ 32 ∧ (utf8 peer).length < 2 ^ 32
  | proof operation ticketId requestId _ content peer =>
    (utf8 operation).length < 2 ^ 32 ∧ (utf8 ticketId).length < 2 ^ 32 ∧ (utf8 requestId).length < 2 ^ 32 ∧
      content.length < 2 ^ 32 ∧ (utf8 peer).length < 2 ^ 32
  | mutation _ ticketId _ _ _ peer => (utf8 ticketId).length < 2 ^ 32 ∧ (utf8 peer).length < 2 ^ 32

end SessionRequest

theorem delimits_string : DelimitsOn {s : String | (utf8 s).length < 2 ^ 32} (fun s => lengthPrefixed (utf8 s)) :=
  fun _ ha _ hb x y h =>
    have hab := delimits_lengthPrefixed _ ha _ hb x y h
    ⟨utf8_injective hab.1, hab.2⟩

theorem delimits_requestId : DelimitsOn Set.univ (fun i : Vector UInt8 16 => i.toList) :=
  .of_length (n := 16) (fun i => by simp) fun _ _ _ _ h => Vector.toList_inj.1 h

theorem delimits_state : DelimitsOn Set.univ (fun s : TicketState => [s.code]) :=
  .of_length (n := 1) (fun _ => rfl) fun a _ b _ h => by revert h; cases a <;> cases b <;> decide

theorem proof_payload_inj {o o' t t' r r' p p' : String} {a a' : UInt64} {c c' : List UInt8}
    (hs : (SessionRequest.proof o t r a c p).Short) (hs' : (SessionRequest.proof o' t' r' a' c' p').Short)
    (h : OperatorSessionProof.signingPayload o t r a c p = OperatorSessionProof.signingPayload o' t' r' a' c' p') :
    o = o' ∧ t = t' ∧ r = r' ∧ a = a' ∧ c = c' ∧ p = p' := by
  obtain ⟨ho, ht, hr, hc, hp⟩ := hs
  obtain ⟨ho', ht', hr', hc', hp'⟩ := hs'
  simp only [OperatorSessionProof.signingPayload, List.flatMap_cons, List.flatMap_nil, List.append_nil,
    List.append_assoc, List.append_cancel_left_eq] at h
  obtain ⟨ho, h⟩ := delimits_string _ ho _ ho' _ _ h
  obtain ⟨ht, h⟩ := delimits_string _ ht _ ht' _ _ h
  obtain ⟨hr, h⟩ := delimits_string _ hr _ hr' _ _ h
  obtain ⟨hc, h⟩ := delimits_lengthPrefixed _ hc _ hc' _ _ h
  obtain ⟨hp, h⟩ := delimits_string _ hp _ hp' _ _ h
  exact ⟨ho, ht, hr, beBytes_injective h, hc, hp⟩

theorem mutation_payload_inj {n n' : NetworkId} {t t' p p' : String} {e e' : UInt64} {s s' : TicketState}
    {i i' : Vector UInt8 16} (hs : (SessionRequest.mutation n t e s i p).Short)
    (hs' : (SessionRequest.mutation n' t' e' s' i' p').Short)
    (h : (SessionRequest.mutation n t e s i p).payload = (SessionRequest.mutation n' t' e' s' i' p').payload) :
    n = n' ∧ t = t' ∧ e = e' ∧ s = s' ∧ i = i' ∧ p = p' := by
  obtain ⟨ht, hp⟩ := hs
  obtain ⟨ht', hp'⟩ := hs'
  simp only [SessionRequest.payload, List.append_assoc, List.append_cancel_left_eq] at h
  obtain ⟨hn, h⟩ := delimits_objectId _ trivial _ trivial _ _ h
  obtain ⟨ht, h⟩ := delimits_string _ ht _ ht' _ _ h
  obtain ⟨he, h⟩ := delimits_beBytes _ trivial _ trivial _ _ h
  obtain ⟨hs, h⟩ := delimits_state _ trivial _ trivial _ _ h
  obtain ⟨hi, h⟩ := delimits_requestId _ trivial _ trivial _ _ h
  exact ⟨hn, ht, he, hs, hi, delimits_string.injOn hp hp' h⟩

namespace SessionRequest

/-- What the payload of a request begins with. -/
def domain : SessionRequest → String
  | shell .. => ShellNextHandshake.signatureDomain
  | proof .. => OperatorSessionProof.signatureDomain
  | mutation .. => TicketStateMutation.signatureDomain

theorem payload_begins (r : SessionRequest) : ∃ rest, r.payload = utf8 r.domain ++ rest := by
  cases r <;> exact ⟨_, by simp only [payload, domain, ShellNextHandshake.signingPayload,
    OperatorSessionProof.signingPayload, List.append_assoc]; rfl⟩

/-- The kind of a request is told by its payload. -/
theorem domain_eq {r r' : SessionRequest} (h : r.payload = r'.payload) : r.domain = r'.domain := by
  obtain ⟨rest, hr⟩ := r.payload_begins
  obtain ⟨rest', hr'⟩ := r'.payload_begins
  rw [hr, hr'] at h
  -- no domain begins with another
  have happart : ∀ d ∈ [ShellNextHandshake.signatureDomain, OperatorSessionProof.signatureDomain,
      TicketStateMutation.signatureDomain], ∀ d' ∈ [ShellNextHandshake.signatureDomain,
      OperatorSessionProof.signatureDomain, TicketStateMutation.signatureDomain], utf8 d <+: utf8 d' → d = d' := by
    decide +kernel
  have hmem : ∀ r : SessionRequest, r.domain ∈ [ShellNextHandshake.signatureDomain,
      OperatorSessionProof.signatureDomain, TicketStateMutation.signatureDomain] := by
    intro r
    cases r <;> simp [domain]
  rcases begins_of_append_eq h with hp | hp
  · exact happart _ (hmem r) _ (hmem r') hp
  · exact (happart _ (hmem r') _ (hmem r) hp).symm

/-- A payload with short strings is the payload of one request. -/
theorem payload_injOn : Set.InjOn payload {r | r.Short} := by
  intro r hr r' hr' h
  have hdomain := domain_eq h
  cases r with
  | shell =>
    cases r' with
    | shell =>
      obtain ⟨rfl, rfl, rfl, rfl⟩ := shell_payload_inj hr.1 hr'.1 hr.2 hr'.2 h
      rfl
    | _ =>
      simp only [domain] at hdomain
      exact absurd hdomain (by decide)
  | proof =>
    cases r' with
    | proof =>
      obtain ⟨rfl, rfl, rfl, rfl, rfl, rfl⟩ := proof_payload_inj hr hr' h
      rfl
    | _ =>
      simp only [domain] at hdomain
      exact absurd hdomain (by decide)
  | mutation =>
    cases r' with
    | mutation =>
      obtain ⟨rfl, rfl, rfl, rfl, rfl, rfl⟩ := mutation_payload_inj hr hr' h
      rfl
    | _ =>
      simp only [domain] at hdomain
      exact absurd hdomain (by decide)

end SessionRequest

/-! ## Signatures -/

/-- A signature verifies under a key for one digest at most. -/
def Crypto.OneDigest (crypto : Crypto) : Prop :=
  ∀ key digest digest' signature, crypto.verifyStrict key digest signature = true →
    crypto.verifyStrict key digest' signature = true → digest = digest'

/-- A signature that is valid for two requests, whose texts do not collide, is a signature of one request. -/
theorem request_of_signature {crypto : Crypto} (hone : crypto.OneDigest) {r r' : SessionRequest} (hr : r.Short)
    (hr' : r'.Short)
    (hfree : Set.InjOn crypto.blake3
      {Statement.message objectSigDomain r.payload, Statement.message objectSigDomain r'.payload})
    {key : PublicKey} {signature : List UInt8} (h : (verifyBytes crypto key r.payload signature).isOk = true)
    (h' : (verifyBytes crypto key r'.payload signature).isOk = true) : r = r' := by
  obtain ⟨_, hv⟩ := verifyBytes_isOk h
  obtain ⟨_, hv'⟩ := verifyBytes_isOk h'
  have htext := hfree (.inl rfl) (.inr rfl) (hone _ _ _ _ hv hv')
  exact SessionRequest.payload_injOn hr hr' (message_eq_iff.1 htext)

/-! ## Objects, certificates and session proofs -/

theorem object_tbs_inj {k k' : PublicKey} {a a' : UInt64} {p p' : List UInt8}
    (h : SignedObject.computeTbsBytes k a p = SignedObject.computeTbsBytes k' a' p') : k = k' ∧ a = a' ∧ p = p' := by
  simp only [SignedObject.computeTbsBytes, List.append_assoc] at h
  obtain ⟨hk, h⟩ := delimits_publicKey _ trivial _ trivial _ _ h
  obtain ⟨ha, h⟩ := delimits_leBytes _ trivial _ trivial _ _ h
  exact ⟨hk, ha, h⟩

/-- The peer id comes first and has any length; what follows it has 52 bytes. -/
theorem session_proof_tbs_inj {p p' : String} {k k' : PublicKey} {c c' : OperatorCapabilities} {a a' x x' : UInt64}
    (h : Authority.OperatorSessionProof.computeTbsBytes p k c a x =
      Authority.OperatorSessionProof.computeTbsBytes p' k' c' a' x') :
    p = p' ∧ k = k' ∧ c = c' ∧ a = a' ∧ x = x' := by
  simp only [Authority.OperatorSessionProof.computeTbsBytes, List.append_assoc] at h
  obtain ⟨hp, h⟩ := List.append_inj' h (by simp [leBytes32, leBytes])
  obtain ⟨hk, h⟩ := delimits_publicKey _ trivial _ trivial _ _ h
  obtain ⟨hc, h⟩ := delimits_leBytes32 _ trivial _ trivial _ _ h
  obtain ⟨ha, h⟩ := delimits_leBytes _ trivial _ trivial _ _ h
  refine ⟨utf8_injective hp, hk, ?_, ha, leBytes_injective h⟩
  cases c
  cases c'
  exact congrArg OperatorCapabilities.mk hc

/-- Signed payloads say one thing. Requests under a session key with short strings have payloads of their own, among
all three kinds, so that a signature for one is valid for no other where BLAKE3 does not collide on their texts and a
signature verifies for one digest; and the bytes signed for objects, for certificates and for the session proofs of
the authority module determine their arguments. -/
theorem signed_payloads_say_one_thing :
    Set.InjOn SessionRequest.payload {r | r.Short} ∧
    (∀ crypto : Crypto, crypto.OneDigest → ∀ r r' : SessionRequest, r.Short → r'.Short →
      Set.InjOn crypto.blake3
        {Statement.message objectSigDomain r.payload, Statement.message objectSigDomain r'.payload} →
      ∀ key signature, (verifyBytes crypto key r.payload signature).isOk = true →
        (verifyBytes crypto key r'.payload signature).isOk = true → r = r') ∧
    (∀ k a p k' a' p', SignedObject.computeTbsBytes k a p = SignedObject.computeTbsBytes k' a' p' →
      k = k' ∧ a = a' ∧ p = p') ∧
    (∀ n o e k s c a x n' o' e' k' s' c' a' x', OperatorSessionCertificate.computeTbsBytes n o e k s c a x =
        OperatorSessionCertificate.computeTbsBytes n' o' e' k' s' c' a' x' →
      n = n' ∧ o = o' ∧ e = e' ∧ k = k' ∧ s = s' ∧ c = c' ∧ a = a' ∧ x = x') ∧
    ∀ p k c a x p' k' c' a' x', Authority.OperatorSessionProof.computeTbsBytes p k c a x =
        Authority.OperatorSessionProof.computeTbsBytes p' k' c' a' x' →
      p = p' ∧ k = k' ∧ c = c' ∧ a = a' ∧ x = x' :=
  ⟨SessionRequest.payload_injOn,
    fun _ hone _ _ hr hr' hfree _ _ h h' => request_of_signature hone hr hr' hfree h h',
    fun _ _ _ _ _ _ => object_tbs_inj, fun _ _ _ _ _ _ _ _ _ _ _ _ _ _ _ _ => certificate_tbs_inj,
    fun _ _ _ _ _ _ _ _ _ _ => session_proof_tbs_inj⟩

namespace PayloadSample

theorem tagCrypto_oneDigest : tagCrypto.OneDigest := by
  intro key digest digest' signature h h'
  simp only [tagCrypto, decide_eq_true_eq] at h h'
  exact Vector.toList_inj.1 (List.append_cancel_left (h.symm.trans h'))

def answer : SessionRequest := .shell ⟨Vector.replicate 32 7⟩ "T-aaaaaaaa" "operator" (Vector.replicate 32 9)

def change : SessionRequest :=
  .mutation ⟨Vector.replicate 32 7⟩ "T-aaaaaaaa" 3 .closed (Vector.replicate 16 1) "peer"

/-- The signature under the answer to a challenge. -/
def signature : List UInt8 := (alice.signDomain tagCrypto objectSigDomain answer.payload).bytes.toList

/-- The theorem for the answer to a challenge: its signature is valid for it, and not for a change of the ticket. -/
theorem signed_payloads_say_one_thing_answer :
    (verifyBytes tagCrypto (alice.publicKey tagCrypto) answer.payload signature).isOk = true ∧
      (verifyBytes tagCrypto (alice.publicKey tagCrypto) change.payload signature).isOk = false := by
  have hvalid : (verifyBytes tagCrypto (alice.publicKey tagCrypto) answer.payload signature).isOk = true := by
    decide +kernel
  have hshort : answer.Short ∧ change.Short := by
    refine ⟨⟨?_, ?_⟩, ?_, ?_⟩ <;> decide +kernel
  have hapart : (tagCrypto.blake3 (Statement.message objectSigDomain answer.payload)).toList ≠
      (tagCrypto.blake3 (Statement.message objectSigDomain change.payload)).toList := by decide +kernel
  have hfree : Set.InjOn tagCrypto.blake3
      {Statement.message objectSigDomain answer.payload, Statement.message objectSigDomain change.payload} := by
    rintro x (rfl | rfl) y (rfl | rfl) hxy
    · rfl
    · exact absurd (congrArg Vector.toList hxy) hapart
    · exact absurd (congrArg Vector.toList hxy.symm) hapart
    · rfl
  refine ⟨hvalid, ?_⟩
  by_contra hchange
  rw [Bool.not_eq_false] at hchange
  have heq := signed_payloads_say_one_thing.2.1 tagCrypto tagCrypto_oneDigest answer change hshort.1 hshort.2 hfree _ _
    hvalid hchange
  cases heq

end PayloadSample

end Fortiq
