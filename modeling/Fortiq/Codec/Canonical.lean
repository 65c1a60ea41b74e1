/-
The codec of the control records (`fortiq-core/src/codec.rs`). `to_canonical_cbor` writes a record in its shortest form.
`from_canonical_cbor` goes over its input three times: the scanner sees all of it, but the check of the limits and the
typed reader see the first item only, and neither sees how that item was written. So a record has more encodings than
its canonical one: bytes are the canonical ones of a record exactly if they are one item, each of its heads is the
shortest, and it has the fields of the record in the order of their declaration.
-/
import Fortiq.Authority.Policy
import Fortiq.Codec.Scan
import Fortiq.Lib.CborShortest

namespace Fortiq

open Cbor

/-! ## Limits -/

structure DecoderLimits where
  maxInputBytes : Nat
  maxDepth : Nat
  maxContainerLen : Nat
  maxBytesLen : Nat
deriving DecidableEq, Repr

/-- The limits for small control records. -/
def DecoderLimits.control : DecoderLimits where
  maxInputBytes := 64 * 1024
  maxDepth := 6
  maxContainerLen := 128
  maxBytesLen := 16 * 1024

/-- `ciborium::Value` -/
inductive Value where
  | integer (n : Int)
  | bytes (b : List UInt8)
  | float (bits : UInt64)
  | text (t : String)
  | bool (b : Bool)
  | null
  | tag (n : UInt64) (inner : Value)
  | array (arr : List Value)
  | map (entries : List (Value × Value))

def checkLen (length max : Nat) : Except CodecError Unit :=
  if length > max then .error (.containerTooLarge length max) else .ok ()

mutual

def validateCborValue (limits : DecoderLimits) : Value → Nat → Except CodecError Unit
  | val, currentDepth =>
    if currentDepth > limits.maxDepth then .error (.maxDepthExceeded currentDepth limits.maxDepth)
    else
      match val with
      | .array arr => do
        checkLen arr.length limits.maxContainerLen
        validateItems limits arr (currentDepth + 1)
      | .map entries => do
        checkLen entries.length limits.maxContainerLen
        validateEntries limits entries (currentDepth + 1)
      | .bytes b => checkLen b.length limits.maxBytesLen
      | .text t => checkLen (utf8 t).length limits.maxBytesLen
      | .tag _ inner => validateCborValue limits inner (currentDepth + 1)
      | _ => .ok ()

def validateItems (limits : DecoderLimits) : List Value → Nat → Except CodecError Unit
  | [], _ => .ok ()
  | item :: arr, depth => do
    validateCborValue limits item depth
    validateItems limits arr depth

def validateEntries (limits : DecoderLimits) : List (Value × Value) → Nat → Except CodecError Unit
  | [], _ => .ok ()
  | (k, v) :: entries, depth => do
    validateCborValue limits k depth
    validateCborValue limits v depth
    validateEntries limits entries depth

end

/-! ## The library -/

/-- `ciborium::from_reader` at one type: it decodes the first item of the bytes and ignores what follows it. What it
makes of the item, and the text of its errors, are left open. -/
structure Reader (α : Type) where
  item : Data → Option α
  message : List UInt8 → String

def Reader.fromReader {α : Type} (r : Reader α) (bytes : List UInt8) : Except String α :=
  match (parse bytes).bind fun p => r.item p.1 with
  | some a => .ok a
  | none => .error (r.message bytes)

/-- The two readers that a record of type `T` goes through. -/
structure Ciborium (T : Type) where
  value : Reader Value
  record : Reader T

/-- The item that the serializer of a type makes of a value; it is nested no deeper than the scanner goes. -/
class Serialize (T : Type) where
  serialize : T → Data
  sized : ∀ v, (serialize v).Sized
  nested : ∀ v, (serialize v).height ≤ 33

/-- `ciborium::into_writer`: the shortest definite-length encoding. -/
def intoWriter {T : Type} [Serialize T] (value : T) : Except String (List UInt8) :=
  .ok (Serialize.serialize value).encode

/-! ## The records -/

instance : Serialize ObjectId where
  serialize id := .bytes id.bytes.toList
  sized id := by simp [Data.Sized]
  nested _ := Nat.le_of_ble_eq_true rfl

instance : Serialize PublicKey where
  serialize key := .bytes key.bytes.toList
  sized key := by simp [Data.Sized]
  nested _ := Nat.le_of_ble_eq_true rfl

instance : Serialize Signature where
  serialize signature := .bytes signature.bytes.toList
  sized signature := by simp [Data.Sized]
  nested _ := Nat.le_of_ble_eq_true rfl

instance : Serialize UInt64 where
  serialize n := .unsigned n
  sized _ := trivial
  nested _ := Nat.le_of_ble_eq_true rfl

/-- A newtype: the number alone. -/
instance : Serialize OperatorCapabilities where
  serialize capabilities := .unsigned capabilities.bits.toUInt64
  sized _ := trivial
  nested _ := Nat.le_of_ble_eq_true rfl

/-- A derived serializer writes a map from the names of the fields, in the order of their declaration. -/
def serializeStruct (fields : List (String × Data)) : Data :=
  .map (fields.map fun field => (.text (utf8 field.1), field.2))

theorem sized_struct {fields : List (String × Data)} (hlen : fields.length < 2 ^ 64)
    (hfields : ∀ field ∈ fields, (utf8 field.1).length < 2 ^ 64 ∧ field.2.Sized) : (serializeStruct fields).Sized := by
  have hentries : ∀ l : List (String × Data), (∀ field ∈ l, (utf8 field.1).length < 2 ^ 64 ∧ field.2.Sized) →
      SizedEntries (l.map fun field => (.text (utf8 field.1), field.2)) := by
    intro l hl
    induction l with
    | nil => trivial
    | cons field l ih =>
      have hfield := hl field List.mem_cons_self
      exact ⟨hfield.1, hfield.2, ih fun f hf => hl f (List.mem_cons_of_mem _ hf)⟩
  exact ⟨by rwa [List.length_map], hentries fields hfields⟩

open Serialize in
instance : Serialize GenesisTbs where
  serialize tbs := serializeStruct [("network_id", serialize tbs.networkId), ("owner_id", serialize tbs.ownerId),
    ("owner_root_signing_public_key", serialize tbs.ownerRootSigningPublicKey),
    ("created_at", serialize tbs.createdAt)]
  sized tbs := sized_struct (by simp) (by
    simp only [List.forall_mem_cons, List.not_mem_nil, false_imp_iff, implies_true, sized, and_true]
    decide)
  nested _ := by simp [serialize, serializeStruct, Data.height, heightEntries]

open Serialize in
instance : Serialize Genesis where
  serialize genesis := serializeStruct [("tbs", serialize genesis.tbs), ("signature", serialize genesis.signature)]
  sized genesis := sized_struct (by simp) (by
    simp only [List.forall_mem_cons, List.not_mem_nil, false_imp_iff, implies_true, sized, and_true]
    decide)
  nested _ := by simp [serialize, serializeStruct, Data.height, heightEntries]

open Serialize in
instance : Serialize OperatorSessionCertificate where
  serialize certificate := serializeStruct [("network_id", serialize certificate.networkId),
    ("owner_id", serialize certificate.ownerId), ("host_entity", serialize certificate.hostEntity),
    ("operator_key_id", serialize certificate.operatorKeyId),
    ("session_pubkey", serialize certificate.sessionPubkey),
    ("capabilities", serialize certificate.capabilities), ("created_at", serialize certificate.createdAt),
    ("expires_at", serialize certificate.expiresAt), ("signature", serialize certificate.signature)]
  sized certificate := sized_struct (by simp) (by
    simp only [List.forall_mem_cons, List.not_mem_nil, false_imp_iff, implies_true, sized, and_true]
    decide)
  nested _ := by simp [serialize, serializeStruct, Data.height, heightEntries]

/-! ## The shape of the records -/

/-- The items that a serializer writes, told by their shape. -/
class Schema (T : Type) [Serialize T] where
  describes : Data → Bool
  describes_iff : ∀ d, describes d = true ↔ ∃ v : T, d = Serialize.serialize v

/-- A byte string of a length. -/
def isBytes (n : Nat) : Data → Bool
  | .bytes l => l.length = n
  | _ => false

theorem isBytes_iff {n : Nat} {d : Data} : isBytes n d = true ↔ ∃ b : Vector UInt8 n, d = .bytes b.toList := by
  constructor
  · intro h
    cases d with
    | bytes l =>
      have hlen : l.length = n := by simpa [isBytes] using h
      exact ⟨⟨l.toArray, by simpa using hlen⟩, rfl⟩
    | _ => cases h
  · rintro ⟨b, rfl⟩
    simp [isBytes]

/-- A number below a bound. -/
def isUnsigned (bound : Nat) : Data → Bool
  | .unsigned n => n.toNat < bound
  | _ => false

theorem isUnsigned_iff {bound : Nat} {d : Data} :
    isUnsigned bound d = true ↔ ∃ n : UInt64, n.toNat < bound ∧ d = .unsigned n := by
  cases d <;> simp [isUnsigned]

/-- Entries with these names, in this order and no others, and what is asked of each value. -/
def hasFields : List (String × (Data → Bool)) → List (Data × Data) → Bool
  | [], [] => true
  | (name, describes) :: fields, (.text key, value) :: entries =>
    key = utf8 name && describes value && hasFields fields entries
  | _, _ => false

theorem hasFields_nil {entries : List (Data × Data)} : hasFields [] entries = true ↔ entries = [] := by
  cases entries <;> simp [hasFields]

theorem hasFields_cons {name : String} {describes : Data → Bool} {fields : List (String × (Data → Bool))}
    {entries : List (Data × Data)} : hasFields ((name, describes) :: fields) entries = true ↔
      ∃ value rest, entries = (.text (utf8 name), value) :: rest ∧ describes value = true ∧ hasFields fields rest = true := by
  constructor
  · intro h
    match entries with
    | (.text key, value) :: rest =>
      simp only [hasFields, Bool.and_eq_true, decide_eq_true_eq] at h
      exact ⟨value, rest, by rw [h.1.1], h.1.2, h.2⟩
  · rintro ⟨value, rest, rfl, hvalue, hrest⟩
    simp [hasFields, hvalue, hrest]

def isStruct (fields : List (String × (Data → Bool))) : Data → Bool
  | .map entries => hasFields fields entries
  | _ => false

theorem isStruct_iff {fields : List (String × (Data → Bool))} {d : Data} :
    isStruct fields d = true ↔ ∃ entries, d = .map entries ∧ hasFields fields entries = true := by
  cases d <;> simp [isStruct]

instance : Schema ObjectId where
  describes := isBytes 32
  describes_iff _ := isBytes_iff.trans ⟨fun ⟨b, h⟩ => ⟨⟨b⟩, h⟩, fun ⟨v, h⟩ => ⟨v.bytes, h⟩⟩

instance : Schema PublicKey where
  describes := isBytes 32
  describes_iff _ := isBytes_iff.trans ⟨fun ⟨b, h⟩ => ⟨⟨b⟩, h⟩, fun ⟨v, h⟩ => ⟨v.bytes, h⟩⟩

instance : Schema Signature where
  describes := isBytes 64
  describes_iff _ := isBytes_iff.trans ⟨fun ⟨b, h⟩ => ⟨⟨b⟩, h⟩, fun ⟨v, h⟩ => ⟨v.bytes, h⟩⟩

instance : Schema UInt64 where
  describes := isUnsigned (2 ^ 64)
  describes_iff _ := isUnsigned_iff.trans ⟨fun ⟨n, _, h⟩ => ⟨n, h⟩, fun ⟨n, h⟩ => ⟨n, n.toNat_lt, h⟩⟩

instance : Schema OperatorCapabilities where
  describes := isUnsigned (2 ^ 32)
  describes_iff _ := by
    rw [isUnsigned_iff]
    constructor
    · rintro ⟨n, hn, rfl⟩
      have hback : n.toUInt32.toUInt64 = n := by
        rw [← UInt64.toNat_inj, UInt32.toNat_toUInt64, UInt64.toNat_toUInt32, Nat.mod_eq_of_lt hn]
      exact ⟨⟨n.toUInt32⟩, congrArg Data.unsigned hback.symm⟩
    · rintro ⟨v, rfl⟩
      exact ⟨_, by simpa using v.bits.toNat_lt, rfl⟩

open Schema in
instance : Schema GenesisTbs where
  describes := isStruct [("network_id", describes NetworkId), ("owner_id", describes OwnerId),
    ("owner_root_signing_public_key", describes PublicKey), ("created_at", describes UInt64)]
  describes_iff _ := by
    simp only [isStruct_iff, hasFields_cons, hasFields_nil, describes_iff]
    constructor
    · rintro ⟨_, rfl, _, _, rfl, ⟨networkId, rfl⟩, _, _, rfl, ⟨ownerId, rfl⟩, _, _, rfl, ⟨ownerRootSigningPublicKey, rfl⟩,
        _, _, rfl, ⟨createdAt, rfl⟩, rfl⟩
      exact ⟨⟨networkId, ownerId, ownerRootSigningPublicKey, createdAt⟩, rfl⟩
    · rintro ⟨tbs, rfl⟩
      exact ⟨_, rfl, _, _, rfl, ⟨tbs.networkId, rfl⟩, _, _, rfl, ⟨tbs.ownerId, rfl⟩, _, _, rfl,
        ⟨tbs.ownerRootSigningPublicKey, rfl⟩, _, _, rfl, ⟨tbs.createdAt, rfl⟩, rfl⟩

open Schema in
instance : Schema Genesis where
  describes := isStruct [("tbs", describes GenesisTbs), ("signature", describes Signature)]
  describes_iff _ := by
    simp only [isStruct_iff, hasFields_cons, hasFields_nil, describes_iff]
    constructor
    · rintro ⟨_, rfl, _, _, rfl, ⟨tbs, rfl⟩, _, _, rfl, ⟨signature, rfl⟩, rfl⟩
      exact ⟨⟨tbs, signature⟩, rfl⟩
    · rintro ⟨genesis, rfl⟩
      exact ⟨_, rfl, _, _, rfl, ⟨genesis.tbs, rfl⟩, _, _, rfl, ⟨genesis.signature, rfl⟩, rfl⟩

open Schema in
instance : Schema OperatorSessionCertificate where
  describes := isStruct [("network_id", describes NetworkId), ("owner_id", describes OwnerId),
    ("host_entity", describes EntityId), ("operator_key_id", describes KeyId), ("session_pubkey", describes PublicKey),
    ("capabilities", describes OperatorCapabilities), ("created_at", describes UInt64), ("expires_at", describes UInt64),
    ("signature", describes Signature)]
  describes_iff _ := by
    simp only [isStruct_iff, hasFields_cons, hasFields_nil, describes_iff]
    constructor
    · rintro ⟨_, rfl, _, _, rfl, ⟨networkId, rfl⟩, _, _, rfl, ⟨ownerId, rfl⟩, _, _, rfl, ⟨hostEntity, rfl⟩, _, _, rfl,
        ⟨operatorKeyId, rfl⟩, _, _, rfl, ⟨sessionPubkey, rfl⟩, _, _, rfl, ⟨capabilities, rfl⟩, _, _, rfl,
        ⟨createdAt, rfl⟩, _, _, rfl, ⟨expiresAt, rfl⟩, _, _, rfl, ⟨signature, rfl⟩, rfl⟩
      exact ⟨⟨networkId, ownerId, hostEntity, operatorKeyId, sessionPubkey, capabilities, createdAt, expiresAt,
        signature⟩, rfl⟩
    · rintro ⟨c, rfl⟩
      exact ⟨_, rfl, _, _, rfl, ⟨c.networkId, rfl⟩, _, _, rfl, ⟨c.ownerId, rfl⟩, _, _, rfl, ⟨c.hostEntity, rfl⟩, _, _, rfl,
        ⟨c.operatorKeyId, rfl⟩, _, _, rfl, ⟨c.sessionPubkey, rfl⟩, _, _, rfl, ⟨c.capabilities, rfl⟩, _, _, rfl,
        ⟨c.createdAt, rfl⟩, _, _, rfl, ⟨c.expiresAt, rfl⟩, _, _, rfl, ⟨c.signature, rfl⟩, rfl⟩

/-! ## The codec -/

variable {t : Target}

def Scan.mapErr {ε α : Type} (x : Except ε α) (f : ε → CodecError) : Scan α := x.mapError fun e => .codec (f e)

def toCanonicalCbor {T : Type} [Serialize T] (value : T) : Scan (List UInt8) :=
  Scan.mapErr (intoWriter value) .encodingError

def fromCanonicalCbor {T : Type} (ciborium : Ciborium T) (bytes : Slice t) (limits : DecoderLimits) : Scan T :=
  if bytes.len > limits.maxInputBytes then .error (.codec (.inputTooLarge bytes.len limits.maxInputBytes))
  else do
    verifyDefiniteLengthCbor bytes
    let rawVal ← Scan.mapErr (ciborium.value.fromReader bytes.bytes) .decodingError
    Scan.mapErr (validateCborValue limits rawVal 0) id
    Scan.mapErr (ciborium.record.fromReader bytes.bytes) .decodingError

/-! ## What is accepted -/

theorem Scan.bind_eq_ok {α β : Type} {x : Scan α} {f : α → Scan β} {b : β} :
    x >>= f = .ok b ↔ ∃ a, x = .ok a ∧ f a = .ok b := by
  cases x with
  | error e => exact ⟨nofun, nofun⟩
  | ok a => exact ⟨fun h => ⟨a, rfl, h⟩, fun ⟨_, rfl, hf⟩ => hf⟩

theorem Scan.mapErr_eq_ok {ε α : Type} {x : Except ε α} {f : ε → CodecError} {a : α} :
    Scan.mapErr x f = .ok a ↔ x = .ok a := by
  cases x with
  | error e => exact ⟨nofun, nofun⟩
  | ok b => exact ⟨fun h => congrArg Except.ok (Except.ok.inj h), fun h => congrArg Except.ok (Except.ok.inj h)⟩

theorem Reader.fromReader_eq_ok {α : Type} {r : Reader α} {bytes : List UInt8} {a : α} :
    r.fromReader bytes = .ok a ↔ ∃ item rest, parse bytes = some (item, rest) ∧ r.item item = some a := by
  unfold fromReader
  cases hp : parse bytes with
  | none => simp
  | some p =>
    obtain ⟨item, rest⟩ := p
    cases hitem : r.item item with
    | none => simp [hitem]
    | some b => simp [hitem]

/-- What each pass has seen of an input that is accepted: the scanner all of it, the others its first item. -/
structure Accepted {T : Type} (ciborium : Ciborium T) (limits : DecoderLimits) (bytes : Slice t) (v : T)
    (item : Data) (rest : List UInt8) : Prop where
  short : bytes.len ≤ limits.maxInputBytes
  scanned : verifyDefiniteLengthCbor bytes = .ok ()
  first : parse bytes.bytes = some (item, rest)
  valid : ∃ val, ciborium.value.item item = some val ∧ validateCborValue limits val 0 = .ok ()
  typed : ciborium.record.item item = some v

section Accepted

variable {T : Type} {ciborium : Ciborium T} {limits : DecoderLimits} {s s' : Slice t} {v : T}

theorem fromCanonicalCbor_eq_ok :
    fromCanonicalCbor ciborium s limits = .ok v ↔ ∃ item rest, Accepted ciborium limits s v item rest := by
  unfold fromCanonicalCbor
  by_cases hlen : s.len > limits.maxInputBytes
  · rw [if_pos hlen]
    exact ⟨nofun, fun ⟨_, _, h⟩ => absurd h.short (by omega)⟩
  · rw [if_neg hlen]
    simp only [Scan.bind_eq_ok, Scan.mapErr_eq_ok, Reader.fromReader_eq_ok]
    constructor
    · rintro ⟨⟨⟩, hscan, val, ⟨item, rest, hfirst, hval⟩, ⟨⟩, hvalid, item', rest', hfirst', htyped⟩
      rw [hfirst] at hfirst'
      cases hfirst'
      exact ⟨item, rest, by omega, hscan, hfirst, ⟨val, hval, hvalid⟩, htyped⟩
    · rintro ⟨item, rest, h⟩
      obtain ⟨val, hval, hvalid⟩ := h.valid
      exact ⟨(), h.scanned, val, ⟨item, rest, h.first, hval⟩, (), hvalid, item, rest, h.first, h.typed⟩

theorem toCanonicalCbor_eq_ok [Serialize T] {bytes : List UInt8} :
    toCanonicalCbor v = .ok bytes ↔ bytes = (Serialize.serialize v).encode := by
  rw [toCanonicalCbor, Scan.mapErr_eq_ok, intoWriter, Except.ok.injEq, eq_comm]

/-- A record is accepted in whatever way its item is written, if the library reads it back and it keeps the limits. -/
theorem fromCanonicalCbor_of_parse [Serialize T] {val : Value} {rest : List UInt8}
    (hval : ciborium.value.item (Serialize.serialize v) = some val) (hvalid : validateCborValue limits val 0 = .ok ())
    (htyped : ciborium.record.item (Serialize.serialize v) = some v)
    (hfirst : parse s.bytes = some (Serialize.serialize v, rest)) (hitems : ∃ k, Sequence (Item 33) k s.bytes)
    (hshort : s.len ≤ limits.maxInputBytes) : fromCanonicalCbor ciborium s limits = .ok v :=
  fromCanonicalCbor_eq_ok.2 ⟨_, rest, hshort, (verifyFrom_iff (Nat.zero_le _)).2 hitems, hfirst, ⟨val, hval, hvalid⟩, htyped⟩

theorem fromCanonicalCbor_canonical [Serialize T] {val : Value}
    (hval : ciborium.value.item (Serialize.serialize v) = some val) (hvalid : validateCborValue limits val 0 = .ok ())
    (htyped : ciborium.record.item (Serialize.serialize v) = some v) (hs : toCanonicalCbor v = .ok s.bytes)
    (hshort : s.len ≤ limits.maxInputBytes) : fromCanonicalCbor ciborium s limits = .ok v := by
  rw [toCanonicalCbor_eq_ok] at hs
  have hfirst := parse_encode (Serialize.sized v) []
  have hitem := encode_item _ (Serialize.sized v) 33 (Serialize.nested v)
  rw [List.append_nil, ← hs] at hfirst
  rw [← hs] at hitem
  exact fromCanonicalCbor_of_parse hval hvalid htyped hfirst ⟨1, .one hitem⟩ hshort

/-- Exactly the items that fit can be appended. -/
theorem Accepted.append_iff {item : Data} {rest x : List UInt8} (h : Accepted ciborium limits s v item rest)
    (hx : s'.bytes = s.bytes ++ x) :
    fromCanonicalCbor ciborium s' limits = .ok v ↔ s'.len ≤ limits.maxInputBytes ∧ ∃ k, Sequence (Item 33) k x := by
  rw [fromCanonicalCbor_eq_ok, ← verifyDefiniteLengthCbor_append h.scanned hx]
  constructor
  · rintro ⟨_, _, h'⟩
    exact ⟨h'.short, h'.scanned⟩
  · rintro ⟨hshort, hscan⟩
    exact ⟨item, rest ++ x, hshort, hscan, hx ▸ parse_append h.first x, h.valid, h.typed⟩

/-- The bytes are one item with nothing behind it, every head in them is the shortest, and the item has the shape of
the record. -/
def CanonicalBytes (T : Type) [Serialize T] [Schema T] (bytes : List UInt8) : Prop :=
  shortHeads bytes = true ∧ ∃ item, parse bytes = some (item, []) ∧ Schema.describes T item = true

theorem canonicalBytes_iff (T : Type) [Serialize T] [Schema T] {bytes : List UInt8} :
    CanonicalBytes T bytes ↔ ∃ w : T, bytes = (Serialize.serialize w).encode := by
  constructor
  · rintro ⟨hshort, item, hitem, hshape⟩
    obtain ⟨w, rfl⟩ := (Schema.describes_iff item).1 hshape
    exact ⟨w, (shortHeads_iff hitem).1 hshort⟩
  · rintro ⟨w, rfl⟩
    have hitem := parse_encode (Serialize.sized w) []
    rw [List.append_nil] at hitem
    exact ⟨(shortHeads_iff hitem).2 rfl, _, hitem, (Schema.describes_iff _).2 ⟨w, rfl⟩⟩

/-- Where the typed reader reads back what the serializer writes, an input that is accepted is what its record is
written to if and only if it is one item, in its shortest form, with the fields of the record. Whatever the input, a
sequence of items can be appended to it, up to the limit of its size, and nothing else. -/
theorem accepted_canonical_iff [Serialize T] [Schema T]
    (hback : ∀ w : T, ciborium.record.item (Serialize.serialize w) = some w)
    (h : fromCanonicalCbor ciborium s limits = .ok v) :
    (toCanonicalCbor v = .ok s.bytes ↔ CanonicalBytes T s.bytes) ∧
    ∀ (s' : Slice t) (x : List UInt8), s'.bytes = s.bytes ++ x → (fromCanonicalCbor ciborium s' limits = .ok v ↔
      s'.len ≤ limits.maxInputBytes ∧ ∃ k, Sequence (Item 33) k x) := by
  obtain ⟨item, rest, hacc⟩ := fromCanonicalCbor_eq_ok.1 h
  refine ⟨?_, fun s' x => hacc.append_iff⟩
  rw [toCanonicalCbor_eq_ok, canonicalBytes_iff]
  constructor
  · intro hbytes
    exact ⟨v, hbytes⟩
  · rintro ⟨w, hbytes⟩
    -- the first item is that of the record `w`, so it is read as `w`
    have hfirst := parse_encode (Serialize.sized w) []
    rw [List.append_nil, ← hbytes, hacc.first] at hfirst
    cases hfirst
    have hw := hacc.typed
    rw [hback w] at hw
    cases hw
    exact hbytes

end Accepted

/-! ## A record with several encodings -/

namespace CanonicalSample

/-- A reader that knows one item. -/
def only {α : Type} (item : Data) (a : α) : Reader α where
  item d := if d.encode = item.encode then some a else none
  message _ := "unknown item"

theorem only_item {α : Type} (item : Data) (a : α) : (only item a).item item = some a := if_pos rfl

def toVector (n : Nat) (l : List UInt8) : Option (Vector UInt8 n) :=
  if h : l.length = n then some ⟨l.toArray, by simpa using h⟩ else none

theorem toVector_toList {n : Nat} (b : Vector UInt8 n) : toVector n b.toList = some b := by
  rw [toVector, dif_pos (by simp)]
  rfl

theorem zero_sequence : Sequence (Item 33) 1 [0] := .one (encode_item (.unsigned 0) trivial 33 (by decide))

/-- A target with 64 bits. -/
def target : Target := ⟨64, by decide⟩

def slice (bytes : List UInt8) (short : bytes.length ≤ 64 * 1024 := by decide +kernel) : Slice target :=
  ⟨bytes, lt_of_le_of_lt short (by decide)⟩

def certificate : OperatorSessionCertificate where
  networkId := ⟨Vector.replicate 32 7⟩
  ownerId := ⟨Vector.replicate 32 8⟩
  hostEntity := ⟨Vector.replicate 32 9⟩
  operatorKeyId := ⟨Vector.replicate 32 10⟩
  sessionPubkey := ⟨Vector.replicate 32 11⟩
  capabilities := ⟨OperatorCapabilities.write⟩
  createdAt := 10
  expiresAt := 1000
  signature := ⟨Vector.replicate 64 1⟩

/-- The value that is checked against the limits. -/
def certificateValue : Value :=
  .map [(.text "network_id", .bytes (List.replicate 32 7)), (.text "owner_id", .bytes (List.replicate 32 8)),
    (.text "host_entity", .bytes (List.replicate 32 9)), (.text "operator_key_id", .bytes (List.replicate 32 10)),
    (.text "session_pubkey", .bytes (List.replicate 32 11)), (.text "capabilities", .integer 2),
    (.text "created_at", .integer 10), (.text "expires_at", .integer 1000),
    (.text "signature", .bytes (List.replicate 64 1))]

/-- A reader of certificates that takes the fields by their places. -/
def readCertificate : Data → Option OperatorSessionCertificate
  | .map [(_, .bytes network), (_, .bytes owner), (_, .bytes host), (_, .bytes operator), (_, .bytes session),
      (_, .unsigned capabilities), (_, .unsigned createdAt), (_, .unsigned expiresAt), (_, .bytes signature)] => do
    let networkId ← toVector 32 network
    let ownerId ← toVector 32 owner
    let hostEntity ← toVector 32 host
    let operatorKeyId ← toVector 32 operator
    let sessionPubkey ← toVector 32 session
    let signature ← toVector 64 signature
    return ⟨⟨networkId⟩, ⟨ownerId⟩, ⟨hostEntity⟩, ⟨operatorKeyId⟩, ⟨sessionPubkey⟩, ⟨capabilities.toUInt32⟩, createdAt,
      expiresAt, ⟨signature⟩⟩
  | _ => none

theorem readCertificate_serialize (c : OperatorSessionCertificate) :
    readCertificate (Serialize.serialize c) = some c := by
  obtain ⟨⟨n⟩, ⟨o⟩, ⟨h⟩, ⟨k⟩, ⟨p⟩, ⟨bits⟩, createdAt, expiresAt, ⟨g⟩⟩ := c
  simp [readCertificate, Serialize.serialize, serializeStruct, toVector_toList]

def certificateReaders : Ciborium OperatorSessionCertificate :=
  ⟨only (Serialize.serialize certificate) certificateValue, ⟨readCertificate, fun _ => "no certificate"⟩⟩

def certificateBytes : List UInt8 := (Serialize.serialize certificate).encode

/-- The theorem for a certificate as it is written, and with a zero after it: both are accepted, and the first only is
canonical. -/
theorem accepted_canonical_iff_certificate :
    fromCanonicalCbor certificateReaders (slice certificateBytes) .control = .ok certificate ∧
      CanonicalBytes OperatorSessionCertificate certificateBytes ∧
      fromCanonicalCbor certificateReaders (slice (certificateBytes ++ [0])) .control = .ok certificate ∧
      ¬ CanonicalBytes OperatorSessionCertificate (certificateBytes ++ [0]) := by
  have hwritten : toCanonicalCbor certificate = .ok certificateBytes := rfl
  have haccepted : fromCanonicalCbor certificateReaders (slice certificateBytes) .control = .ok certificate :=
    fromCanonicalCbor_canonical (only_item _ _) rfl (readCertificate_serialize _) hwritten (by decide +kernel)
  obtain ⟨hcanonical, happend⟩ := accepted_canonical_iff readCertificate_serialize haccepted
  have hlonger : fromCanonicalCbor certificateReaders (slice (certificateBytes ++ [0])) .control = .ok certificate :=
    (happend _ [0] rfl).2 ⟨by decide +kernel, 1, zero_sequence⟩
  refine ⟨haccepted, hcanonical.1 hwritten, hlonger, fun hno => ?_⟩
  have hsame := ((accepted_canonical_iff readCertificate_serialize hlonger).1.2 hno).symm.trans hwritten
  exact absurd (Except.ok.inj hsame) (by simp [slice])

def genesis : Genesis where
  tbs :=
    { networkId := ⟨Vector.replicate 32 7⟩
      ownerId := ⟨Vector.replicate 32 8⟩
      ownerRootSigningPublicKey := ⟨Vector.replicate 32 9⟩
      createdAt := 10 }
  signature := ⟨Vector.replicate 64 1⟩

def genesisValue : Value :=
  .map [(.text "tbs", .map [(.text "network_id", .bytes (List.replicate 32 7)),
      (.text "owner_id", .bytes (List.replicate 32 8)),
      (.text "owner_root_signing_public_key", .bytes (List.replicate 32 9)), (.text "created_at", .integer 10)]),
    (.text "signature", .bytes (List.replicate 64 1))]

def genesisReaders : Ciborium Genesis :=
  ⟨only (Serialize.serialize genesis) genesisValue, only (Serialize.serialize genesis) genesis⟩

def genesisEntries : List (Data × Data) :=
  [(.text (utf8 "tbs"), Serialize.serialize genesis.tbs), (.text (utf8 "signature"), Serialize.serialize genesis.signature)]

def genesisBytes : List UInt8 := (Serialize.serialize genesis).encode

/-- The same map, with the number of its entries in a byte of its own. -/
def longGenesisBytes : List UInt8 := 184 :: (bigEndian 1 2 ++ encodeEntries genesisEntries)

/-- A Genesis record is accepted with a zero after it, and with a head that is longer than it need be. -/
theorem genesis_not_canonical :
    toCanonicalCbor genesis = .ok genesisBytes ∧
      fromCanonicalCbor genesisReaders (slice (genesisBytes ++ [0])) .control = .ok genesis ∧
      genesisBytes ++ [0] ≠ genesisBytes ∧
      fromCanonicalCbor genesisReaders (slice longGenesisBytes) .control = .ok genesis ∧
      longGenesisBytes ≠ genesisBytes := by
  have hentries : SizedEntries genesisEntries := (Serialize.sized genesis).2
  have hheight : heightEntries genesisEntries ≤ 32 := Nat.le_of_succ_le_succ (Serialize.nested genesis)
  refine ⟨rfl, ?_, by decide +kernel, ?_, by decide +kernel⟩
  · have hitem := encode_item _ (Serialize.sized genesis) 33 (Serialize.nested genesis)
    exact fromCanonicalCbor_of_parse (only_item _ _) rfl (only_item _ _) (parse_encode (Serialize.sized genesis) [0])
      ⟨2, .cons hitem zero_sequence⟩ (by decide +kernel)
  · have hitem : Item 33 longGenesisBytes :=
      item_long (j := 0) (by decide) (by decide) (by decide) (.map (encodeEntries_sequence _ hentries 32 hheight))
    exact fromCanonicalCbor_of_parse (only_item _ _) rfl (only_item _ _)
      (parse_long_map hentries (j := 0) (by decide) (by decide)) ⟨1, .one hitem⟩ (by decide +kernel)

end CanonicalSample

end Fortiq
