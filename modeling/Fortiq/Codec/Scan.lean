/-
The scanner that every record passes before it is decoded. `verify_definite_length_cbor` walks over the bytes with one
cursor and counts what each head announces; it accepts exactly the concatenations of definite-length items nested at
most 32 deep, and neither an index nor an addition ever leaves its range.
-/
import Fortiq.Lib.Cbor

namespace Fortiq

open Cbor

/-! ## Bytes and indices -/

inductive CodecError where
  | inputTooLarge (length max : Nat)
  | encodingError (message : String)
  | decodingError (message : String)
  | indefiniteLengthRejected
  | maxDepthExceeded (depth max : Nat)
  | containerTooLarge (length max : Nat)
  deriving DecidableEq, Repr

/-- How a call ends early: with an error of the codec, or with a panic (an index or a range outside the slice, an
addition that overflows, `unreachable!`). -/
inductive Fault where
  | codec (e : CodecError)
  | panic
  deriving DecidableEq, Repr

abbrev Scan := Except Fault

@[simp] theorem Scan.ok_bind {α β : Type} (a : α) (f : α → Scan β) : (Except.ok a >>= f) = f a := rfl

def decodingError {α : Type} (message : String) : Scan α := .error (.codec (.decodingError message))

/-- The machine the code runs on, by the width of `usize`. -/
structure Target where
  bits : Nat
  atLeast : 16 ≤ bits

/-- `&[u8]`: no slice has more than `isize::MAX` bytes. -/
structure Slice (t : Target) where
  bytes : List UInt8
  bound : bytes.length < 2 ^ (t.bits - 1)

namespace Target

def add (t : Target) (a b : Nat) : Scan Nat := if a + b < 2 ^ t.bits then .ok (a + b) else .error .panic

/-- `usize::try_from` on a `u64`, with the error it is mapped to. -/
def tryFrom (t : Target) (val : Nat) (message : String) : Scan Nat :=
  if val < 2 ^ t.bits then .ok val else decodingError message

/-- `checked_mul`, with the error for `None`. -/
def checkedMul (t : Target) (a b : Nat) (message : String) : Scan Nat :=
  if a * b < 2 ^ t.bits then .ok (a * b) else decodingError message

end Target

namespace Slice

variable {t : Target}

def len (s : Slice t) : Nat := s.bytes.length

/-- `bytes[i]` -/
def index (s : Slice t) (i : Nat) : Scan UInt8 := if h : i < s.bytes.length then .ok s.bytes[i] else .error .panic

/-- `[bytes[c], bytes[c + 1], ..]`, `k` of them. -/
def indices (s : Slice t) (c : Nat) : Nat → Scan (List UInt8)
  | 0 => .ok []
  | k + 1 => do
    let b ← s.index c
    let l ← indices s (c + 1) k
    return b :: l

/-- `bytes[a..b]` -/
def range (s : Slice t) (a b : Nat) : Scan (List UInt8) :=
  if a ≤ b ∧ b ≤ s.bytes.length then .ok ((s.bytes.drop a).take (b - a)) else .error .panic

end Slice

/-! ## The scanner -/

variable {t : Target}

/-- The number of a head whose first byte has been read, and the cursor after it. -/
def readVal (s : Slice t) (info : UInt8) (cursor : Nat) : Scan (Nat × Nat) :=
  if info < 24 then .ok (info.toNat, cursor)
  else if info = 24 then
    if cursor ≥ s.len then decodingError "truncated CBOR int8"
    else do
      let b ← s.index cursor
      let next ← t.add cursor 1
      return (b.toNat, next)
  else if info = 25 then do
    let next ← t.add cursor 2
    if next > s.len then decodingError "truncated CBOR int16"
    else do
      let b ← s.indices cursor 2
      return (beValue b, next)
  else if info = 26 then do
    let next ← t.add cursor 4
    if next > s.len then decodingError "truncated CBOR int32"
    else do
      let b ← s.indices cursor 4
      return (beValue b, next)
  else if info = 27 then do
    let next ← t.add cursor 8
    if next > s.len then decodingError "truncated CBOR int64"
    else do
      let buf ← s.range cursor next
      return (beValue buf, next)
  else decodingError "reserved CBOR additional info"

/-- `for _ in 0..count`, with the cursor handed on. -/
def scanTimes (scan : Nat → Scan Nat) : Nat → Nat → Scan Nat
  | 0, cursor => .ok cursor
  | count + 1, cursor => do
    let next ← scan cursor
    scanTimes scan count next

/-- What follows the head; `scan` is the recursive call one level down. -/
def scanContent (s : Slice t) (scan : Nat → Scan Nat) (major : Nat) (val cursor : Nat) : Scan Nat :=
  match major with
  | 0 | 1 => .ok cursor
  | 2 | 3 => do
    let len ← t.tryFrom val "string length overflow"
    let remaining := s.len - cursor
    if len > remaining then decodingError "truncated CBOR string/bytes"
    else t.add cursor len
  | 4 => do
    let count ← t.tryFrom val "array length overflow"
    let remaining := s.len - cursor
    if count > remaining then decodingError "array length exceeds remaining stream bytes"
    else scanTimes scan count cursor
  | 5 => do
    let count ← t.tryFrom val "map length overflow"
    let items ← t.checkedMul count 2 "map item count overflow"
    let remaining := s.len - cursor
    if items > remaining then decodingError "map length exceeds remaining stream bytes"
    else scanTimes scan items cursor
  | 6 => scan cursor
  | 7 => .ok cursor
  | _ => .error .panic

/-- The body of `scan_single_cbor_item` after the test of the depth. -/
def scanBody (s : Slice t) (scan : Nat → Scan Nat) (cursor : Nat) : Scan Nat :=
  if cursor ≥ s.len then decodingError "unexpected end of CBOR stream"
  else do
    let initialByte ← s.index cursor
    let cursor ← t.add cursor 1
    let major := initialByte >>> 5
    let info := initialByte &&& 0x1f
    if info = 31 then .error (.codec .indefiniteLengthRejected)
    else do
      let (val, cursor) ← readVal s info cursor
      scanContent s scan major.toNat val cursor

/-- `scan_single_cbor_item` with the levels that are left, so that the recursion is structural. -/
def scanLevels (s : Slice t) : Nat → Nat → Nat → Scan Nat
  | 0, depth, _ => .error (.codec (.maxDepthExceeded depth 32))
  | levels + 1, depth, cursor => scanBody s (scanLevels s levels (depth + 1)) cursor

def scanSingleCborItem (s : Slice t) (cursor depth : Nat) : Scan Nat := scanLevels s (33 - depth) depth cursor

/-- The recursion as the source has it. -/
theorem scanSingleCborItem_eq (s : Slice t) (cursor depth : Nat) :
    scanSingleCborItem s cursor depth =
      if depth > 32 then .error (.codec (.maxDepthExceeded depth 32))
      else scanBody s (fun c => scanSingleCborItem s c (depth + 1)) cursor := by
  unfold scanSingleCborItem
  split
  · rw [Nat.sub_eq_zero_of_le (by omega)]; rfl
  · rw [show 33 - depth = (33 - (depth + 1)) + 1 by omega]; rfl

/-! ## What a scanner recognises -/

/-- From every cursor in the slice, the scanner moves over a text of the language that begins there or fails with an
error of the codec, and it does move if there is one. -/
structure Recognises (s : Slice t) (scan : Nat → Scan Nat) (P : List UInt8 → Prop) : Prop where
  outcome : ∀ c ≤ s.len, (∃ a, P a ∧ a <+: s.bytes.drop c ∧ scan c = .ok (c + a.length)) ∨
    ∃ e, scan c = .error (.codec e)
  complete : ∀ c ≤ s.len, ∀ a, P a → a <+: s.bytes.drop c → scan c = .ok (c + a.length)

namespace Slice

variable {s : Slice t} {c k : Nat}

theorem len_add_lt (s : Slice t) : s.len + 8 < 2 ^ t.bits := by
  have hsplit : 2 ^ t.bits = 2 ^ (t.bits - 1) + 2 ^ (t.bits - 1) := by
    rw [← Nat.two_mul, ← pow_succ', Nat.sub_add_cancel (by have := t.atLeast; omega)]
  have hlarge : 2 ^ 4 ≤ 2 ^ (t.bits - 1) := Nat.pow_le_pow_right (by decide) (by have := t.atLeast; omega)
  have := s.bound
  unfold len
  omega

theorem add_eq (s : Slice t) (hc : c + k ≤ s.len + 8) : t.add c k = .ok (c + k) :=
  if_pos (lt_of_le_of_lt hc s.len_add_lt)

theorem index_eq (h : c < s.bytes.length) : s.index c = .ok s.bytes[c] := dif_pos h

theorem indices_eq (h : c + k ≤ s.len) : s.indices c k = .ok ((s.bytes.drop c).take k) := by
  induction k generalizing c with
  | zero => rfl
  | succ k ih =>
    have hc : c < s.bytes.length := by unfold len at h; omega
    rw [indices, index_eq hc, ih (by omega), List.drop_eq_getElem_cons hc]
    rfl

theorem range_eq (h : c + k ≤ s.len) : s.range c (c + k) = .ok ((s.bytes.drop c).take k) := by
  rw [range, if_pos ⟨by omega, h⟩, Nat.add_sub_cancel_left]

theorem take_prefix_length (h : c + k ≤ s.len) : ((s.bytes.drop c).take k).length = k := by
  rw [List.length_take, List.length_drop]
  unfold len at h
  omega

end Slice

/-! ## Heads -/

section Head

variable {s : Slice t} {info : UInt8} {c : Nat}

/-- A number in the bytes after the first one is read if they are there. -/
theorem readVal_long {j : Nat} (hj : j < 4) (hinfo : info.toNat = 24 + j) (hc : c ≤ s.len) :
    (c + 2 ^ j ≤ s.len → readVal s info c = .ok (beValue ((s.bytes.drop c).take (2 ^ j)), c + 2 ^ j)) ∧
    (s.len < c + 2 ^ j → ∃ e, readVal s info c = .error (.codec e)) := by
  obtain rfl : info = UInt8.ofNat (24 + j) := UInt8.toNat_inj.1 (by rw [hinfo]; simp; omega)
  constructor
  · intro h
    have hall := Slice.indices_eq h
    have hrange := Slice.range_eq h
    interval_cases j <;> simp only [Nat.reducePow] at h hall hrange ⊢
    · have hlt : c < s.bytes.length := h
      have hone : (s.bytes.drop c).take 1 = [s.bytes[c]] := by rw [List.drop_eq_getElem_cons hlt]; rfl
      simp [readVal, s.add_eq (show c + 1 ≤ s.len + 8 by omega), Slice.index_eq hlt, Slice.len, hlt, hone, beValue]
    · simp [readVal, s.add_eq (show c + 2 ≤ s.len + 8 by omega), h, hall]
    · simp [readVal, s.add_eq (show c + 4 ≤ s.len + 8 by omega), h, hall]
    · simp [readVal, s.add_eq (show c + 8 ≤ s.len + 8 by omega), h, hrange]
  · intro h
    interval_cases j <;> simp only [Nat.reducePow] at h
    · exact ⟨.decodingError "truncated CBOR int8", by simp [readVal, decodingError]; omega⟩
    · exact ⟨.decodingError "truncated CBOR int16", by
        simp [readVal, s.add_eq (show c + 2 ≤ s.len + 8 by omega), h, decodingError]⟩
    · exact ⟨.decodingError "truncated CBOR int32", by
        simp [readVal, s.add_eq (show c + 4 ≤ s.len + 8 by omega), h, decodingError]⟩
    · exact ⟨.decodingError "truncated CBOR int64", by
        simp [readVal, s.add_eq (show c + 8 ≤ s.len + 8 by omega), h, decodingError]⟩

theorem readVal_outcome (hc : c ≤ s.len) :
    (∃ l val, Extra info.toNat l val ∧ l <+: s.bytes.drop c ∧ readVal s info c = .ok (val, c + l.length)) ∨
      ∃ e, readVal s info c = .error (.codec e) := by
  by_cases hshort : info < 24
  · exact .inl ⟨[], info.toNat, .short hshort, List.nil_prefix, if_pos hshort⟩
  have h24 : 24 ≤ info.toNat := Nat.le_of_not_lt hshort
  by_cases hlong : info.toNat ≤ 27
  · have hinfo : info.toNat = 24 + (info.toNat - 24) := by omega
    obtain ⟨hin, hout⟩ := readVal_long (by omega) hinfo hc
    by_cases hfit : c + 2 ^ (info.toNat - 24) ≤ s.len
    · have hlen := Slice.take_prefix_length hfit
      refine .inl ⟨_, _, .long (by omega) (by omega) hlen, List.take_prefix _ _, ?_⟩
      rw [hin hfit, hlen]
    · exact .inr (hout (by omega))
  · have hne : ∀ n : UInt8, n.toNat ≤ 27 → info ≠ n := by
      rintro n hn rfl
      exact hlong hn
    refine .inr ⟨.decodingError "reserved CBOR additional info", ?_⟩
    rw [readVal, if_neg hshort, if_neg (hne 24 (by decide)), if_neg (hne 25 (by decide)), if_neg (hne 26 (by decide)),
      if_neg (hne 27 (by decide))]
    rfl

theorem readVal_complete (hc : c ≤ s.len) {l : List UInt8} {val : Nat} (hl : Extra info.toNat l val)
    (hpre : l <+: s.bytes.drop c) : readVal s info c = .ok (val, c + l.length) := by
  cases hl with
  | short hlt => exact if_pos hlt
  | long hj hinfo hlen =>
    have hfit := prefix_drop_length hc hpre
    rw [hlen] at hfit ⊢
    rw [(readVal_long hj hinfo hc).1 hfit, List.prefix_iff_eq_take.1 hpre, hlen]

end Head

/-! ## Content -/

section Content

variable {s : Slice t} {scan : Nat → Scan Nat} {P Q : List UInt8 → Prop} {val : Nat}

/-- A scanner that does not move recognises the empty text. -/
theorem recognises_nil (hP : ∀ a, P a ↔ a = []) : Recognises s (fun c => .ok c) P where
  outcome c _ := .inl ⟨[], (hP []).2 rfl, List.nil_prefix, rfl⟩
  complete c _ a ha _ := by rw [(hP a).1 ha]; rfl

theorem Recognises.times (h : Recognises s scan P) : ∀ k, Recognises s (scanTimes scan k) (Sequence P k)
  | 0 => recognises_nil fun a => ⟨fun ha => by cases ha; rfl, fun ha => ha ▸ .nil⟩
  | k + 1 => by
    have ih := h.times k
    refine ⟨fun c hc => ?_, fun c hc a ha hpre => ?_⟩
    · rcases h.outcome c hc with ⟨a, ha, hpre, heq⟩ | ⟨e, heq⟩
      · rw [scanTimes, heq, Scan.ok_bind]
        refine (ih.outcome _ (prefix_drop_length hc hpre)).imp_left ?_
        rintro ⟨l, hl, hpre', heq'⟩
        exact ⟨a ++ l, .cons ha hl, append_prefix_drop.2 ⟨hpre, hpre'⟩, by rw [heq', List.length_append, Nat.add_assoc]⟩
      · exact .inr ⟨e, by rw [scanTimes, heq]; rfl⟩
    · cases ha with
      | cons hhead htail =>
        obtain ⟨hpre, hpre'⟩ := append_prefix_drop.1 hpre
        rw [scanTimes, h.complete c hc _ hhead hpre, Scan.ok_bind,
          ih.complete _ (prefix_drop_length hc hpre) _ htail hpre', List.length_append, Nat.add_assoc]

/-- A test that only refuses when more is asked for than is left refuses no text that is there. -/
theorem Recognises.guard {n : Nat} {e : CodecError} (h : Recognises s scan P) (hn : ∀ a, P a → n ≤ a.length) :
    Recognises s (fun c => if n > s.len - c then .error (.codec e) else scan c) P where
  outcome c hc := by
    by_cases hleft : n > s.len - c
    · exact .inr ⟨e, if_pos hleft⟩
    · simpa only [if_neg hleft] using h.outcome c hc
  complete c hc a ha hpre := by
    have hfit := prefix_drop_length hc hpre
    have hle := hn a ha
    rw [if_neg (by unfold Slice.len; omega)]
    exact h.complete c hc a ha hpre

/-- A test whether a number fits the machine refuses no text that is there. -/
theorem Recognises.fits {n : Nat} {e : CodecError} (h : Recognises s scan P) (hn : ∀ a, P a → n ≤ a.length) :
    Recognises s (fun c => if n < 2 ^ t.bits then scan c else .error (.codec e)) P where
  outcome c hc := by
    by_cases hfit : n < 2 ^ t.bits
    · simpa only [if_pos hfit] using h.outcome c hc
    · exact .inr ⟨e, if_neg hfit⟩
  complete c hc a ha hpre := by
    have hlen := prefix_drop_length hc hpre
    have hle := hn a ha
    have := s.len_add_lt
    rw [if_pos (by unfold Slice.len at this; omega)]
    exact h.complete c hc a ha hpre

/-- Moving over a number of bytes. -/
theorem recognises_take {n : Nat} {e : CodecError} :
    Recognises s (fun c => if n > s.len - c then .error (.codec e) else t.add c n) fun a => a.length = n where
  outcome c hc := by
    by_cases hleft : n > s.len - c
    · exact .inr ⟨e, if_pos hleft⟩
    · have hfit : c + n ≤ s.len := by omega
      have hlen := Slice.take_prefix_length hfit
      refine .inl ⟨_, hlen, List.take_prefix _ _, ?_⟩
      rw [if_neg hleft, s.add_eq (by omega), hlen]
  complete c hc a ha hpre := by
    have hfit : c + n ≤ s.len := ha ▸ prefix_drop_length hc hpre
    rw [if_neg (by omega), s.add_eq (by omega), ha]

theorem Recognises.congr (h : Recognises s scan P) (hPQ : ∀ a, P a ↔ Q a) : Recognises s scan Q :=
  (funext fun a => propext (hPQ a) : P = Q) ▸ h

theorem tryFrom_bind {α : Type} {message : String} (f : Nat → Scan α) :
    (t.tryFrom val message >>= f) = if val < 2 ^ t.bits then f val else .error (.codec (.decodingError message)) := by
  unfold Target.tryFrom
  split <;> rfl

theorem checkedMul_bind {α : Type} {m : Nat} {message : String} (f : Nat → Scan α) :
    (t.checkedMul val m message >>= f) =
      if val * m < 2 ^ t.bits then f (val * m) else .error (.codec (.decodingError message)) := by
  unfold Target.checkedMul
  split <;> rfl

theorem Recognises.string (scan : Nat → Scan Nat) {major : Nat} (hmajor : major = 2 ∨ major = 3) :
    Recognises s (scanContent s scan major val) fun a => a.length = val := by
  have heq : scanContent s scan major val = fun c => if val < 2 ^ t.bits then
      if val > s.len - c then .error (.codec (.decodingError "truncated CBOR string/bytes")) else t.add c val
      else .error (.codec (.decodingError "string length overflow")) := by
    funext c
    rcases hmajor with rfl | rfl <;> exact tryFrom_bind _
  rw [heq]
  exact recognises_take.fits fun a ha => ha.ge

theorem Recognises.array (h : Recognises s scan P) (hne : ∀ a, P a → a ≠ []) :
    Recognises s (scanContent s scan 4 val) (Sequence P val) := by
  have heq : scanContent s scan 4 val = fun c => if val < 2 ^ t.bits then
      if val > s.len - c then .error (.codec (.decodingError "array length exceeds remaining stream bytes"))
      else scanTimes scan val c
      else .error (.codec (.decodingError "array length overflow")) := by
    funext c
    exact tryFrom_bind _
  have hcount : ∀ a, Sequence P val a → val ≤ a.length := fun a ha => ha.count_le_length hne
  rw [heq]
  exact ((h.times val).guard hcount).fits hcount

theorem Recognises.map (h : Recognises s scan P) (hne : ∀ a, P a → a ≠ []) :
    Recognises s (scanContent s scan 5 val) (Sequence P (val * 2)) := by
  have heq : scanContent s scan 5 val = fun c => if val < 2 ^ t.bits then
      if val * 2 < 2 ^ t.bits then
        if val * 2 > s.len - c then .error (.codec (.decodingError "map length exceeds remaining stream bytes"))
        else scanTimes scan (val * 2) c
        else .error (.codec (.decodingError "map item count overflow"))
      else .error (.codec (.decodingError "map length overflow")) := by
    funext c
    refine (tryFrom_bind _).trans ?_
    rw [checkedMul_bind]
    rfl
  have hcount : ∀ a, Sequence P (val * 2) a → val * 2 ≤ a.length := fun a ha => ha.count_le_length hne
  rw [heq]
  exact (((h.times _).guard hcount).fits hcount).fits fun a ha => le_trans (by omega) (hcount a ha)

/-- Each branch on the major type. -/
theorem Recognises.content (h : Recognises s scan P) (hne : ∀ a, P a → a ≠ []) {major : Nat} (hmajor : major < 8) :
    Recognises s (scanContent s scan major val) (Content P major val) := by
  interval_cases major
  · exact recognises_nil fun a => ⟨fun ha => by cases ha; rfl, fun ha => ha ▸ .unsigned⟩
  · exact recognises_nil fun a => ⟨fun ha => by cases ha; rfl, fun ha => ha ▸ .negative⟩
  · exact (Recognises.string scan (.inl rfl)).congr fun a => ⟨fun ha => ha ▸ .bytes, fun ha => by cases ha; rfl⟩
  · exact (Recognises.string scan (.inr rfl)).congr fun a => ⟨fun ha => ha ▸ .text, fun ha => by cases ha; rfl⟩
  · exact (h.array hne).congr fun a => ⟨.array, fun ha => by cases ha; assumption⟩
  · rw [show Content P 5 val = Sequence P (2 * val) from funext fun a => propext
      ⟨fun ha => by cases ha; assumption, .map⟩, Nat.mul_comm]
    exact h.map hne
  · exact h.congr fun a => ⟨.tag, fun ha => by cases ha; assumption⟩
  · exact recognises_nil fun a => ⟨fun ha => by cases ha; rfl, fun ha => ha ▸ .simple⟩

end Content

/-! ## Items -/

section Items

variable {s : Slice t} {scan : Nat → Scan Nat} {P : List UInt8 → Prop} {c : Nat}

theorem toNat_shiftRight_five (b : UInt8) : (b >>> 5).toNat = b.toNat / 32 := by
  rw [UInt8.toNat_shiftRight]
  exact Nat.shiftRight_eq_div_pow _ 5

theorem toNat_and_mask (b : UInt8) : (b &&& 0x1f).toNat = b.toNat % 32 := by
  rw [UInt8.toNat_and]
  exact Nat.and_two_pow_sub_one_eq_mod _ 5

/-- The body at a cursor before the end, in terms of the byte there. -/
theorem scanBody_eq (hc : c < s.bytes.length) : scanBody s scan c =
    if s.bytes[c].toNat % 32 = 31 then .error (.codec .indefiniteLengthRejected)
    else readVal s (s.bytes[c] &&& 0x1f) (c + 1) >>= fun p => scanContent s scan (s.bytes[c].toNat / 32) p.1 p.2 := by
  have hinfo : s.bytes[c] &&& 0x1f = 31 ↔ s.bytes[c].toNat % 32 = 31 := by
    rw [← toNat_and_mask, ← UInt8.toNat_inj]
    rfl
  rw [scanBody, if_neg (by unfold Slice.len; omega), Slice.index_eq hc, Scan.ok_bind,
    s.add_eq (by unfold Slice.len; omega), Scan.ok_bind]
  simp only [hinfo, toNat_shiftRight_five]

theorem cons_prefix_drop {b : UInt8} {l : List UInt8} (hc : c < s.bytes.length) :
    b :: l <+: s.bytes.drop c ↔ b = s.bytes[c] ∧ l <+: s.bytes.drop (c + 1) := by
  rw [List.drop_eq_getElem_cons hc, List.cons_prefix_cons]

/-- The body recognises one item, if the recursive call recognises the items inside. -/
theorem Recognises.node (h : Recognises s scan P) (hne : ∀ a, P a → a ≠ []) :
    Recognises s (scanBody s scan) (Node P) := by
  have hcontent : ∀ (b : UInt8) (val : Nat),
      Recognises s (scanContent s scan (b.toNat / 32) val) (Content P (b.toNat / 32) val) := fun b val =>
    h.content hne (by have := b.toNat_lt; omega)
  refine ⟨fun c hc => ?_, fun c hc a ha hpre => ?_⟩
  · by_cases hlt : c < s.bytes.length
    · have hmask := toNat_and_mask s.bytes[c]
      rw [scanBody_eq hlt]
      by_cases h31 : s.bytes[c].toNat % 32 = 31
      · exact .inr ⟨_, if_pos h31⟩
      · rw [if_neg h31]
        rcases readVal_outcome (s := s) (c := c + 1) hlt with ⟨l, val, hl, hpre, heq⟩ | ⟨e, heq⟩
        · rw [heq, Scan.ok_bind]
          refine ((hcontent _ val).outcome _ (prefix_drop_length hlt hpre)).imp_left ?_
          rintro ⟨body, hbody, hpre', heq'⟩
          refine ⟨s.bytes[c] :: (l ++ body), .mk (hmask ▸ hl) hbody, ?_, ?_⟩
          · exact (cons_prefix_drop hlt).2 ⟨rfl, append_prefix_drop.2 ⟨hpre, hpre'⟩⟩
          · rw [heq', List.length_cons, List.length_append]
            congr 1
            omega
        · exact .inr ⟨e, by rw [heq]; rfl⟩
    · exact .inr ⟨_, if_pos (Nat.le_of_not_lt hlt)⟩
  · cases ha with
    | @mk b l body val hl hbody =>
      have hlt : c < s.bytes.length := by
        have := prefix_drop_length hc hpre
        rw [List.length_cons] at this
        omega
      obtain ⟨rfl, hrest⟩ := (cons_prefix_drop hlt).1 hpre
      obtain ⟨hextra, hinner⟩ := append_prefix_drop.1 hrest
      have h31 : s.bytes[c].toNat % 32 ≠ 31 := by
        intro h31
        cases hl <;> omega
      rw [scanBody_eq hlt, if_neg h31, readVal_complete hlt (toNat_and_mask s.bytes[c] ▸ hl) hextra, Scan.ok_bind,
        (hcontent _ val).complete _ (prefix_drop_length hlt hextra) _ hbody hinner, List.length_cons, List.length_append]
      congr 1
      omega

theorem recognises_levels (s : Slice t) : ∀ levels depth, Recognises s (scanLevels s levels depth) (Item levels)
  | 0, _ => ⟨fun _ _ => .inr ⟨_, rfl⟩, fun _ _ _ ha => ha.elim⟩
  | levels + 1, depth => (recognises_levels s levels (depth + 1)).node fun _ => Item.ne_nil

theorem recognises_item (s : Slice t) : Recognises s (scanSingleCborItem s · 0) (Item 33) := recognises_levels s 33 0

end Items

/-! ## The whole slice -/

theorem scanSingleCborItem_advances {s : Slice t} {cursor next : Nat} (hc : cursor < s.len)
    (h : scanSingleCborItem s cursor 0 = .ok next) : cursor < next ∧ next ≤ s.len := by
  rcases (recognises_item s).outcome cursor hc.le with ⟨a, ha, hpre, heq⟩ | ⟨e, heq⟩
  · rw [h] at heq
    cases heq
    have := List.length_pos_of_ne_nil ha.ne_nil
    exact ⟨by omega, prefix_drop_length hc.le hpre⟩
  · rw [h] at heq
    cases heq

/-- The loop, from a cursor on. It ends because an item is never empty. -/
def verifyFrom (s : Slice t) (cursor : Nat) : Scan Unit :=
  if _h : cursor < s.len then
    match _hscan : scanSingleCborItem s cursor 0 with
    | .ok next => verifyFrom s next
    | .error e => .error e
  else .ok ()
termination_by s.len - cursor
decreasing_by
  have := scanSingleCborItem_advances _h _hscan
  omega

def verifyDefiniteLengthCbor (s : Slice t) : Scan Unit := verifyFrom s 0

section Verify

variable {s : Slice t} {c : Nat}

theorem verifyFrom_end (hc : s.len ≤ c) : verifyFrom s c = .ok () := by
  rw [verifyFrom, dif_neg (by omega)]

theorem verifyFrom_ok (hc : c < s.len) {next : Nat} (h : scanSingleCborItem s c 0 = .ok next) :
    verifyFrom s c = verifyFrom s next := by
  rw [verifyFrom, dif_pos hc]
  split <;> simp_all

theorem verifyFrom_error (hc : c < s.len) {e : Fault} (h : scanSingleCborItem s c 0 = .error e) :
    verifyFrom s c = .error e := by
  rw [verifyFrom, dif_pos hc]
  split <;> simp_all

/-- The loop moves along items that are there. -/
theorem verifyFrom_skip {k : Nat} {l : List UInt8} (hl : Sequence (Item 33) k l) :
    ∀ {c : Nat}, c ≤ s.len → l <+: s.bytes.drop c → verifyFrom s c = verifyFrom s (c + l.length) := by
  induction hl with
  | nil =>
    intro c _ _
    rfl
  | @cons k a l ha _ ih =>
    intro c hc hpre
    obtain ⟨hhead, htail⟩ := append_prefix_drop.1 hpre
    have hfit := prefix_drop_length hc hhead
    have := List.length_pos_of_ne_nil ha.ne_nil
    rw [verifyFrom_ok (by unfold Slice.len; omega) ((recognises_item s).complete c hc a ha hhead), ih hfit htail,
      List.length_append, Nat.add_assoc]

/-- The loop stops at the end of a sequence of items or with an error of the codec. -/
theorem verifyFrom_outcome (n : Nat) : ∀ c ≤ s.len, s.len - c ≤ n →
    (verifyFrom s c = .ok () ∧ ∃ k, Sequence (Item 33) k (s.bytes.drop c)) ∨
      ∃ e, verifyFrom s c = .error (.codec e) := by
  -- by induction on a bound of what is left
  induction n with
  | zero =>
    intro c hc hn
    have hend : s.len ≤ c := by omega
    refine .inl ⟨verifyFrom_end hend, 0, ?_⟩
    rw [List.drop_eq_nil_iff.2 hend]
    exact .nil
  | succ n ih =>
    intro c hc hn
    by_cases hlt : c < s.len
    · rcases (recognises_item s).outcome c hc with ⟨a, ha, hpre, heq⟩ | ⟨e, heq⟩
      · have hpos := List.length_pos_of_ne_nil ha.ne_nil
        rw [verifyFrom_ok hlt heq]
        refine (ih _ (prefix_drop_length hc hpre) (by omega)).imp_left ?_
        rintro ⟨hok, k, hk⟩
        obtain ⟨x, hx⟩ := hpre
        rw [← List.drop_drop, ← hx, List.drop_left] at hk
        exact ⟨hok, k + 1, hx ▸ .cons ha hk⟩
      · exact .inr ⟨e, verifyFrom_error hlt heq⟩
    · exact ih c hc (by omega)

theorem verifyFrom_iff (hc : c ≤ s.len) :
    verifyFrom s c = .ok () ↔ ∃ k, Sequence (Item 33) k (s.bytes.drop c) := by
  constructor
  · intro hok
    rcases verifyFrom_outcome (s.len - c) c hc le_rfl with ⟨-, hseq⟩ | ⟨e, he⟩
    · exact hseq
    · rw [he] at hok
      cases hok
  · rintro ⟨k, hk⟩
    rw [verifyFrom_skip hk hc List.prefix_rfl, List.length_drop]
    exact verifyFrom_end (by unfold Slice.len; omega)

/-- Bytes after a slice that passes. -/
theorem verifyDefiniteLengthCbor_append {s' : Slice t} {x : List UInt8} (h : verifyDefiniteLengthCbor s = .ok ())
    (hx : s'.bytes = s.bytes ++ x) : verifyDefiniteLengthCbor s' = .ok () ↔ ∃ k, Sequence (Item 33) k x := by
  obtain ⟨k, hk⟩ := (verifyFrom_iff (Nat.zero_le _)).1 h
  have hlen : s.bytes.length ≤ s'.len := by
    rw [Slice.len, hx, List.length_append]
    omega
  rw [verifyDefiniteLengthCbor, verifyFrom_skip hk (Nat.zero_le _) ⟨x, hx.symm⟩, List.drop_zero, Nat.zero_add,
    verifyFrom_iff hlen, hx, List.drop_left]

/-- The scanner accepts exactly its grammar, and never panics. -/
theorem verifyDefiniteLengthCbor_iff (s : Slice t) :
    (verifyDefiniteLengthCbor s = .ok () ↔ ∃ k, Sequence (Item 33) k s.bytes) ∧
      verifyDefiniteLengthCbor s ≠ .error .panic := by
  refine ⟨verifyFrom_iff (Nat.zero_le _), fun hpanic => ?_⟩
  rcases verifyFrom_outcome (s := s) s.len 0 (Nat.zero_le _) (Nat.sub_le _ _) with ⟨hok, -⟩ | ⟨e, he⟩
  · rw [verifyDefiniteLengthCbor, hok] at hpanic
    cases hpanic
  · rw [verifyDefiniteLengthCbor, he] at hpanic
    cases hpanic

end Verify

end Fortiq
