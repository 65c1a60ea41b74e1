/-
The frames of an open shell (`ShellFrame` in `fortiq-shell/src/lib.rs`): a tag, a length in two bytes and a payload.
What is written is read back, however the bytes are split on their way. The reader takes more than the writer writes:
it does not look at the length of a ping or a pong, and a stream that breaks off inside a header counts as ended.
-/
import Fortiq.Lib.CborData
import Fortiq.Lib.Chunked

namespace Fortiq

open Chunked

/-! ## Frames -/

/-- `std::io::ErrorKind`, as far as frames tell the kinds apart. -/
inductive IoErrorKind where
  | invalidInput
  | invalidData
  | unexpectedEof
  | other
deriving DecidableEq, Repr

/-- `std::io::Error`. -/
structure IoError where
  kind : IoErrorKind
  message : String
deriving DecidableEq, Repr

/-- The error of a `read_exact` at the end of the stream. -/
def IoError.earlyEof : IoError := ⟨.unexpectedEof, "early eof"⟩

/-- `AsyncRead`: bytes that arrive in chunks. -/
abbrev ByteStream := Source UInt8 IoError

inductive ShellFrame where
  | data (bytes : List UInt8)
  | resize (cols rows : UInt16)
  | ping
  | pong
deriving DecidableEq, Repr

namespace ShellFrame

def tagData : UInt8 := 0x00
def tagResize : UInt8 := 0x01
def tagPing : UInt8 := 0x02
def tagPong : UInt8 := 0x03

/-- `u16::to_be_bytes`. -/
def toBeBytes (n : UInt16) : List UInt8 := Cbor.bigEndian 2 n.toNat

/-- `u16::from_be_bytes`. -/
def fromBeBytes (high low : UInt8) : UInt16 := (Cbor.beValue [high, low]).toUInt16

def readFrom (s : ByteStream) : Except IoError (Option ShellFrame) × ByteStream :=
  match s.readExact .earlyEof 3 with
  | (.error e, s) => if e.kind = .unexpectedEof then (.ok none, s) else (.error e, s)
  | (.ok header, s) =>
    let tag := header.getD 0 0
    let len := (fromBeBytes (header.getD 1 0) (header.getD 2 0)).toNat
    if tag = tagData then
      match s.readExact .earlyEof len with
      | (.error e, s) => (.error e, s)
      | (.ok buf, s) => (.ok (some (data buf)), s)
    else if tag = tagResize then
      if len ≠ 4 then (.error ⟨.invalidData, "invalid resize frame length"⟩, s)
      else
        match s.readExact .earlyEof 4 with
        | (.error e, s) => (.error e, s)
        | (.ok dims, s) =>
          let cols := fromBeBytes (dims.getD 0 0) (dims.getD 1 0)
          let rows := fromBeBytes (dims.getD 2 0) (dims.getD 3 0)
          (.ok (some (resize cols rows)), s)
    -- the length of these two is not looked at
    else if tag = tagPing then (.ok (some ping), s)
    else if tag = tagPong then (.ok (some pong), s)
    else (.error ⟨.invalidData, "unknown shell frame tag: " ++ toString tag.toNat⟩, s)

/-- Write a frame behind what is written already. -/
def writeTo (frame : ShellFrame) (out : List UInt8) : Except IoError Unit × List UInt8 :=
  match frame with
  | data bytes =>
    if bytes.length > 65535 then (.error ⟨.invalidInput, "shell frame data payload exceeds 65535 bytes"⟩, out)
    else (.ok (), out ++ tagData :: toBeBytes bytes.length.toUInt16 ++ bytes)
  | resize cols rows => (.ok (), out ++ tagResize :: 0 :: 4 :: (toBeBytes cols ++ toBeBytes rows))
  | ping => (.ok (), out ++ [tagPing, 0, 0])
  | pong => (.ok (), out ++ [tagPong, 0, 0])

/-- Write frames one behind the other, up to the first that cannot be written. -/
def writeFrames : List ShellFrame → List UInt8 → Except IoError Unit × List UInt8
  | [], out => (.ok (), out)
  | frame :: frames, out =>
    match frame.writeTo out with
    | (.error e, out) => (.error e, out)
    | (.ok (), out) => writeFrames frames out

/-- A frame that was read, with the bytes the reader took for it. -/
structure Piece where
  frame : ShellFrame
  bytes : List UInt8
deriving DecidableEq, Repr

/-- How reading ends: there is no further frame, with these bytes still to come before the last call, or an error. -/
inductive Ending where
  | eof (left : List UInt8)
  | failed (e : IoError)
deriving DecidableEq, Repr

/-- `read_from` again and again, at most `n` times. -/
def readPieces : Nat → ByteStream → List Piece × Option Ending
  | 0, _ => ([], none)
  | n + 1, s =>
    match readFrom s with
    | (.error e, _) => ([], some (.failed e))
    | (.ok none, _) => ([], some (.eof (items s.chunks)))
    | (.ok (some frame), s') =>
      let taken := (items s.chunks).take ((items s.chunks).length - (items s'.chunks).length)
      (⟨frame, taken⟩ :: (readPieces n s').1, (readPieces n s').2)

/-- `read_from` on a finite stream until there is no frame or an error. -/
def readToEnd (chunks : List (Chunk UInt8)) : List Piece × Option Ending :=
  readPieces ((items chunks).length + 1) ⟨chunks, none⟩

/-! ## Lengths -/

theorem toBeBytes_eq (n : UInt16) : toBeBytes n = [UInt8.ofNat (n.toNat / 256), UInt8.ofNat n.toNat] := rfl

theorem toNat_fromBeBytes (high low : UInt8) : (fromBeBytes high low).toNat = high.toNat * 256 + low.toNat := by
  have hvalue : Cbor.beValue [high, low] = high.toNat * 256 + low.toNat := by simp [Cbor.beValue]
  have hhigh := high.toNat_lt
  have hlow := low.toNat_lt
  rw [fromBeBytes, hvalue, Nat.toUInt16_eq, UInt16.toNat_ofNat']
  omega

theorem fromBeBytes_toBeBytes (n : UInt16) :
    fromBeBytes (UInt8.ofNat (n.toNat / 256)) (UInt8.ofNat n.toNat) = n := by
  have hn := n.toNat_lt
  rw [← UInt16.toNat_inj, toNat_fromBeBytes, UInt8.toNat_ofNat', UInt8.toNat_ofNat']
  omega

theorem toBeBytes_fromBeBytes (high low : UInt8) : toBeBytes (fromBeBytes high low) = [high, low] := by
  have hhigh := high.toNat_lt
  have hlow := low.toNat_lt
  have h₁ : UInt8.ofNat ((high.toNat * 256 + low.toNat) / 256) = high := by
    rw [← UInt8.toNat_inj, UInt8.toNat_ofNat']; omega
  have h₂ : UInt8.ofNat (high.toNat * 256 + low.toNat) = low := by
    rw [← UInt8.toNat_inj, UInt8.toNat_ofNat']; omega
  rw [toBeBytes_eq, toNat_fromBeBytes, h₁, h₂]

theorem four_of_fromBeBytes {high low : UInt8} (h : (fromBeBytes high low).toNat = 4) : high = 0 ∧ low = 4 := by
  have hbytes := toBeBytes_fromBeBytes high low
  rw [toBeBytes_eq, h] at hbytes
  cases hbytes
  exact ⟨rfl, rfl⟩

/-! ## Written frames -/

/-- The length of the frame has a place in its header. -/
def Fits : ShellFrame → Prop
  | data bytes => bytes.length ≤ 65535
  | _ => True

/-- The bytes of a frame. -/
def packet : ShellFrame → List UInt8
  | data bytes => tagData :: (toBeBytes bytes.length.toUInt16 ++ bytes)
  | resize cols rows => tagResize :: 0 :: 4 :: (toBeBytes cols ++ toBeBytes rows)
  | ping => [tagPing, 0, 0]
  | pong => [tagPong, 0, 0]

variable {frame : ShellFrame}

theorem writeTo_of_fits (h : frame.Fits) (out : List UInt8) : frame.writeTo out = (.ok (), out ++ frame.packet) := by
  cases frame with
  | data bytes =>
    rw [writeTo, if_neg (Nat.not_lt.2 h), packet, List.append_assoc]
    rfl
  | _ => rfl

theorem writeTo_of_not_fits (h : ¬ frame.Fits) (out : List UInt8) :
    ∃ bytes, frame = data bytes ∧ bytes.length > 65535 ∧
      frame.writeTo out = (.error ⟨.invalidInput, "shell frame data payload exceeds 65535 bytes"⟩, out) := by
  cases frame with
  | data bytes => exact ⟨bytes, rfl, Nat.not_le.1 h, if_pos (Nat.not_le.1 h)⟩
  | _ => exact absurd trivial h

theorem writeFrames_ok : ∀ {frames : List ShellFrame} {out l : List UInt8}, writeFrames frames out = (.ok (), l) ↔
    (∀ frame ∈ frames, frame.Fits) ∧ l = out ++ frames.flatMap packet
  | [], out, l => by simp [writeFrames, eq_comm]
  | frame :: frames, out, l => by
    rw [writeFrames]
    by_cases h : frame.Fits
    · rw [writeTo_of_fits h]
      simp [writeFrames_ok, h]
    · obtain ⟨bytes, -, -, hw⟩ := writeTo_of_not_fits h out
      rw [hw]
      simp [h]

/-! ## What a read does, by the bytes to come -/

/-- The first frame of some bytes and what follows it; nothing where they are too few for a header. -/
def decode : List UInt8 → Except IoError (Option (ShellFrame × List UInt8))
  | tag :: high :: low :: l =>
    let len := (fromBeBytes high low).toNat
    if tag = tagData then
      if len ≤ l.length then .ok (some (data (l.take len), l.drop len)) else .error .earlyEof
    else if tag = tagResize then
      if len ≠ 4 then .error ⟨.invalidData, "invalid resize frame length"⟩
      else
        match l with
        | a :: b :: c :: d :: l => .ok (some (resize (fromBeBytes a b) (fromBeBytes c d), l))
        | _ => .error .earlyEof
    else if tag = tagPing then .ok (some (ping, l))
    else if tag = tagPong then .ok (some (pong, l))
    else .error ⟨.invalidData, "unknown shell frame tag: " ++ toString tag.toNat⟩
  | _ => .ok none

/-- What `read_from` returns, and what it leaves behind a frame, are those of `decode`: the chunks do not matter. -/
theorem readFrom_eq_decode (chunks : List (Chunk UInt8)) :
    ∃ left, readFrom ⟨chunks, none⟩ = ((decode (items chunks)).map (Option.map Prod.fst), ⟨left, none⟩) ∧
      ∀ frame l, decode (items chunks) = .ok (some (frame, l)) → items left = l := by
  unfold readFrom
  match hl : items chunks with
  | tag :: high :: low :: l =>
    obtain ⟨left, hread, hleft⟩ := Source.readExact_ok IoError.earlyEof (n := 3)
      (s := (⟨chunks, none⟩ : ByteStream)) (by simp [hl])
    simp only [hl, List.drop_succ_cons, List.drop_zero, List.take_succ_cons, List.take_zero] at hread hleft
    rw [hread]
    simp only [List.getD_cons_zero, List.getD_cons_succ, decode]
    split_ifs with hdata hlen hresize hfour hping hpong
    · obtain ⟨left', hread', hleft'⟩ := Source.readExact_ok IoError.earlyEof (n := (fromBeBytes high low).toNat)
        (s := (⟨left, none⟩ : ByteStream)) (by rwa [hleft])
      rw [hread']
      refine ⟨left', by rw [hleft]; rfl, ?_⟩
      rintro frame l' ⟨⟩
      exact hleft'.trans (by rw [hleft])
    · have hread' := Source.readExact_short IoError.earlyEof (n := (fromBeBytes high low).toNat)
        (s := (⟨left, none⟩ : ByteStream)) (by rw [hleft]; omega)
      rw [hread']
      exact ⟨[], rfl, nofun⟩
    · exact ⟨left, rfl, nofun⟩
    · match l with
      | a :: b :: c :: d :: l =>
        obtain ⟨left', hread', hleft'⟩ := Source.readExact_ok IoError.earlyEof (n := 4)
          (s := (⟨left, none⟩ : ByteStream)) (by simp [hleft])
        rw [hread']
        refine ⟨left', by simp only [hleft]; rfl, ?_⟩
        rintro frame l' ⟨⟩
        exact hleft'.trans (by rw [hleft]; rfl)
      | [_, _, _] | [_, _] | [_] | [] =>
        have hread' := Source.readExact_short IoError.earlyEof (n := 4) (s := (⟨left, none⟩ : ByteStream))
          (by simp [hleft])
        rw [hread']
        exact ⟨[], rfl, nofun⟩
    · exact ⟨left, rfl, by rintro frame l' ⟨⟩; exact hleft⟩
    · exact ⟨left, rfl, by rintro frame l' ⟨⟩; exact hleft⟩
    · exact ⟨left, rfl, nofun⟩
  | [_, _] | [_] | [] =>
    have hread := Source.readExact_short IoError.earlyEof (n := 3) (s := (⟨chunks, none⟩ : ByteStream)) (by simp [hl])
    rw [hread]
    exact ⟨[], rfl, nofun⟩

theorem decode_none {l : List UInt8} (h : decode l = .ok none) : l.length < 3 := by
  match l with
  | tag :: high :: low :: l =>
    simp only [decode] at h
    split_ifs at h
    · cases h
    · split at h <;> cases h
    · cases h
    · cases h
  | [_, _] | [_] | [] => simp

/-- A frame that fits is read back, whatever follows it. -/
theorem decode_packet (h : frame.Fits) (l : List UInt8) : decode (frame.packet ++ l) = .ok (some (frame, l)) := by
  cases frame with
  | data bytes =>
    have hlen : (fromBeBytes (UInt8.ofNat (bytes.length.toUInt16.toNat / 256))
        (UInt8.ofNat bytes.length.toUInt16.toNat)).toNat = bytes.length := by
      have hb : bytes.length ≤ 65535 := h
      rw [fromBeBytes_toBeBytes, Nat.toUInt16_eq, UInt16.toNat_ofNat']
      omega
    simp only [packet, toBeBytes_eq, List.cons_append, List.nil_append, decode, if_true, hlen]
    rw [if_pos (by simp), List.take_left, List.drop_left]
  | resize cols rows =>
    have hfour : (fromBeBytes 0 4).toNat = 4 := by decide
    simp only [packet, toBeBytes_eq, List.cons_append, List.nil_append, decode, hfour, fromBeBytes_toBeBytes]
    rfl
  | ping => rfl
  | pong => rfl

/-- The frame only keeps the session alive. -/
def IsKeepalive (frame : ShellFrame) : Prop := frame = ping ∨ frame = pong

/-- What the reader takes for a frame: its packet, or the header of a ping or a pong with some other length. -/
theorem decode_some {l rest : List UInt8} (h : decode l = .ok (some (frame, rest))) :
    frame.Fits ∧ ∃ taken, l = taken ++ rest ∧ 3 ≤ taken.length ∧
      (taken = frame.packet ∨ frame.IsKeepalive ∧ ∃ tag high low, taken = [tag, high, low] ∧ frame.packet = [tag, 0, 0]) := by
  match l with
  | tag :: high :: low :: l =>
    simp only [decode] at h
    split_ifs at h with hdata hlen hresize hfour hping hpong
    · cases h
      have hlt := (fromBeBytes high low).toNat_lt
      have htake : (l.take (fromBeBytes high low).toNat).length = (fromBeBytes high low).toNat := by
        rw [List.length_take]; omega
      refine ⟨by rw [Fits, htake]; omega, tag :: high :: low :: l.take (fromBeBytes high low).toNat, by simp, by simp, .inl ?_⟩
      rw [packet, htake, Nat.toUInt16_eq, UInt16.ofNat_toNat, toBeBytes_fromBeBytes, hdata]
      rfl
    · split at h
      · rename_i a b c d l
        cases h
        obtain ⟨rfl, rfl⟩ := four_of_fromBeBytes (not_ne_iff.1 hfour)
        refine ⟨trivial, [tag, 0, 4, a, b, c, d], rfl, by simp, .inl ?_⟩
        rw [packet, toBeBytes_fromBeBytes, toBeBytes_fromBeBytes, hresize]
        rfl
      · cases h
    · cases h
      exact ⟨trivial, [tag, high, low], rfl, le_rfl, .inr ⟨.inl rfl, tag, high, low, rfl, by rw [hping]; rfl⟩⟩
    · cases h
      exact ⟨trivial, [tag, high, low], rfl, le_rfl, .inr ⟨.inr rfl, tag, high, low, rfl, by rw [hpong]; rfl⟩⟩
  | [_, _] | [_] | [] => cases h

/-! ## Reading to the end -/

/-- What reading some bytes to the end comes to: the pieces it takes, and how it ends. -/
inductive Run : List UInt8 → List Piece → Ending → Prop
  | eof {l : List UInt8} (h : decode l = .ok none) : Run l [] (.eof l)
  | failed {l : List UInt8} {e : IoError} (h : decode l = .error e) : Run l [] (.failed e)
  | piece {taken l : List UInt8} {frame : ShellFrame} {pieces : List Piece} {ending : Ending}
      (h : decode (taken ++ l) = .ok (some (frame, l))) (rest : Run l pieces ending) :
      Run (taken ++ l) (⟨frame, taken⟩ :: pieces) ending

/-- The reader ends, as each frame takes bytes of the stream, and what it reads is a run over the bytes. -/
theorem readPieces_run : ∀ (n : Nat) (chunks : List (Chunk UInt8)), (items chunks).length < n →
    ∃ pieces ending, readPieces n ⟨chunks, none⟩ = (pieces, some ending) ∧ Run (items chunks) pieces ending
  | n + 1, chunks, hn => by
    obtain ⟨left, hread, hleft⟩ := readFrom_eq_decode chunks
    rw [readPieces, hread]
    match hd : decode (items chunks) with
    | .error e => exact ⟨[], _, rfl, .failed hd⟩
    | .ok none => exact ⟨[], _, rfl, .eof hd⟩
    | .ok (some (frame, l)) =>
      obtain rfl := hleft frame l hd
      obtain ⟨-, taken, htaken, hlen, -⟩ := decode_some hd
      have hlength := congrArg List.length htaken
      rw [List.length_append] at hlength
      obtain ⟨pieces, ending, hpieces, hrun⟩ := readPieces_run n left (by omega)
      have hprefix : (items chunks).take ((items chunks).length - (items left).length) = taken := by
        rw [hlength, Nat.add_sub_cancel, htaken, List.take_left]
      refine ⟨⟨frame, taken⟩ :: pieces, ending, ?_, ?_⟩
      · simp only [Except.map, Option.map, hpieces, hprefix]
      · rw [htaken] at hd ⊢
        exact .piece hd hrun

theorem readToEnd_run (chunks : List (Chunk UInt8)) :
    ∃ pieces ending, readToEnd chunks = (pieces, some ending) ∧ Run (items chunks) pieces ending :=
  readPieces_run _ chunks (Nat.lt_succ_self _)

/-- Packets are read as their frames, to the last. -/
theorem Run.of_packets {l : List UInt8} {pieces : List Piece} {ending : Ending} (hrun : Run l pieces ending) :
    ∀ {frames : List ShellFrame}, (∀ frame ∈ frames, frame.Fits) → l = frames.flatMap packet →
      pieces.map Piece.frame = frames ∧ ending = .eof [] := by
  have hnext : ∀ {f : ShellFrame} {frames : List ShellFrame}, (∀ frame ∈ f :: frames, frame.Fits) →
      decode ((f :: frames).flatMap packet) = .ok (some (f, frames.flatMap packet)) := by
    intro f frames hfit
    rw [List.flatMap_cons]
    exact decode_packet (hfit f (List.mem_cons_self ..)) _
  induction hrun with
  | eof h =>
    rintro (_ | ⟨f, frames⟩) hfit rfl
    · exact ⟨rfl, rfl⟩
    · rw [hnext hfit] at h; cases h
  | failed h =>
    rintro (_ | ⟨f, frames⟩) hfit rfl
    · cases h
    · rw [hnext hfit] at h; cases h
  | piece h _ ih =>
    rintro (_ | ⟨f, frames⟩) hfit hl
    · rw [hl] at h; cases h
    · rw [hl, hnext hfit] at h
      cases h
      obtain ⟨hframes, hending⟩ := ih (fun frame hmem => hfit frame (List.mem_cons_of_mem _ hmem)) rfl
      exact ⟨by rw [List.map_cons, hframes], hending⟩

/-- A frame is refused exactly if it is a data frame whose payload has no place in the length, and nothing of it is
written then. Frames that are written are read back in order from their bytes, in whatever chunks these arrive, and
after them the stream has ended. -/
theorem frame_stream_roundtrip :
    (∀ (frame : ShellFrame) (out : List UInt8),
      ((∃ e, (frame.writeTo out).1 = .error e) ↔ ∃ bytes, frame = data bytes ∧ bytes.length > 65535) ∧
      (∀ e, (frame.writeTo out).1 = .error e → (frame.writeTo out).2 = out)) ∧
    ∀ (frames : List ShellFrame) (chunks : List (Chunk UInt8)), writeFrames frames [] = (.ok (), items chunks) →
      ((readToEnd chunks).1.map Piece.frame, (readToEnd chunks).2) = (frames, some (.eof [])) := by
  refine ⟨fun frame out => ?_, fun frames chunks h => ?_⟩
  · by_cases hfit : frame.Fits
    · rw [writeTo_of_fits hfit]
      refine ⟨⟨nofun, ?_⟩, nofun⟩
      rintro ⟨bytes, rfl, hlen⟩
      exact absurd hfit (Nat.not_le.2 hlen)
    · obtain ⟨bytes, hdata, hlen, hw⟩ := writeTo_of_not_fits hfit out
      rw [hw]
      exact ⟨⟨fun _ => ⟨bytes, hdata, hlen⟩, fun _ => ⟨_, rfl⟩⟩, fun _ _ => rfl⟩
  · obtain ⟨hfit, hitems⟩ := writeFrames_ok.1 h
    obtain ⟨pieces, ending, hread, hrun⟩ := readToEnd_run chunks
    obtain ⟨hframes, hending⟩ := hrun.of_packets hfit hitems
    rw [hread, hframes, hending]

/-- The theorem at three frames whose bytes arrive one by one. -/
theorem frame_stream_roundtrip_singles :
    (readToEnd (singles [0, 0, 2, 104, 105, 1, 0, 4, 0, 80, 0, 24, 2, 0, 0])).1.map Piece.frame =
      [data [104, 105], resize 80 24, ping] :=
  congrArg Prod.fst (frame_stream_roundtrip.2 [data [104, 105], resize 80 24, ping]
    (singles [0, 0, 2, 104, 105, 1, 0, 4, 0, 80, 0, 24, 2, 0, 0]) (by decide))

/-! ## What the reader accepts -/

/-- The frame was read from exactly the bytes it is written as. -/
def Piece.Exact (p : Piece) : Prop := p.frame.writeTo [] = (.ok (), p.bytes)

theorem Piece.exact_iff {p : Piece} : p.Exact ↔ p.frame.Fits ∧ p.frame.packet = p.bytes := by
  unfold Piece.Exact
  by_cases hfit : p.frame.Fits
  · rw [writeTo_of_fits hfit]
    simp [hfit]
  · obtain ⟨bytes, -, -, hw⟩ := writeTo_of_not_fits hfit []
    rw [hw]
    simp [hfit]

/-- The pieces of a stream that has ended are its bytes, up to a part of a header. -/
theorem Run.eof_bytes {l left : List UInt8} {pieces : List Piece} {ending : Ending} (hrun : Run l pieces ending)
    (h : ending = .eof left) : l = pieces.flatMap Piece.bytes ++ left ∧ left.length < 3 := by
  induction hrun with
  | eof hd => cases h; exact ⟨rfl, decode_none hd⟩
  | failed => cases h
  | piece hd _ ih =>
    obtain ⟨hl, hlen⟩ := ih h
    exact ⟨by rw [List.flatMap_cons, List.append_assoc, ← hl], hlen⟩

/-- The tag is unknown, the length of a size is not four, or the payload is cut off. -/
def BadPayload (tag : UInt8) (len : Nat) (l : List UInt8) : Prop :=
  (tag ≠ tagData ∧ (tag ≠ tagResize ∨ len ≠ 4)) ∨ l.length < len

instance (tag : UInt8) (len : Nat) (l : List UInt8) : Decidable (BadPayload tag len l) :=
  inferInstanceAs (Decidable ((tag ≠ tagData ∧ (tag ≠ tagResize ∨ len ≠ 4)) ∨ l.length < len))

/-- A walk over the headers of some bytes, each with as many bytes behind it as it announces, up to a frame that no
reader accepts: a keepalive announces none, and the bytes do not break off inside a header. -/
def wellHeaded : Nat → List UInt8 → Bool
  | n + 1, tag :: high :: low :: l =>
    let len := (fromBeBytes high low).toNat
    if tag = tagPing ∨ tag = tagPong then len = 0 && wellHeaded n l
    else if BadPayload tag len l then true
    else wellHeaded n (l.drop len)
  | _, l => l.isEmpty

theorem decode_bad {tag high low : UInt8} {l : List UInt8} (hkeep : ¬ (tag = tagPing ∨ tag = tagPong))
    (hbad : BadPayload tag (fromBeBytes high low).toNat l) : ∃ e, decode (tag :: high :: low :: l) = .error e := by
  rw [not_or] at hkeep
  simp only [decode]
  split_ifs with hdata hlen hresize hfour
  · rcases hbad with ⟨hne, -⟩ | hshort
    · exact absurd hdata hne
    · omega
  · exact ⟨_, rfl⟩
  · exact ⟨_, rfl⟩
  · rcases hbad with ⟨-, hne | hne⟩ | hshort
    · exact absurd hresize hne
    · exact absurd hne hfour
    · match l with
      | _ :: _ :: _ :: _ :: _ => simp only [List.length_cons] at hshort; omega
      | [_, _, _] | [_, _] | [_] | [] => exact ⟨_, rfl⟩
  · exact absurd ‹_› hkeep.1
  · exact absurd ‹_› hkeep.2
  · exact ⟨_, rfl⟩

theorem decode_announced {tag high low : UInt8} {l : List UInt8}
    (hgood : ¬ BadPayload tag (fromBeBytes high low).toNat l) :
    ∃ frame, decode (tag :: high :: low :: l) = .ok (some (frame, l.drop (fromBeBytes high low).toNat)) ∧
      frame.packet = tag :: high :: low :: l.take (fromBeBytes high low).toNat := by
  obtain ⟨htag, hlen⟩ := not_or.1 hgood
  by_cases hdata : tag = tagData
  · refine ⟨data (l.take (fromBeBytes high low).toNat), ?_, ?_⟩
    · simp only [decode, hdata, if_true]
      rw [if_pos (by omega)]
    · have htake : (l.take (fromBeBytes high low).toNat).length = (fromBeBytes high low).toNat := by
        rw [List.length_take]; omega
      rw [packet, htake, Nat.toUInt16_eq, UInt16.ofNat_toNat, toBeBytes_fromBeBytes, hdata]
      rfl
  · obtain ⟨hresize, hfour⟩ : tag = tagResize ∧ (fromBeBytes high low).toNat = 4 := by
      by_contra hno
      exact htag ⟨hdata, not_and_or.1 hno⟩
    obtain ⟨rfl, rfl⟩ := four_of_fromBeBytes hfour
    rw [hfour] at hlen ⊢
    match l, hlen with
    | a :: b :: c :: d :: l, _ =>
      refine ⟨resize (fromBeBytes a b) (fromBeBytes c d), ?_, ?_⟩
      · simp only [decode, hresize, if_true, hfour]
        rfl
      · rw [packet, toBeBytes_fromBeBytes, toBeBytes_fromBeBytes, hresize]
        rfl
    | [_, _, _], hlen | [_, _], hlen | [_], hlen | [], hlen => simp at hlen

/-- Bytes the reader refuses, bytes too few for a header, or a frame: the walk goes on behind it where the frame is read
from its own packet. -/
theorem wellHeaded_decode {n : Nat} {l : List UInt8} (hn : l.length ≤ n) :
    (∃ e, decode l = .error e ∧ wellHeaded n l = true) ∨
    (decode l = .ok none ∧ (wellHeaded n l = true ↔ l = [])) ∨
    ∃ frame taken rest m, l = taken ++ rest ∧ decode l = .ok (some (frame, rest)) ∧ rest.length ≤ m ∧
      (wellHeaded n l = true ↔ taken = frame.packet ∧ wellHeaded m rest = true) := by
  match n, l with
  | n + 1, tag :: high :: low :: l =>
    simp only [List.length_cons] at hn
    by_cases hkeep : tag = tagPing ∨ tag = tagPong
    · -- a keepalive is read from its header, whatever length that announces
      have hzero : (fromBeBytes high low).toNat = 0 ↔ high = 0 ∧ low = 0 := by
        rw [toNat_fromBeBytes, ← UInt8.toNat_inj, ← UInt8.toNat_inj]
        simp
      obtain ⟨frame, hframe, hpacket⟩ : ∃ frame, decode (tag :: high :: low :: l) = .ok (some (frame, l)) ∧
          frame.packet = [tag, 0, 0] := by
        obtain rfl | rfl := hkeep
        · exact ⟨ping, rfl, rfl⟩
        · exact ⟨pong, rfl, rfl⟩
      refine .inr (.inr ⟨frame, [tag, high, low], l, n, rfl, hframe, by omega, ?_⟩)
      simp [wellHeaded, hkeep, hzero, hpacket]
    · simp only [wellHeaded, hkeep, if_false]
      by_cases hbad : BadPayload tag (fromBeBytes high low).toNat l
      · obtain ⟨e, he⟩ := decode_bad hkeep hbad
        exact .inl ⟨e, he, if_pos hbad⟩
      · obtain ⟨frame, hframe, hpacket⟩ := decode_announced hbad
        refine .inr (.inr ⟨frame, frame.packet, _, n, ?_, hframe, ?_, ?_⟩)
        · rw [hpacket]
          simp
        · rw [List.length_drop]
          omega
        · rw [if_neg hbad, and_iff_right rfl]
  | 0, [] | _ + 1, [] => exact .inr (.inl ⟨rfl, by simp [wellHeaded]⟩)
  | _ + 1, [_] | _ + 1, [_, _] => exact .inr (.inl ⟨rfl, by simp [wellHeaded]⟩)

/-- The walk tells whether the reader takes packets only and ends behind one of them. -/
theorem Run.wellHeaded_iff {l : List UInt8} {pieces : List Piece} {ending : Ending} (hrun : Run l pieces ending) :
    ∀ {n : Nat}, l.length ≤ n → (wellHeaded n l = true ↔
      (∀ p ∈ pieces, p.Exact) ∧ ∀ left, ending = .eof left → left = []) := by
  induction hrun with
  | eof h =>
    intro n hn
    rcases wellHeaded_decode hn with ⟨e, he, -⟩ | ⟨-, hwalk⟩ | ⟨_, _, _, _, -, hd, -⟩
    · rw [h] at he; cases he
    · simp [hwalk]
    · rw [h] at hd; cases hd
  | failed h =>
    intro n hn
    rcases wellHeaded_decode hn with ⟨e, -, hwalk⟩ | ⟨hd, -⟩ | ⟨_, _, _, _, -, hd, -⟩
    · simp [hwalk]
    · rw [h] at hd; cases hd
    · rw [h] at hd; cases hd
  | piece h _ ih =>
    intro n hn
    rcases wellHeaded_decode hn with ⟨e, he, -⟩ | ⟨hd, -⟩ | ⟨frame, taken, rest, m, hl, hd, hm, hwalk⟩
    · rw [h] at he; cases he
    · rw [h] at hd; cases hd
    · rw [h] at hd
      cases hd
      obtain rfl := List.append_cancel_right hl
      have hfit := (decode_some h).1
      rw [hwalk, ih hm, List.forall_mem_cons, Piece.exact_iff, and_iff_right hfit, and_assoc]
      exact and_congr_left' eq_comm

/-- What the reader takes is what the writer writes, and it ends without an error only where a frame has ended,
exactly for the streams in whose headers no keepalive announces a payload and which do not break off inside a header. -/
theorem reader_strict_iff (chunks : List (Chunk UInt8)) :
    ((∀ p ∈ (readToEnd chunks).1, p.Exact) ∧
      (∀ left, (readToEnd chunks).2 = some (.eof left) → left = []) ∧
      ((¬ ∃ frames, writeFrames frames [] = (.ok (), items chunks)) → ∃ e, (readToEnd chunks).2 = some (.failed e))) ↔
    wellHeaded (items chunks).length (items chunks) = true := by
  obtain ⟨pieces, ending, hread, hrun⟩ := readToEnd_run chunks
  rw [hread, hrun.wellHeaded_iff le_rfl]
  simp only [Option.some.injEq]
  refine ⟨fun ⟨hall, hleft, _⟩ => ⟨hall, hleft⟩, fun ⟨hall, hleft⟩ => ⟨hall, hleft, fun hno => ?_⟩⟩
  cases ending with
  | failed e => exact ⟨e, rfl⟩
  | eof left =>
    -- all bytes are those of exact pieces, so the stream is one that is written
    obtain rfl := hleft left rfl
    have hbytes := (hrun.eof_bytes rfl).1
    rw [List.append_nil] at hbytes
    have hpackets : (pieces.map Piece.frame).flatMap packet = pieces.flatMap Piece.bytes := by
      rw [List.flatMap_map]
      exact List.flatMap_congr fun p hp => (Piece.exact_iff.1 (hall p hp)).2
    refine absurd ⟨pieces.map Piece.frame, writeFrames_ok.2 ⟨?_, ?_⟩⟩ hno
    · intro frame hmem
      obtain ⟨p, hp, rfl⟩ := List.mem_map.1 hmem
      exact (Piece.exact_iff.1 (hall p hp)).1
    · rw [hpackets, List.nil_append, hbytes]

/-- A ping whose header announces three bytes: they are left in the stream and read as a frame of their own, and the
whole ends without an error though no frames are written as these bytes. Nor is a single byte an error. -/
theorem ping_with_payload_accepted :
    readToEnd (singles [2, 0, 3, 0, 0, 0]) = ([⟨ping, [2, 0, 3]⟩, ⟨data [], [0, 0, 0]⟩], some (.eof [])) ∧
    ping.writeTo [] = (.ok (), [2, 0, 0]) ∧
    (¬ ∃ frames, writeFrames frames [] = (.ok (), [2, 0, 3, 0, 0, 0])) ∧
    readToEnd (singles [0]) = ([], some (.eof [0])) := by
  have hread : readToEnd (singles [2, 0, 3, 0, 0, 0]) =
      ([⟨ping, [2, 0, 3]⟩, ⟨data [], [0, 0, 0]⟩], some (.eof [])) := by decide
  refine ⟨hread, rfl, ?_, by decide⟩
  rintro ⟨frames, h⟩
  obtain ⟨hfit, hitems⟩ := writeFrames_ok.1 h
  obtain ⟨pieces, ending, hread', hrun⟩ := readToEnd_run (singles [2, 0, 3, 0, 0, 0])
  obtain ⟨rfl, -⟩ := hrun.of_packets hfit (by rw [items_singles]; exact hitems)
  rw [hread] at hread'
  cases hread'
  exact absurd hitems (by decide)

end ShellFrame

end Fortiq
