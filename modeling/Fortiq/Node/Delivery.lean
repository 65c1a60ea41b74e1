/-
What a file sent from one node to another comes to. When the sender succeeds the receiver has recorded the same file,
under the same ticket, with the size and the hash the sender recorded, and has bytes with that size and hash in its
place; and if the file did not change while it was sent, they are the file. Nothing that happens beside the exchange,
and no way the bytes are cut on the stream, changes this.
-/
import Fortiq.Node.Exchange
import Fortiq.Node.Stored

namespace Fortiq

open TicketEngine

variable {env : ExchangeEnv} {node : FileNode} {args : SendArgs} {window : Nat} {s s' : ExchangeState}

/-! ## The steps of both ends -/

/-- Everything the sender does. -/
inductive SenderStep (env : ExchangeEnv) (args : SendArgs) (s : ExchangeState) :
    ExchangeLabel → ExchangeState → Prop
  | tooLarge (hs : s.sender = .starting) (text : String) :
      SenderStep env args s .stat { s with sender := .done (.error text) }
  | stat (hs : s.sender = .starting) (hlen : s.file.length < 2 ^ 64) :
      SenderStep env args s .stat { s with sender := .hashing s.file.length.toUInt64 [] }
  | hash {size : UInt64} {hashed : List UInt8} {n : Nat} (hs : s.sender = .hashing size hashed) (hn : 0 < n)
      (hlt : hashed.length < s.file.length) : SenderStep env args s (.hash n)
        { s with sender := .hashing size (hashed ++ (s.file.drop hashed.length).take n) }
  | noOffer {size : UInt64} {hashed : List UInt8} (hs : s.sender = .hashing size hashed) (id : Vector UInt8 16)
      (text : String) : SenderStep env args s (.offer id) { s with sender := .done (.error text) }
  | offer {size : UInt64} {hashed : List UInt8} {id : Vector UInt8 16} {offer : FileOfferWire}
      (hs : s.sender = .hashing size hashed) (hend : s.file.length ≤ hashed.length)
      (hoffer : makeOffer env args size hashed id = .ok offer) :
      SenderStep env args s (.offer id) { s with sender := .connecting offer }
  | connect {offer : FileOfferWire} (hs : s.sender = .connecting offer) (hr : s.receiver = .waiting)
      (hlen : (env.offerToJson offer).length ≤ 65535) : SenderStep env args s .connect
        { s with sender := .offering offer (offerHeader env offer), receiver := .readingLength [] }
  | headerTooLarge {offer : FileOfferWire} (hs : s.sender = .connecting offer) (hr : s.receiver = .waiting)
      (text : String) : SenderStep env args s .connect
        { s with sender := .done (.error text), receiver := .readingLength [] }
  | writeOffer {offer : FileOfferWire} {rest : List UInt8} {n : Nat} (hs : s.sender = .offering offer rest) (hn : 0 < n)
      (hlt : n < rest.length) : SenderStep env args s (.write n)
        { s with up := s.up.push (rest.take n), sender := .offering offer (rest.drop n) }
  | offered {offer : FileOfferWire} {rest : List UInt8} (hs : s.sender = .offering offer rest) (hn : 0 < rest.length) :
      SenderStep env args s (.write rest.length) { s with up := s.up.push rest, sender := .awaiting offer }
  | accepted {offer : FileOfferWire} (hs : s.sender = .awaiting offer) (hbyte : s.down.next 1 = [fileAccept]) :
      SenderStep env args s .response { s with down := s.down.pull 1, sender := .sending offer 0 [] }
  | denied {offer : FileOfferWire} (hs : s.sender = .awaiting offer) (text : String) (hw : 0 < s.down.waiting.length) :
      SenderStep env args s .response { s with down := s.down.pull 1, sender := .done (.error text) }
  | nextChunk {offer : FileOfferWire} {read : Nat} (hs : s.sender = .sending offer read [])
      (hlt : read < offer.fileSize.toNat) (hle : read + min (offer.fileSize.toNat - read) 8192 ≤ s.file.length) :
      SenderStep env args s .nextChunk
        { s with sender := .sending offer (read + min (offer.fileSize.toNat - read) 8192)
                  ((s.file.drop read).take (min (offer.fileSize.toNat - read) 8192)) }
  | writeChunk {offer : FileOfferWire} {read : Nat} {rest : List UInt8} {n : Nat}
      (hs : s.sender = .sending offer read rest) (hn : 0 < n) (hle : n ≤ rest.length) :
      SenderStep env args s (.write n)
        { s with up := s.up.push (rest.take n), sender := .sending offer read (rest.drop n) }
  | flushed {offer : FileOfferWire} (hs : s.sender = .sending offer offer.fileSize.toNat []) :
      SenderStep env args s .flushed { s with sender := .confirming offer }
  | confirmed {offer : FileOfferWire} (hs : s.sender = .confirming offer) (hbyte : s.down.next 1 = [fileAccept]) :
      SenderStep env args s .confirm { s with down := s.down.pull 1, sender := .recording offer }
  | rejected {offer : FileOfferWire} (hs : s.sender = .confirming offer) (text : String)
      (hw : 0 < s.down.waiting.length) :
      SenderStep env args s .confirm { s with down := s.down.pull 1, sender := .done (.error text) }
  | recorded {offer : FileOfferWire} (hs : s.sender = .recording offer) (engine : TicketEngine) (turn : Turn)
      (uuid : String) : SenderStep env args s (.recordSent turn uuid)
        { s with engine, sender := .done (.ok (sentAttachment env args offer turn.now)) }
  | notRecorded {offer : FileOfferWire} (hs : s.sender = .recording offer) (engine : TicketEngine) (turn : Turn)
      (uuid : String) (text : String) : SenderStep env args s (.recordSent turn uuid)
        { s with engine, sender := .done (.error text) }
  | fails (hs : ∀ result, s.sender ≠ .done result) (text : String) :
      SenderStep env args s (.senderFails text) { s with sender := .done (.error text) }

theorem next_one {p : Pipe UInt8} (hw : 0 < p.waiting.length) : p.next 1 = [(p.next 1).headD 0] := by
  have hlen := Pipe.length_next (n := 1) (p := p) hw
  obtain ⟨b, hb⟩ := List.length_eq_one_iff.1 hlen
  rw [hb]
  rfl

/-- A step the sender takes is one of these. -/
theorem senderStep_of_takes {l : ExchangeLabel} (hl : s.senderTakes window l s.sender = true) :
    SenderStep env args s l (s.step env node args l) := by
  cases hs : s.sender with
  | starting =>
    cases l with
    | stat =>
      simp only [hs, ExchangeState.senderTakes, decide_eq_true_eq] at hl
      simp only [ExchangeState.step, ExchangeState.stepSender]
      split
      · exact .tooLarge hs _
      · exact .stat hs hl
    | senderFails text => exact .fails (by simp [hs]) text
    | _ => simp [hs, ExchangeState.senderTakes] at hl
  | hashing size hashed =>
    cases l with
    | hash n =>
      simp only [hs, ExchangeState.senderTakes, decide_eq_true_eq] at hl
      simp only [ExchangeState.step, ExchangeState.stepSender, hs]
      exact .hash hs hl.1 hl.2.2
    | offer id =>
      simp only [hs, ExchangeState.senderTakes, decide_eq_true_eq] at hl
      simp only [ExchangeState.step, ExchangeState.stepSender, hs]
      cases hoffer : makeOffer env args size hashed id with
      | error error => exact .noOffer hs id error
      | ok offer => exact .offer hs hl hoffer
    | senderFails text => exact .fails (by simp [hs]) text
    | _ => simp [hs, ExchangeState.senderTakes] at hl
  | connecting offer =>
    cases l with
    | connect =>
      simp only [hs, ExchangeState.senderTakes, decide_eq_true_eq] at hl
      simp only [ExchangeState.step, ExchangeState.stepSender, hs]
      split
      · exact .connect hs hl ‹_›
      · exact .headerTooLarge hs hl _
    | senderFails text => exact .fails (by simp [hs]) text
    | _ => simp [hs, ExchangeState.senderTakes] at hl
  | offering offer rest =>
    cases l with
    | write n =>
      simp only [hs, ExchangeState.senderTakes, decide_eq_true_eq] at hl
      simp only [ExchangeState.step, ExchangeState.stepSender, hs]
      obtain hlt | rfl := Nat.lt_or_eq_of_le hl.2.1
      · rw [if_neg (by simpa using hlt)]
        exact .writeOffer hs hl.1 hlt
      · rw [if_pos (by simp), List.take_length]
        exact .offered hs hl.1
    | senderFails text => exact .fails (by simp [hs]) text
    | _ => simp [hs, ExchangeState.senderTakes] at hl
  | awaiting offer =>
    cases l with
    | response =>
      simp only [hs, ExchangeState.senderTakes, decide_eq_true_eq] at hl
      simp only [ExchangeState.step, ExchangeState.stepSender, hs]
      split
      · exact .denied hs _ hl
      · rename_i hb
        exact .accepted hs ((next_one hl).trans (by rw [not_not.1 hb]))
    | senderFails text => exact .fails (by simp [hs]) text
    | _ => simp [hs, ExchangeState.senderTakes] at hl
  | sending offer read rest =>
    cases l with
    | nextChunk =>
      simp only [hs, ExchangeState.senderTakes, decide_eq_true_eq] at hl
      simp only [ExchangeState.step, ExchangeState.stepSender, hs]
      obtain ⟨rfl, hlt, hle⟩ := hl
      exact .nextChunk hs hlt hle
    | write n =>
      simp only [hs, ExchangeState.senderTakes, decide_eq_true_eq] at hl
      simp only [ExchangeState.step, ExchangeState.stepSender, hs]
      exact .writeChunk hs hl.1 hl.2.1
    | flushed =>
      simp only [hs, ExchangeState.senderTakes, decide_eq_true_eq] at hl
      simp only [ExchangeState.step, ExchangeState.stepSender, hs]
      obtain ⟨rfl, rfl⟩ := hl
      exact .flushed hs
    | senderFails text => exact .fails (by simp [hs]) text
    | _ => simp [hs, ExchangeState.senderTakes] at hl
  | confirming offer =>
    cases l with
    | confirm =>
      simp only [hs, ExchangeState.senderTakes, decide_eq_true_eq] at hl
      simp only [ExchangeState.step, ExchangeState.stepSender, hs]
      split
      · exact .rejected hs _ hl
      · rename_i hb
        exact .confirmed hs ((next_one hl).trans (by rw [not_not.1 hb]))
    | senderFails text => exact .fails (by simp [hs]) text
    | _ => simp [hs, ExchangeState.senderTakes] at hl
  | recording offer =>
    cases l with
    | recordSent turn uuid =>
      simp only [ExchangeState.step, ExchangeState.stepSender, hs, ExchangeState.recordSent]
      split
      · exact .notRecorded hs _ turn uuid _
      · exact .recorded hs _ turn uuid
    | senderFails text => exact .fails (by simp [hs]) text
    | _ => simp [hs, ExchangeState.senderTakes] at hl
  | done result =>
    cases l <;> simp [hs, ExchangeState.senderTakes] at hl

/-- Everything the receiver does. -/
inductive ReceiverStep (env : ExchangeEnv) (node : FileNode) (args : SendArgs) (s : ExchangeState) :
    ExchangeLabel → ExchangeState → Prop
  | busy (hr : s.receiver = .readingLength []) :
      ReceiverStep env node args s .busy { s with receiver := .replying FileDenial.denied.byte }
  | pullLength {got : List UInt8} {n : Nat} (hr : s.receiver = .readingLength got) (hn : 0 < n)
      (hw : n ≤ s.up.waiting.length) (hlt : got.length + n < 2) : ReceiverStep env node args s (.pull n)
        { s with up := s.up.pull n, receiver := .readingLength (got ++ s.up.next n) }
  | pulledLength {got : List UInt8} {n : Nat} (hr : s.receiver = .readingLength got) (hn : 0 < n)
      (hw : n ≤ s.up.waiting.length) (hlen : got.length + n = 2) : ReceiverStep env node args s (.pull n)
        { s with up := s.up.pull n, receiver := .readingOffer (Cbor.beValue (got ++ s.up.next n)) [] }
  | pullOffer {want : Nat} {got : List UInt8} {n : Nat} (hr : s.receiver = .readingOffer want got) (hn : 0 < n)
      (hw : n ≤ s.up.waiting.length) (hle : got.length + n ≤ want) : ReceiverStep env node args s (.pull n)
        { s with up := s.up.pull n, receiver := .readingOffer want (got ++ s.up.next n) }
  | pullChunk {got received : List UInt8} {n remaining : Nat} {t : Transfer} (hr : s.receiver = .transferring got)
      (hn : 0 < n) (hw : n ≤ s.up.waiting.length) (ht : s.files.transfers = [t])
      (hp : t.phase = .receiving received remaining) (hle : got.length + n ≤ min remaining 8192) :
      ReceiverStep env node args s (.pull n)
        { s with up := s.up.pull n, receiver := .transferring (got ++ s.up.next n) }
  | unparsed {got : List UInt8} (hr : s.receiver = .readingOffer got.length got) (hparse : env.offerFromJson got = none)
      (turn : Turn) : ReceiverStep env node args s (.checkOffer turn) { s with receiver := .ended }
  | refused {got : List UInt8} {offer : FileOfferWire} {denial : FileDenial} {turn : Turn}
      (hr : s.receiver = .readingOffer got.length got) (hparse : env.offerFromJson got = some offer)
      (hcheck : checkOffer env.toFileEnv node s.files.engine turn args.peer offer = .error denial) :
      ReceiverStep env node args s (.checkOffer turn) { s with receiver := .replying denial.byte }
  | checked {got : List UInt8} {offer : FileOfferWire} {fileId : String} {turn : Turn}
      (hr : s.receiver = .readingOffer got.length got) (hparse : env.offerFromJson got = some offer)
      (hcheck : checkOffer env.toFileEnv node s.files.engine turn args.peer offer = .ok fileId) :
      ReceiverStep env node args s (.checkOffer turn)
        { s with receiver := .accepting,
                 files := { s.files with transfers := s.files.transfers ++ [⟨args.peer, offer, fileId, .accepted⟩] } }
  | noDirectory (hr : s.receiver = .accepting) : ReceiverStep env node args s .noDirectory
      { s with receiver := .replying FileDenial.denied.byte, files := s.files.step env.toFileEnv node (.abort 0) }
  | accept (hr : s.receiver = .accepting) : ReceiverStep env node args s .accept
      { s with receiver := .transferring [], down := s.down.push [fileAccept] }
  | noPartFile {got : List UInt8} (hr : s.receiver = .transferring got) : ReceiverStep env node args s .noPartFile
      { s with receiver := .ended, files := s.files.step env.toFileEnv node (.abort 0) }
  | transfer {got : List UInt8} {l : FileLabel} {i : Nat} {t : Transfer} (hr : s.receiver = .transferring got)
      (ht : s.files.transfers[i]? = some t) (hl : FileState.takes t.phase l = true) (habort : ∀ j, l ≠ .abort j)
      (hchunk : ∀ j bytes failsAfter, l = .chunk j bytes failsAfter → bytes = got) :
      ReceiverStep env node args s (.fileStep l)
        { s with files := s.files.stepTransfer env.toFileEnv node i t l,
                 receiver := ExchangeState.receiverAfterFile (s.files.stepTransfer env.toFileEnv node i t l) got l }
  | reply {byte : UInt8} (hr : s.receiver = .replying byte) : ReceiverStep env node args s .reply
      { s with receiver := .ended, down := s.down.push [byte] }
  | fails (hr : s.receiver ≠ .accepting) (hr' : ∀ got, s.receiver ≠ .transferring got) (hw : s.receiver ≠ .waiting)
      (hend : s.receiver ≠ .ended) :
      ReceiverStep env node args s .receiverFails { s with receiver := .ended }
  | notAccepted (hr : s.receiver = .accepting) : ReceiverStep env node args s .receiverFails
      { s with receiver := .ended, files := s.files.step env.toFileEnv node (.abort 0) }

/-- What the receiver waits for while a file comes. -/
theorem want_transferring {got part : List UInt8} {want : Nat} (hr : s.receiver = .transferring got)
    (h : s.want = some (want, part)) : part = got ∧ ∃ t received remaining, s.files.transfers = [t] ∧
      t.phase = .receiving received remaining ∧ want = min remaining 8192 := by
  simp only [ExchangeState.want, hr] at h
  split at h
  · rename_i ht
    cases h
    exact ⟨rfl, _, _, _, ht, rfl, rfl⟩
  · cases h

theorem receiverStep_of_pull {n : Nat} (hl : s.receiverTakes window (.pull n) s.receiver = true) :
    ReceiverStep env node args s (.pull n) (s.step env node args (.pull n)) := by
  have hwant : ∃ want got, s.want = some (want, got) ∧ 0 < n ∧ got.length + n ≤ want ∧ n ≤ s.up.waiting.length := by
    simp only [ExchangeState.receiverTakes, Option.any_eq_true, decide_eq_true_eq] at hl
    obtain ⟨⟨want, got⟩, h, hn⟩ := hl
    exact ⟨want, got, h, hn⟩
  obtain ⟨want, got, hwant, hn, hle, hw⟩ := hwant
  have hlen : (got ++ s.up.next n).length = got.length + n := by rw [List.length_append, Pipe.length_next hw]
  simp only [ExchangeState.step, ExchangeState.stepReceiver, hwant, ExchangeState.receiverAfter]
  cases hr : s.receiver with
  | readingLength part =>
    simp only [ExchangeState.want, hr, Option.some.injEq, Prod.mk.injEq] at hwant
    obtain ⟨rfl, rfl⟩ := hwant
    simp only [hlen]
    split
    · exact .pulledLength hr hn hw ‹_›
    · exact .pullLength hr hn hw (by omega)
  | readingOffer want' part =>
    simp only [ExchangeState.want, hr, Option.some.injEq, Prod.mk.injEq] at hwant
    obtain ⟨rfl, rfl⟩ := hwant
    exact .pullOffer hr hn hw hle
  | transferring part =>
    obtain ⟨rfl, t, received, remaining, ht, hp, rfl⟩ := want_transferring hr hwant
    exact .pullChunk hr hn hw ht hp hle
  | _ => simp [ExchangeState.want, hr] at hwant

theorem receiverStep_of_checkOffer {turn : Turn} (hl : s.receiverTakes window (.checkOffer turn) s.receiver = true) :
    ReceiverStep env node args s (.checkOffer turn) (s.step env node args (.checkOffer turn)) := by
  cases hr : s.receiver with
  | readingOffer want got =>
    simp only [hr, ExchangeState.receiverTakes, decide_eq_true_eq] at hl
    subst hl
    simp only [ExchangeState.step, ExchangeState.stepReceiver, hr, ExchangeState.checkOffer]
    cases hparse : env.offerFromJson got with
    | none => exact .unparsed hr hparse turn
    | some offer =>
      cases hcheck : checkOffer env.toFileEnv node s.files.engine turn args.peer offer with
      | error denial => simpa only [hcheck] using ReceiverStep.refused hr hparse hcheck
      | ok fileId => simpa only [hcheck, FileState.step] using ReceiverStep.checked hr hparse hcheck
  | _ => simp [hr, ExchangeState.receiverTakes] at hl

theorem fileTakes_spec {got : List UInt8} {l : FileLabel} (h : s.fileTakes got l = true) :
    ∃ i t, FileState.transferOf l = some i ∧ s.files.transfers[i]? = some t ∧ FileState.takes t.phase l = true ∧
      (∀ j, l ≠ .abort j) ∧ ∀ j bytes failsAfter, l = .chunk j bytes failsAfter → bytes = got := by
  cases l with
  | chunk i bytes failsAfter =>
    simp only [ExchangeState.fileTakes, FileState.enabled, FileState.transferOf, Option.any_some, Option.any_eq_true,
      decide_eq_true_eq] at h
    obtain ⟨hgot, t, ht, htakes⟩ := h
    refine ⟨i, t, rfl, ht, htakes, fun _ => nofun, fun j bytes' failsAfter' heq => ?_⟩
    cases heq
    exact hgot
  | _ => simp_all [ExchangeState.fileTakes, FileState.enabled, FileState.transferOf, Option.any_eq_true]

/-- A step the receiver takes is one of these. -/
theorem receiverStep_of_takes {l : ExchangeLabel} (hl : s.receiverTakes window l s.receiver = true) :
    ReceiverStep env node args s l (s.step env node args l) := by
  cases l with
  | pull n => exact receiverStep_of_pull hl
  | checkOffer turn => exact receiverStep_of_checkOffer hl
  | busy =>
    cases hr : s.receiver with
    | readingLength got =>
      cases got with
      | nil => exact .busy hr
      | cons b got => simp [hr, ExchangeState.receiverTakes] at hl
    | _ => simp [hr, ExchangeState.receiverTakes] at hl
  | noDirectory =>
    cases hr : s.receiver with
    | accepting => exact .noDirectory hr
    | _ => simp [hr, ExchangeState.receiverTakes] at hl
  | accept =>
    cases hr : s.receiver with
    | accepting => exact .accept hr
    | _ => simp [hr, ExchangeState.receiverTakes] at hl
  | noPartFile =>
    cases hr : s.receiver with
    | transferring got => exact .noPartFile hr
    | _ => simp [hr, ExchangeState.receiverTakes] at hl
  | reply =>
    cases hr : s.receiver with
    | replying byte =>
      simp only [ExchangeState.step, ExchangeState.stepReceiver, hr]
      exact .reply hr
    | _ => simp [hr, ExchangeState.receiverTakes] at hl
  | receiverFails =>
    cases hr : s.receiver with
    | accepting =>
      simp only [ExchangeState.step, ExchangeState.stepReceiver, hr]
      exact .notAccepted hr
    | waiting => simp [hr, ExchangeState.receiverTakes] at hl
    | transferring got => simp [hr, ExchangeState.receiverTakes] at hl
    | ended => simp [hr, ExchangeState.receiverTakes] at hl
    | _ =>
      simp only [ExchangeState.step, ExchangeState.stepReceiver, hr]
      exact .fails (by simp [hr]) (by simp [hr]) (by simp [hr]) (by simp [hr])
  | fileStep l =>
    cases hr : s.receiver with
    | transferring got =>
      simp only [hr, ExchangeState.receiverTakes] at hl
      simp only [ExchangeState.step, ExchangeState.stepReceiver, hr]
      obtain ⟨i, t, hi, ht, htakes, habort, hchunk⟩ := fileTakes_spec hl
      rw [FileState.step_transfer hi ht]
      exact .transfer hr ht htakes habort hchunk
    | _ => simp [hr, ExchangeState.receiverTakes] at hl
  | _ => simp [ExchangeState.receiverTakes] at hl

/-! ## What the receiver has -/

/-- The bytes of an offer, and then a part of a file. -/
def Parsed (env : ExchangeEnv) (got : List UInt8) (offer : FileOfferWire) (body : List UInt8) : Prop :=
  ∃ len json, len.length = 2 ∧ json.length = Cbor.beValue len ∧ env.offerFromJson json = some offer ∧
    got = len ++ json ++ body

/-- The transfer is one of the peer that sends. -/
structure Transfer.From (env : ExchangeEnv) (args : SendArgs) (t : Transfer) : Prop where
  peer : t.remotePeer = args.peer
  id : normalizeFileId env.toFileEnv t.offer.fileId = some t.fileId

/-- What a transfer has received is what came after its offer; a part of a chunk is held back. -/
def Transfer.Reads (env : ExchangeEnv) (got part : List UInt8) (t : Transfer) : Prop :=
  match t.phase with
  | .accepted => Parsed env got t.offer [] ∧ part = []
  | .receiving received remaining => Parsed env got t.offer (received ++ part) ∧ part.length ≤ min remaining 8192
  | .verified received => Parsed env got t.offer received ∧ env.sha256Hex received = t.offer.sha256
  | .renamed received => Parsed env got t.offer received ∧ env.sha256Hex received = t.offer.sha256
  | _ => True

/-- The file that came is recorded and in its place. -/
def Delivered (env : ExchangeEnv) (node : FileNode) (args : SendArgs) (files : FileState) (got : List UInt8) : Prop :=
  ∃ (t : Transfer) (received : List UInt8) (now : UInt64), t.From env args ∧
    files.recorded = [t.attachment env.toFileEnv node received now] ∧ Parsed env got t.offer received ∧
    received.length = t.offer.fileSize.toNat ∧ env.sha256Hex received = t.offer.sha256 ∧
    files.fs.read (t.finalPath env.toFileEnv node) = some received

/-- The answers of an exchange that is over: the file was refused, or accepted and not taken, or delivered. -/
inductive Answered (env : ExchangeEnv) (node : FileNode) (args : SendArgs) (files : FileState) (got : List UInt8) :
    List UInt8 → Prop
  | refused {b : UInt8} (hb : b ≠ fileAccept) : Answered env node args files got [b]
  | failed {b : UInt8} (hb : b ≠ fileAccept) : Answered env node args files got [fileAccept, b]
  | delivered (h : Delivered env node args files got) : Answered env node args files got [fileAccept, fileAccept]

/-- The receiver and its transfer, by what it has read and what it has answered. -/
def ReceiverOk (env : ExchangeEnv) (node : FileNode) (args : SendArgs) (files : FileState) (got answers : List UInt8) :
    ReceivePhase → Prop
  | .waiting => got = [] ∧ answers = [] ∧ files.transfers = [] ∧ files.recorded = []
  | .readingLength part => got = part ∧ part.length < 2 ∧ answers = [] ∧ files.transfers = [] ∧ files.recorded = []
  | .readingOffer want part => (∃ len, len.length = 2 ∧ want = Cbor.beValue len ∧ got = len ++ part) ∧
      part.length ≤ want ∧ answers = [] ∧ files.transfers = [] ∧ files.recorded = []
  | .accepting => answers = [] ∧ files.recorded = [] ∧
      ∃ t : Transfer, files.transfers = [t] ∧ t.From env args ∧ t.phase = .accepted ∧ Parsed env got t.offer []
  | .transferring part => answers = [fileAccept] ∧ files.recorded = [] ∧
      ∃ t : Transfer, files.transfers = [t] ∧ t.From env args ∧ t.Reads env got part
  | .replying b => files.transfers = [] ∧ Answered env node args files got (answers ++ [b])
  | .ended => answers = [] ∨ answers = [fileAccept] ∨ Answered env node args files got answers

variable {files files' : FileState} {got answers part : List UInt8} {phase : ReceivePhase} {t : Transfer}

theorem Parsed.append {offer : FileOfferWire} {body : List UInt8} (h : Parsed env got offer body) (more : List UInt8) :
    Parsed env (got ++ more) offer (body ++ more) := by
  obtain ⟨len, json, hlen, hjson, hparse, rfl⟩ := h
  exact ⟨len, json, hlen, hjson, hparse, by simp⟩

/-- Files beside those of the exchange are of no consequence. -/
theorem ReceiverOk.frame (h : ReceiverOk env node args files got answers phase)
    (ht : files'.transfers = files.transfers) (hr : files'.recorded = files.recorded)
    (hfs : ∀ r ∈ files.recorded, files'.fs.read r.localPath = files.fs.read r.localPath) :
    ReceiverOk env node args files' got answers phase := by
  have hdelivered : Delivered env node args files got → Delivered env node args files' got := by
    rintro ⟨t, received, now, hfrom, hrec, hparsed, hlen, hsha, hread⟩
    refine ⟨t, received, now, hfrom, hr.trans hrec, hparsed, hlen, hsha, ?_⟩
    rw [← hread]
    exact hfs (t.attachment env.toFileEnv node received now) (hrec ▸ List.mem_singleton_self _)
  have hanswered : ∀ {l}, Answered env node args files got l → Answered env node args files' got l := by
    rintro l (hb | hb | h)
    exacts [.refused hb, .failed hb, .delivered (hdelivered h)]
  cases phase with
  | replying b => exact ⟨ht.trans h.1, hanswered h.2⟩
  | ended => exact h.imp_right (Or.imp_right hanswered)
  | _ => simpa only [ReceiverOk, ht, hr] using h

theorem single_index {u : Transfer} {i : Nat} (hu : files.transfers = [u]) (ht : files.transfers[i]? = some t) :
    i = 0 ∧ u = t := by
  rw [hu] at ht
  cases i with
  | zero => exact ⟨rfl, by simpa using ht⟩
  | succ i => simp at ht

/-- A step of the transfer keeps track of what was read. -/
theorem ReceiverOk.stepTransfer (hsafe : files.Safe env.toFileEnv node)
    (h : ReceiverOk env node args files got answers (.transferring part)) {i : Nat} {l : FileLabel}
    (ht : files.transfers[i]? = some t) (hl : FileState.takes t.phase l = true) (habort : ∀ j, l ≠ .abort j)
    (hchunk : ∀ j bytes failsAfter, l = .chunk j bytes failsAfter → bytes = part) :
    ReceiverOk env node args (files.stepTransfer env.toFileEnv node i t l) got answers
      (ExchangeState.receiverAfterFile (files.stepTransfer env.toFileEnv node i t l) part l) := by
  obtain ⟨rfl, hrec, u, hu, hfrom, hreads⟩ := h
  have hint := hsafe.intact t (List.mem_of_getElem? ht)
  obtain ⟨rfl, rfl⟩ := single_index hu ht
  -- the transfer in its next phase is still the only one
  have hset : ∀ engine fs phase part', ({ u with phase } : Transfer).Reads env got part' →
      ReceiverOk env node args ({ files with engine, fs }.setPhase 0 u phase) got [fileAccept] (.transferring part') := by
    intro engine fs phase part' h
    exact ⟨rfl, hrec, { u with phase }, by simp [FileState.setPhase, hu], ⟨hfrom.peer, hfrom.id⟩, h⟩
  cases l with
  | work a => simp [FileState.takes] at hl
  | offer remote turn offer => simp [FileState.takes] at hl
  | abort j => exact absurd rfl (habort j)
  | create j =>
    cases hphase : u.phase with
    | accepted =>
      simp only [Transfer.Reads, hphase] at hreads
      obtain ⟨hparsed, rfl⟩ := hreads
      exact hset _ _ (.receiving [] u.offer.fileSize.toNat) _ ⟨hparsed, by simp⟩
    | _ => simp [FileState.takes, hphase] at hl
  | chunk j bytes failsAfter =>
    obtain rfl := hchunk j bytes failsAfter rfl
    cases hphase : u.phase with
    | receiving received remaining =>
      simp only [Transfer.Reads, hphase] at hreads
      simp only [FileState.stepTransfer, hphase, ExchangeState.receiverAfterFile]
      cases failsAfter with
      | none => exact hset _ _ (.receiving (received ++ bytes) (remaining - bytes.length)) _ ⟨by simpa using hreads.1, by simp⟩
      | some n => exact hset _ _ .failed _ trivial
    | _ => simp [FileState.takes, hphase] at hl
  | streamFails j => exact hset _ _ .failed _ trivial
  | finish j =>
    cases hphase : u.phase with
    | receiving received remaining =>
      simp only [Transfer.Reads, hphase] at hreads
      simp only [FileState.takes, hphase, decide_eq_true_eq] at hl
      subst hl
      obtain ⟨hparsed, hpart⟩ := hreads
      obtain rfl : part = [] := List.eq_nil_of_length_eq_zero (by simpa using hpart)
      rw [List.append_nil] at hparsed
      simp only [FileState.stepTransfer, hphase, ExchangeState.receiverAfterFile]
      by_cases hsha : env.sha256Hex received = u.offer.sha256
      · rw [if_pos hsha]
        exact hset _ _ (.verified received) _ ⟨hparsed, hsha⟩
      · rw [if_neg hsha]
        exact hset _ _ .failed _ trivial
    | _ => simp [FileState.takes, hphase] at hl
  | rename j fails =>
    cases hphase : u.phase with
    | verified received =>
      simp only [Transfer.Reads, hphase] at hreads
      simp only [FileState.stepTransfer, hphase, ExchangeState.receiverAfterFile]
      split
      · exact hset _ _ .failed _ trivial
      · exact hset _ _ (.renamed received) _ hreads
    | _ => simp [FileState.takes, hphase] at hl
  | record j turn uuid =>
    cases hphase : u.phase with
    | renamed received =>
      simp only [Transfer.Reads, hphase] at hreads
      simp only [Transfer.Intact, hphase] at hint
      simp only [FileState.stepTransfer, hphase, FileState.recordTransfer]
      rcases (Call.addAttachment turn.disk turn.timestamp (u.attachment env.toFileEnv node received turn.now)).run
        (exec env.toEnv) files.engine with ⟨err | _, engine⟩
      · -- the engine refuses: the file is to be removed
        have hne : ({ files with engine }.setPhase 0 u .refused).transfers.isEmpty = false := by
          simp [FileState.setPhase, hu]
        simp only [ExchangeState.receiverAfterFile, hne]
        exact hset _ _ .refused _ trivial
      · have hnil : files.transfers.eraseIdx 0 = [] := by rw [hu]; rfl
        simp only [ExchangeState.receiverAfterFile, FileState.drop, hnil]
        refine ⟨rfl, .delivered ⟨u, received, turn.now, hfrom, ?_, hreads.1, hint.2, hreads.2, hint.1⟩⟩
        show files.recorded ++ _ = _
        rw [hrec]
        rfl
    | _ => simp [FileState.takes, hphase] at hl
  | discard j fails =>
    refine ⟨?_, .failed (by decide)⟩
    show files.transfers.eraseIdx 0 = []
    rw [hu]
    rfl

theorem abort_single (h : files.transfers = [t]) :
    (files.step env.toFileEnv node (.abort 0)) = { files with transfers := [] } := by
  rw [FileState.step_transfer (i := 0) (t := t) rfl (by rw [h]; rfl)]
  simp [FileState.stepTransfer, FileState.drop, h]

/-- An answer that is not given leaves the exchange without a verdict. -/
theorem Answered.init {b : UInt8} (h : Answered env node args files got (answers ++ [b])) :
    answers = [] ∨ answers = [fileAccept] := by
  have hinit : ∀ (first : List UInt8) {c : UInt8}, answers ++ [b] = first ++ [c] → answers = first :=
    fun _ _ hl => List.append_inj_left' hl rfl
  generalize hl : answers ++ [b] = l at h
  cases h with
  | refused hb => exact .inl (hinit [] hl)
  | failed hb => exact .inr (hinit [fileAccept] hl)
  | delivered h => exact .inr (hinit [fileAccept] hl)

theorem FileDenial.byte_ne_accept (denial : FileDenial) : denial.byte ≠ fileAccept := by
  cases denial <;> decide

theorem ReceiverOk.step {l : ExchangeLabel} (hsafe : s.files.Safe env.toFileEnv node)
    (h : ReceiverOk env node args s.files s.up.got s.down.sent s.receiver) (hstep : ReceiverStep env node args s l s') :
    ReceiverOk env node args s'.files s'.up.got s'.down.sent s'.receiver := by
  cases hstep with
  | busy hr =>
    rw [hr] at h
    refine ⟨h.2.2.2.1, ?_⟩
    rw [h.2.2.1]
    exact .refused (FileDenial.byte_ne_accept .denied)
  | pullLength hr hn hw hlt =>
    rw [hr] at h
    obtain ⟨hgot, -, hrest⟩ := h
    refine ⟨by rw [Pipe.got_pull, hgot], ?_, hrest⟩
    rwa [List.length_append, Pipe.length_next hw]
  | pulledLength hr hn hw hlen =>
    rw [hr] at h
    obtain ⟨hgot, -, hrest⟩ := h
    refine ⟨⟨_, ?_, rfl, ?_⟩, Nat.zero_le _, hrest⟩
    · rw [List.length_append, Pipe.length_next hw, hlen]
    · rw [Pipe.got_pull, hgot, List.append_nil]
  | pullOffer hr hn hw hle =>
    rw [hr] at h
    obtain ⟨⟨len, hlen, hwant, hgot⟩, -, hrest⟩ := h
    refine ⟨⟨len, hlen, hwant, ?_⟩, ?_, hrest⟩
    · rw [Pipe.got_pull, hgot, List.append_assoc]
    · rwa [List.length_append, Pipe.length_next hw]
  | pullChunk hr hn hw ht hp hle =>
    rw [hr] at h
    obtain ⟨hans, hrec, t, ht', hfrom, hreads⟩ := h
    rw [ht] at ht'
    cases ht'
    refine ⟨hans, hrec, _, ht, hfrom, ?_⟩
    simp only [Transfer.Reads, hp] at hreads ⊢
    refine ⟨?_, ?_⟩
    · rw [Pipe.got_pull, ← List.append_assoc]
      exact hreads.1.append _
    · rwa [List.length_append, Pipe.length_next hw]
  | unparsed hr hparse turn =>
    rw [hr] at h
    exact .inl h.2.2.1
  | refused hr hparse hcheck =>
    rw [hr] at h
    obtain ⟨-, -, hans, ht, -⟩ := h
    refine ⟨ht, ?_⟩
    rw [hans]
    exact .refused (FileDenial.byte_ne_accept _)
  | checked hr hparse hcheck =>
    rw [hr] at h
    obtain ⟨⟨len, hlen, hwant, hgot⟩, -, hans, ht, hrec⟩ := h
    refine ⟨hans, hrec, _, by rw [ht]; rfl, ⟨rfl, (checkOffer_ok hcheck).1⟩, rfl, len, _, hlen, hwant, hparse, ?_⟩
    rw [hgot, List.append_nil]
  | noDirectory hr =>
    rw [hr] at h
    obtain ⟨hans, hrec, t, ht, -⟩ := h
    rw [abort_single ht, hans]
    exact ⟨rfl, .refused (FileDenial.byte_ne_accept .denied)⟩
  | accept hr =>
    rw [hr] at h
    obtain ⟨hans, hrec, t, ht, hfrom, hphase, hparsed⟩ := h
    refine ⟨by rw [Pipe.sent_push, hans]; rfl, hrec, t, ht, hfrom, ?_⟩
    simpa only [Transfer.Reads, hphase, and_true] using hparsed
  | noPartFile hr =>
    rw [hr] at h
    exact .inr (.inl h.1)
  | transfer hr ht hl habort hchunk =>
    rw [hr] at h
    exact h.stepTransfer hsafe ht hl habort hchunk
  | reply hr =>
    rw [hr] at h
    exact .inr (.inr h.2)
  | notAccepted hr =>
    rw [hr] at h
    exact .inl h.1
  | fails hr hr' hw hend =>
    cases hphase : s.receiver with
    | waiting => exact absurd hphase hw
    | ended => exact absurd hphase hend
    | accepting => exact absurd hphase hr
    | transferring got => exact absurd hphase (hr' got)
    | readingLength got =>
      rw [hphase] at h
      exact .inl h.2.2.1
    | readingOffer want got =>
      rw [hphase] at h
      exact .inl h.2.2.1
    | replying b =>
      rw [hphase] at h
      exact h.2.init.imp_right .inl

/-- Two acceptances are given only for a file that was delivered. -/
theorem ReceiverOk.delivered (h : ReceiverOk env node args files got answers phase)
    (hans : [fileAccept, fileAccept] <+: answers) : Delivered env node args files got := by
  have hlen := hans.length_le
  have hanswered : Answered env node args files got answers := by
    cases phase with
    | waiting => simp [h.2.1] at hlen
    | readingLength got => simp [h.2.2.1] at hlen
    | readingOffer want got => simp [h.2.2.1] at hlen
    | accepting => simp [h.1] at hlen
    | transferring part => simp [h.1] at hlen
    | replying b => rcases h.2.init with rfl | rfl <;> simp at hlen
    | ended =>
      rcases h with rfl | rfl | h
      · simp at hlen
      · simp at hlen
      · exact h
  cases hanswered with
  | refused hb => simp at hlen
  | failed hb => exact absurd (List.cons.inj (List.cons.inj (hans.eq_of_length rfl)).2).1.symm hb
  | delivered hd => exact hd

/-- The receiver's files stay as they should be. -/
theorem ReceiverStep.safe {l : ExchangeLabel} (hsafe : s.files.Safe env.toFileEnv node)
    (h : ReceiverOk env node args s.files s.up.got s.down.sent s.receiver) (hstep : ReceiverStep env node args s l s') :
    s'.files.Safe env.toFileEnv node := by
  have habort : ∀ t, s.files.transfers = [t] → (s.files.step env.toFileEnv node (.abort 0)).Safe env.toFileEnv node := by
    intro t ht
    rw [FileState.step_transfer (i := 0) (t := t) rfl (by rw [ht]; rfl)]
    exact hsafe.drop (by rw [ht]; rfl) (confined_refl t s.files.fs)
  cases hstep with
  | checked hr hparse hcheck =>
    rw [hr] at h
    obtain ⟨-, -, -, ht, hrec⟩ := h
    exact hsafe.accept (length_normalizeFileId (checkOffer_ok hcheck).1) (by simp [ht]) (by simp [hrec])
  | noDirectory hr =>
    rw [hr] at h
    obtain ⟨-, -, t, ht, -⟩ := h
    exact habort t ht
  | noPartFile hr =>
    rw [hr] at h
    obtain ⟨-, -, t, ht, -⟩ := h
    exact habort t ht
  | notAccepted hr =>
    rw [hr] at h
    obtain ⟨-, -, t, ht, -⟩ := h
    exact habort t ht
  | transfer hr ht hl => exact hsafe.stepTransfer ht hl
  | _ => exact hsafe

/-! ## What the sender has sent -/

section Sender

/- The file as it is known: its content, where it does not change. -/
variable {known : Option (List UInt8)} {sent heard : List UInt8} {offer : FileOfferWire}

/-- The offer was made from the arguments, fits its header, and is that of the file. -/
structure OfferOk (env : ExchangeEnv) (args : SendArgs) (known : Option (List UInt8)) (offer : FileOfferWire) : Prop where
  made : ∃ size hashed id, makeOffer env args size hashed id = .ok offer
  size : ∀ content ∈ known, offer.fileSize.toNat = content.length
  sha256 : ∀ content ∈ known, offer.sha256 = env.sha256Hex content

/-- After the offer came so many bytes of the file. -/
def SentOk (env : ExchangeEnv) (known : Option (List UInt8)) (offer : FileOfferWire) (read : Nat) (sent : List UInt8) : Prop :=
  (env.offerToJson offer).length ≤ 65535 ∧ ∃ data, data.length = read ∧ (∀ content ∈ known, data = content.take read) ∧
    sent = offerHeader env offer ++ data

/-- The sender, by what it has written and what it was answered. -/
def SenderOk (env : ExchangeEnv) (args : SendArgs) (known : Option (List UInt8)) (sent heard : List UInt8) : SendPhase → Prop
  | .starting => sent = [] ∧ heard = []
  | .hashing size hashed => sent = [] ∧ heard = [] ∧
      ∀ content ∈ known, size.toNat = content.length ∧ hashed <+: content
  | .connecting offer => sent = [] ∧ heard = [] ∧ OfferOk env args known offer
  | .offering offer rest => heard = [] ∧ OfferOk env args known offer ∧ rest ≠ [] ∧ SentOk env known offer 0 (sent ++ rest)
  | .awaiting offer => heard = [] ∧ OfferOk env args known offer ∧ SentOk env known offer 0 sent
  | .sending offer read rest => heard = [fileAccept] ∧ OfferOk env args known offer ∧ read ≤ offer.fileSize.toNat ∧
      SentOk env known offer read (sent ++ rest)
  | .confirming offer => heard = [fileAccept] ∧ OfferOk env args known offer ∧
      SentOk env known offer offer.fileSize.toNat sent
  | .recording offer => heard = [fileAccept, fileAccept] ∧ OfferOk env args known offer ∧
      SentOk env known offer offer.fileSize.toNat sent
  | .done (.ok a) => heard = [fileAccept, fileAccept] ∧ ∃ offer now, a = sentAttachment env args offer now ∧
      OfferOk env args known offer ∧ SentOk env known offer offer.fileSize.toNat sent
  | .done (.error _) => True

/-- What was read so far, and the next reading of a file that does not change. -/
theorem hashed_prefix {hashed content : List UInt8} (h : hashed <+: content) (n : Nat) :
    hashed ++ (content.drop hashed.length).take n <+: content := by
  obtain ⟨rest, rfl⟩ := h
  rw [List.drop_left]
  exact (List.prefix_append_right_inj hashed).2 (List.take_prefix n rest)

theorem offerOk_of_makeOffer {size : UInt64} {hashed : List UInt8} {id : Vector UInt8 16}
    (hoffer : makeOffer env args size hashed id = .ok offer) :
    offer.ticketId = args.ticketId ∧ offer.fileId = hyphenated id ∧ offer.filename = args.fileName ∧
      offer.fileSize = size ∧ offer.sha256 = env.sha256Hex hashed := by
  simp only [makeOffer] at hoffer
  split at hoffer
  · cases hoffer
  · cases hoffer
    exact ⟨rfl, rfl, rfl, rfl, rfl⟩

theorem SenderOk.step {l : ExchangeLabel} (hfile : ∀ content ∈ known, s.file = content)
    (h : SenderOk env args known s.up.sent s.down.got s.sender) (hstep : SenderStep env args s l s') :
    SenderOk env args known s'.up.sent s'.down.got s'.sender := by
  cases hstep with
  | tooLarge => trivial
  | stat hs hlen =>
    rw [hs] at h
    refine ⟨h.1, h.2, fun content hc => ?_⟩
    rw [hfile content hc] at hlen ⊢
    exact ⟨Nat.mod_eq_of_lt hlen, List.nil_prefix⟩
  | hash hs hn hlt =>
    rw [hs] at h
    refine ⟨h.1, h.2.1, fun content hc => ?_⟩
    obtain ⟨hsize, hpre⟩ := h.2.2 content hc
    rw [hfile content hc]
    exact ⟨hsize, hashed_prefix hpre _⟩
  | noOffer => trivial
  | @offer size hashed id offer hs hend hoffer =>
    rw [hs] at h
    obtain ⟨-, -, -, hsize, hsha⟩ := offerOk_of_makeOffer hoffer
    refine ⟨h.1, h.2.1, ⟨size, hashed, id, hoffer⟩, fun content hc => ?_, fun content hc => ?_⟩
    · rw [hsize]
      exact (h.2.2 content hc).1
    · -- the whole file was hashed
      obtain ⟨-, hpre⟩ := h.2.2 content hc
      rw [hfile content hc] at hend
      rw [hsha, hpre.eq_of_length_le hend]
  | connect hs hr hlen =>
    rw [hs] at h
    obtain ⟨hsent, hheard, hoffer⟩ := h
    refine ⟨hheard, hoffer, by simp [offerHeader, Cbor.bigEndian], hlen, [], rfl, by simp, ?_⟩
    rw [hsent, List.nil_append, List.append_nil]
  | headerTooLarge => trivial
  | writeOffer hs hn hlt =>
    rw [hs] at h
    obtain ⟨hheard, hoffer, -, hsent⟩ := h
    refine ⟨by simpa using hheard, hoffer, by simpa using hlt, ?_⟩
    rwa [Pipe.sent_push, List.append_assoc, List.take_append_drop]
  | offered hs hn =>
    rw [hs] at h
    exact ⟨by simpa using h.1, h.2.1, h.2.2.2⟩
  | accepted hs hbyte =>
    rw [hs] at h
    refine ⟨by rw [Pipe.got_pull, h.1, hbyte]; rfl, h.2.1, Nat.zero_le _, ?_⟩
    simpa using h.2.2
  | denied => trivial
  | @nextChunk offer read hs hlt hle =>
    rw [hs] at h
    obtain ⟨hheard, hoffer, -, hlen, data, hdata, hknown, hsent⟩ := h
    refine ⟨hheard, hoffer, by omega, hlen, data ++ (s.file.drop read).take (min (offer.fileSize.toNat - read) 8192), ?_, ?_, ?_⟩
    · rw [List.length_append, List.length_take, List.length_drop, hdata]
      omega
    · intro content hc
      rw [hknown content hc, hfile content hc, List.take_add]
    · rw [List.append_nil] at hsent
      rw [hsent, List.append_assoc]
  | writeChunk hs hn hle =>
    rw [hs] at h
    obtain ⟨hheard, hoffer, hread, hsent⟩ := h
    refine ⟨by simpa using hheard, hoffer, hread, ?_⟩
    rwa [Pipe.sent_push, List.append_assoc, List.take_append_drop]
  | flushed hs =>
    rw [hs] at h
    obtain ⟨hheard, hoffer, -, hsent⟩ := h
    exact ⟨hheard, hoffer, by rwa [List.append_nil] at hsent⟩
  | confirmed hs hbyte =>
    rw [hs] at h
    exact ⟨by rw [Pipe.got_pull, h.1, hbyte]; rfl, h.2⟩
  | rejected => trivial
  | recorded hs engine turn uuid =>
    rw [hs] at h
    exact ⟨h.1, _, turn.now, rfl, h.2⟩
  | notRecorded => trivial
  | fails => trivial

/-- Two bytes, as many as they say and some more, read from what was sent, are the length and the JSON of the offer and
a part of what followed it. -/
theorem SentOk.split {n : Nat} (hsent : SentOk env known offer n sent) {len json body : List UInt8}
    (hlen : len.length = 2) (hjlen : json.length = Cbor.beValue len) (hgot : len ++ json ++ body <+: sent) :
    json = env.offerToJson offer ∧
      ∃ data, data.length = n ∧ (∀ content ∈ known, data = content.take n) ∧ body <+: data := by
  obtain ⟨hfits, data, hdata, hknown, rfl⟩ := hsent
  obtain ⟨rest, hrest⟩ := hgot
  simp only [offerHeader, List.append_assoc] at hrest
  obtain ⟨hlead, htail⟩ := List.append_inj hrest (by rw [hlen, Cbor.length_bigEndian])
  rw [hlead, Cbor.beValue_bigEndian (by omega)] at hjlen
  obtain ⟨rfl, hbody⟩ := List.append_inj htail hjlen
  exact ⟨rfl, data, hdata, hknown, rest, hbody⟩

/-- What the receiver parses is what was sent. -/
theorem Parsed.of_sent (hjson : env.RoundTrips) {n : Nat} (hsent : SentOk env known offer n sent) {got body : List UInt8}
    (hgot : got <+: sent) {offer' : FileOfferWire} (hp : Parsed env got offer' body) :
    offer' = offer ∧ ∃ data, data.length = n ∧ (∀ content ∈ known, data = content.take n) ∧ body <+: data := by
  obtain ⟨len, json, hlen, hjlen, hparse, rfl⟩ := hp
  obtain ⟨rfl, hdata⟩ := hsent.split hlen hjlen hgot
  rw [hjson offer hsent.1] at hparse
  cases hparse
  exact ⟨rfl, hdata⟩

end Sender

/-! ## Runs -/

/-- What holds throughout an exchange. -/
structure ExchangeInv (env : ExchangeEnv) (node : FileNode) (args : SendArgs) (known : Option (List UInt8))
    (s : ExchangeState) : Prop where
  file : ∀ content ∈ known, s.file = content
  sender : SenderOk env args known s.up.sent s.down.got s.sender
  receiver : ReceiverOk env node args s.files s.up.got s.down.sent s.receiver
  safe : s.files.Safe env.toFileEnv node

theorem SenderStep.frame {l : ExchangeLabel} (h : SenderStep env args s l s') :
    s'.file = s.file ∧ s'.files = s.files ∧ s'.up.got = s.up.got ∧ s'.down.sent = s.down.sent ∧
      (s'.receiver = s.receiver ∨ s.receiver = .waiting ∧ s'.receiver = .readingLength []) := by
  cases h <;> simp_all

theorem ReceiverStep.frame {l : ExchangeLabel} (h : ReceiverStep env node args s l s') :
    s'.file = s.file ∧ s'.sender = s.sender ∧ s'.up.sent = s.up.sent ∧ s'.down.got = s.down.got := by
  cases h <;> simp

variable (args) in
/-- A step is one of the sender or of the receiver, or goes on beside them. -/
theorem exchange_cases {l : ExchangeLabel} (hl : s.enabled env node window l = true) :
    SenderStep env args s l (s.step env node args l) ∨ ReceiverStep env node args s l (s.step env node args l) ∨
      (∃ content, l = .edit content) ∨ (∃ a, l = .senderWork a) ∨ (∃ a, l = .receiverWork a) ∨
      ∃ path content, path ∉ s.paths env node ∧ l = .disturb path content := by
  cases l with
  | edit content => exact .inr (.inr (.inl ⟨content, rfl⟩))
  | senderWork a => exact .inr (.inr (.inr (.inl ⟨a, rfl⟩)))
  | receiverWork a => exact .inr (.inr (.inr (.inr (.inl ⟨a, rfl⟩))))
  | disturb path content =>
    exact .inr (.inr (.inr (.inr (.inr ⟨path, content, of_decide_eq_true hl, rfl⟩))))
  | _ =>
    simp only [ExchangeState.enabled, Bool.or_eq_true] at hl
    exact hl.imp senderStep_of_takes fun h => .inl (receiverStep_of_takes h)

/-- A change of another file is no change to the exchange. -/
theorem FileState.Safe.disturb {files : FileState} (h : files.Safe env.toFileEnv node) {path : String}
    (content : Option (List UInt8))
    (htransfers : ∀ t ∈ files.transfers, path ≠ t.partPath env.toFileEnv node ∧ path ≠ t.finalPath env.toFileEnv node)
    (hrecorded : ∀ r ∈ files.recorded, path ≠ r.localPath) :
    ({ files with fs := ⟨Function.update files.fs.read path content⟩ } : FileState).Safe env.toFileEnv node := by
  have hread : ∀ p, path ≠ p → Function.update files.fs.read path content p = files.fs.read p :=
    fun p hp => Function.update_of_ne (Ne.symm hp) _ _
  refine ⟨h.ids, h.slots, fun t ht => ?_, fun r hr => ?_, h.final, h.apart⟩
  · have hint := h.intact t ht
    unfold Transfer.Intact at hint ⊢
    simp only [hread _ (htransfers t ht).1, hread _ (htransfers t ht).2]
    exact hint
  · have hkept := h.kept r hr
    unfold Holds at hkept ⊢
    simp only [hread _ (hrecorded r hr)]
    exact hkept

namespace ExchangeInv

variable {known : Option (List UInt8)}

theorem start (hfile : ∀ content ∈ known, s.file = content) (h : (exchangeMachine env node args window).start s) :
    ExchangeInv env node args known s := by
  obtain ⟨hs, hr, ht, hrec, hup, hdown⟩ := h
  refine ⟨hfile, ?_, ?_, ?_⟩
  · rw [hs, hup, hdown]
    exact ⟨rfl, rfl⟩
  · rw [hr, hup, hdown]
    exact ⟨rfl, rfl, ht, hrec⟩
  · constructor <;> simp [ht, hrec]

theorem step (h : ExchangeInv env node args known s) {l : ExchangeLabel} (hl : s.enabled env node window l = true)
    (hedit : ∀ content, l = .edit content → known = none) : ExchangeInv env node args known (s.step env node args l) := by
  rcases exchange_cases args hl with hstep | hstep | ⟨content, rfl⟩ | ⟨a, rfl⟩ | ⟨a, rfl⟩ | ⟨path, content, hpath, rfl⟩
  · obtain ⟨hfile, hfiles, hgot, hsent, hrecv⟩ := hstep.frame
    refine ⟨fun content hc => hfile.trans (h.file content hc), h.sender.step h.file hstep, ?_, ?_⟩
    · rw [hfiles, hgot, hsent]
      have hrecvOk := h.receiver
      rcases hrecv with heq | ⟨hw, heq⟩ <;> rw [heq]
      · exact hrecvOk
      · -- the stream is opened
        rw [hw] at hrecvOk
        exact ⟨hrecvOk.1, Nat.zero_lt_two, hrecvOk.2⟩
    · rw [hfiles]
      exact h.safe
  · obtain ⟨hfile, hsender, hsent, hgot⟩ := hstep.frame
    refine ⟨fun content hc => hfile.trans (h.file content hc), ?_, h.receiver.step h.safe hstep, hstep.safe h.safe h.receiver⟩
    rw [hsender, hsent, hgot]
    exact h.sender
  · obtain rfl := hedit content rfl
    exact ⟨nofun, h.sender, h.receiver, h.safe⟩
  · exact ⟨h.file, h.sender, h.receiver, h.safe⟩
  · exact ⟨h.file, h.sender, h.receiver.frame rfl rfl fun _ _ => rfl, h.safe.setEngine _⟩
  · have htransfers : ∀ t ∈ s.files.transfers,
        path ≠ t.partPath env.toFileEnv node ∧ path ≠ t.finalPath env.toFileEnv node := by
      intro t ht
      constructor <;> rintro rfl <;> exact hpath (List.mem_append_left _ (List.mem_flatMap.2 ⟨t, ht, by simp⟩))
    have hrecorded : ∀ r ∈ s.files.recorded, path ≠ r.localPath := by
      rintro r hr rfl
      exact hpath (List.mem_append_right _ (List.mem_map_of_mem hr))
    refine ⟨h.file, h.sender, h.receiver.frame rfl rfl fun r hr => ?_, h.safe.disturb content htransfers hrecorded⟩
    exact Function.update_of_ne (Ne.symm (hrecorded r hr)) _ _

theorem reachable (h : (exchangeMachine env node args window).Reachable s) : ExchangeInv env node args none s :=
  h.invariant (fun _ h => start nofun h) fun _ _ ha h => h.step ha fun _ _ => rfl

/-- When the sender has succeeded, the receiver has what was sent. -/
theorem delivered (hjson : env.RoundTrips) (h : ExchangeInv env node args known s) {a : AttachmentRecord}
    (ha : s.sender = .done (.ok a)) :
    ∃ (t : Transfer) (received : List UInt8) (now now' : UInt64), t.From env args ∧
      s.files.recorded = [t.attachment env.toFileEnv node received now] ∧ a = sentAttachment env args t.offer now' ∧
      OfferOk env args known t.offer ∧ received.length = t.offer.fileSize.toNat ∧
      (∀ content ∈ known, received = content) ∧ env.sha256Hex received = t.offer.sha256 ∧
      s.files.fs.read (t.finalPath env.toFileEnv node) = some received := by
  have hs := h.sender
  rw [ha] at hs
  obtain ⟨hheard, offer, now', rfl, hoffer, hsent⟩ := hs
  -- two acceptances were read, so the last of them was given
  obtain ⟨t, received, now, hfrom, hrec, hparsed, hlen, hsha, hread⟩ := h.receiver.delivered (hheard ▸ s.down.got_prefix)
  obtain ⟨heq, data, hdata, hknown, hpre⟩ := Parsed.of_sent hjson hsent s.up.got_prefix hparsed
  refine ⟨t, received, now, now', hfrom, hrec, by rw [heq], heq ▸ hoffer, hlen, fun content hc => ?_, hsha, hread⟩
  have hall : received = data := hpre.eq_of_length (by rw [hlen, hdata, heq])
  rw [hall, hknown content hc, hoffer.size content hc, List.take_length]

end ExchangeInv

/-- When a file was sent, the receiver has recorded it, once and for the same ticket, and has bytes of the size and the
hash both have recorded; other work leaves the part file and the final path of the transfer alone, and no write is lost
that the receiver has taken for done. -/
theorem sent_delivered (hjson : env.RoundTrips) (h : (exchangeMachine env node args window).Reachable s)
    {a : AttachmentRecord} (ha : s.sender = .done (.ok a)) :
    ∃ r bytes, s.files.recorded = [r] ∧ r.ticketId = a.ticketId ∧ r.senderPeerId = a.senderPeerId ∧
      r.filename = safeName a.filename ∧ r.sizeBytes = a.sizeBytes ∧ r.sha256 = a.sha256 ∧
      normalizeFileId env.toFileEnv a.id = some r.id ∧ s.files.fs.read r.localPath = some bytes ∧
      bytes.length = a.sizeBytes.toNat ∧ env.sha256Hex bytes = a.sha256 := by
  obtain ⟨t, received, now, now', hfrom, hrec, rfl, hoffer, hlen, -, hsha, hread⟩ :=
    (ExchangeInv.reachable h).delivered hjson ha
  obtain ⟨size, hashed, id, hmade⟩ := hoffer.made
  refine ⟨_, received, hrec, (offerOk_of_makeOffer hmade).1, ?_, rfl, rfl, hsha, hfrom.id, hread, hlen, hsha⟩
  show env.peerToString t.remotePeer = env.peerToString args.peer
  rw [hfrom.peer]

/-- The file that is sent does not change. -/
def Unedited (_ : ExchangeState) : ExchangeLabel → Prop
  | .edit _ => False
  | _ => True

instance (s : ExchangeState) (l : ExchangeLabel) : Decidable (Unedited s l) := by
  cases l <;> unfold Unedited <;> infer_instance

/-- A file that does not change while it is sent arrives as it is, under the same assumptions on the receiver's disk. -/
theorem sent_unedited (hjson : env.RoundTrips) {s₀ : ExchangeState} (h₀ : (exchangeMachine env node args window).start s₀)
    (hr : ((exchangeMachine env node args window).restrict Unedited).Run s₀ s) {a : AttachmentRecord}
    (ha : s.sender = .done (.ok a)) :
    ∃ r, s.files.recorded = [r] ∧ s.files.fs.read r.localPath = some s₀.file := by
  have hinv : ExchangeInv env node args (some s₀.file) s := by
    refine hr.keeps (fun u l hl hu => ?_) (.start (fun _ hc => Option.some.inj hc) h₀)
    obtain ⟨hen, hun⟩ : u.enabled env node window l = true ∧ Unedited u l := hl
    refine hu.step hen ?_
    rintro content rfl
    exact hun.elim
  obtain ⟨t, received, now, now', -, hrec, -, -, -, hknown, -, hread⟩ := hinv.delivered hjson ha
  exact ⟨_, hrec, by rw [← hknown _ rfl]; exact hread⟩

namespace ExchangeSample

open FileSample

def home : SendArgs := ⟨⟨utf8 "client"⟩, "T-aaaaaaaa", "/home/log.txt", none⟩

def id : Vector UInt8 16 := Vector.replicate 16 5

def digest : String := hexEncode (List.replicate 32 1)

def offer : FileOfferWire := ⟨"T-aaaaaaaa", hyphenated id, "log.txt", 2, digest, none⟩

/-- A ticket of the peer `client`, and the records of one file at either end. -/
def exchangeTable : EventTable where
  bodies :=
    let received := some "Fichier reçu de client: log.txt"
    [⟨[], 10, 1, .ticket (.created "T-aaaaaaaa" "printer" "on fire" .high "client")⟩,
     ⟨[idAt 0], 100, 2, .ticket (.attachmentAdded "T-aaaaaaaa" fileId "client" "log.txt" 2 digest storedPath 100)⟩,
     ⟨[idAt 1], 100, 3, .ticket (.customAudit "T-aaaaaaaa" "u1" "ATTACHMENT_RECEIVED" "client" received 100)⟩,
     ⟨[idAt 0], 100, 2, .ticket (.attachmentAdded "T-aaaaaaaa" (hyphenated id) "client" "log.txt" 2 digest
       "/home/log.txt" 100)⟩,
     ⟨[idAt 3], 100, 3, .ticket (.customAudit "T-aaaaaaaa" "u2" "ATTACHMENT_SENT" "client"
       (some "Fichier envoyé: log.txt") 100)⟩]

/-- One offer has a short encoding; all others are too long for a header. -/
def exchangeEnv : ExchangeEnv where
  toFileEnv := { fileEnv with toEnv := exchangeTable.env }
  offerToJson := fun x =>
    if (x.ticketId, x.fileId, x.filename, x.fileSize, x.sha256) = ("T-aaaaaaaa", hyphenated id, "log.txt", 2, digest) ∧
      x.authority.isNone then [7] else List.replicate 65536 0
  offerFromJson := fun json => if json = [7] then some offer else none
  certificateToCbor := fun _ => .error ""

theorem roundTrips : exchangeEnv.RoundTrips := by
  intro x hx
  simp only [exchangeEnv] at hx ⊢
  split at hx
  · rename_i h
    obtain ⟨ticketId, fileId, filename, fileSize, sha256, authority⟩ := x
    simp only [Prod.mk.injEq, Option.isNone_iff_eq_none] at h
    obtain ⟨⟨rfl, rfl, rfl, rfl, rfl⟩, rfl⟩ := h
    exact if_pos (if_pos ⟨rfl, rfl⟩)
  · rw [List.length_replicate] at hx
    omega

def created : TicketEngine :=
  ((Reached.start exchangeTable).after (.createTicket "aaaaaaaa" 10 "printer" "on fire" .high "client")).engine

def idle : ExchangeState where
  file := [1, 2]
  sender := .starting
  engine := created
  receiver := .waiting
  files := ⟨created, FileSystem.empty, [], []⟩
  up := Pipe.empty
  down := Pipe.empty

/-- The file is hashed and offered through a window of two bytes, and accepted. -/
def offering : List ExchangeLabel :=
  [.stat, .hash 8192, .offer id, .connect, .write 2, .pull 1, .write 1, .pull 1, .pull 1, .checkOffer atHundred, .accept,
   .response]

/-- Its bytes go in one piece and are checked, and both ends record it. -/
def sending : List ExchangeLabel :=
  [.nextChunk, .fileStep (.create 0), .write 2, .flushed, .pull 2, .fileStep (.chunk 0 [1, 2] none),
   .fileStep (.finish 0), .fileStep (.rename 0 false), .fileStep (.record 0 atHundred "u1"), .reply, .confirm,
   .recordSent atHundred "u2"]

def sent : ExchangeState := (exchangeMachine exchangeEnv operatorNode home 2).after idle (offering ++ sending)

theorem start_idle : (exchangeMachine exchangeEnv operatorNode home 2).start idle := ⟨rfl, rfl, rfl, rfl, rfl, rfl⟩

theorem allows_sent : (exchangeMachine exchangeEnv operatorNode home 2).Allows idle (offering ++ sending) := by
  decide +kernel

/-- The record of a sender that has succeeded. -/
def recordOf : SendPhase → Option AttachmentRecord
  | .done (.ok a) => some a
  | _ => none

theorem recordOf_sent : recordOf sent.sender = some (sentAttachment exchangeEnv home offer 100) := by
  decide +kernel

theorem sender_sent : sent.sender = .done (.ok (sentAttachment exchangeEnv home offer 100)) := by
  have h := recordOf_sent
  unfold recordOf at h
  split at h
  · rename_i heq
    rw [heq, Option.some.inj h]
  · cases h

/-- The theorem where a file was sent through the window. -/
theorem sent_delivered_sample :
    (exchangeMachine exchangeEnv operatorNode home 2).Reachable sent ∧
    sent.sender = .done (.ok (sentAttachment exchangeEnv home offer 100)) ∧
    ∃ r bytes, sent.files.recorded = [r] ∧ r.ticketId = "T-aaaaaaaa" ∧ r.sha256 = digest ∧
      sent.files.fs.read r.localPath = some bytes ∧ bytes.length = 2 := by
  have hreach : (exchangeMachine exchangeEnv operatorNode home 2).Reachable sent :=
    (Machine.Reachable.of_start start_idle).after _ allows_sent
  obtain ⟨r, bytes, hrec, hticket, -, -, -, hsha, -, hread, hlen, -⟩ := sent_delivered roundTrips hreach sender_sent
  exact ⟨hreach, sender_sent, r, bytes, hrec, hticket, hsha, hread, hlen⟩

theorem sent_unedited_sample : ∃ r, sent.files.recorded = [r] ∧ sent.files.fs.read r.localPath = some [1, 2] := by
  have hrun : ((exchangeMachine exchangeEnv operatorNode home 2).restrict Unedited).Run idle sent := by
    rw [sent, ← Machine.after_restrict (C := Unedited)]
    exact .after _ .refl (by decide +kernel)
  exact sent_unedited roundTrips start_idle hrun sender_sent

end ExchangeSample

end Fortiq
