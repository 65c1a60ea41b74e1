/-
How an exchange goes on. Every step of either end uses up a part of a bounded amount of work as long as the file does
not change, so a run cannot go on for ever, whatever fails; and where nothing fails one of the two can always go on
until the sender is done, however small the window of the stream.
-/
import Fortiq.Node.Delivery

namespace Fortiq

open TicketEngine

variable {env : ExchangeEnv} {node : FileNode} {args : SendArgs} {window : Nat} {s s' : ExchangeState}

/-! ## The work that is left -/

/-- What the sender has to do on a file of this size: bytes to write, each counted again when it is read, bytes to read
and to hash, and its phases. -/
def SendPhase.work (size : Nat) : SendPhase → Nat
  | .starting => 2 * (65537 + size) + size + size + 8
  | .hashing _ hashed => 2 * (65537 + size) + size + (size - hashed.length) + 7
  | .connecting _ => 2 * (65537 + size) + size + 6
  | .offering _ rest => 2 * (rest.length + size) + size + 5
  | .awaiting _ => 2 * size + size + 4
  | .sending _ read rest => 2 * (rest.length + (size - read)) + (size - read) + 3
  | .confirming _ => 2
  | .recording _ => 1
  | .done _ => 0

def TransferPhase.work (size : Nat) : TransferPhase → Nat
  | .accepted => size + 6
  | .receiving _ remaining => remaining + 5
  | .verified _ => 4
  | .renamed _ => 3
  | .failed => 2
  | .refused => 2

def Transfer.work (t : Transfer) : Nat := t.phase.work t.offer.fileSize.toNat

/-- What the receiver has to do: chunks to write, none of them empty, and its phases. -/
def ReceivePhase.work (transfers : List Transfer) : ReceivePhase → Nat
  | .waiting => maxFileSize.toNat + 10
  | .readingLength _ => maxFileSize.toNat + 9
  | .readingOffer _ _ => maxFileSize.toNat + 8
  | .accepting => (transfers.map Transfer.work).sum + 1
  | .transferring _ => (transfers.map Transfer.work).sum
  | .replying _ => 1
  | .ended => 0

/-- The work that is left of an exchange. -/
def ExchangeState.work (s : ExchangeState) : Nat :=
  s.sender.work s.file.length + s.up.waiting.length + s.receiver.work s.files.transfers

theorem length_waiting_push (p : Pipe UInt8) (content : List UInt8) :
    (p.push content).waiting.length = p.waiting.length + content.length := by
  have := p.le
  rw [Pipe.length_waiting, Pipe.length_waiting, Pipe.sent_push, List.length_append]
  show p.sent.length + content.length - p.taken = _
  omega

theorem length_waiting_pull (p : Pipe UInt8) (n : Nat) : (p.pull n).waiting.length = p.waiting.length - n := by
  rw [Pipe.length_waiting, Pipe.length_waiting, Pipe.sent_pull]
  show p.sent.length - min (p.taken + n) p.sent.length = _
  omega

theorem SenderStep.work_lt {l : ExchangeLabel} (hstep : SenderStep env args s l s') : s'.work < s.work := by
  cases hstep with
  | tooLarge hs text => simp [ExchangeState.work, hs, SendPhase.work]
  | stat hs hlen => simp [ExchangeState.work, hs, SendPhase.work]
  | hash hs hn hlt =>
    simp only [ExchangeState.work, hs, SendPhase.work, List.length_append, List.length_take, List.length_drop]
    omega
  | noOffer hs id text => simp [ExchangeState.work, hs, SendPhase.work]
  | offer hs hend hoffer => simp only [ExchangeState.work, hs, SendPhase.work]; omega
  | connect hs hr hlen =>
    simp only [ExchangeState.work, hs, hr, SendPhase.work, ReceivePhase.work, offerHeader, List.length_append,
      Cbor.length_bigEndian]
    omega
  | headerTooLarge hs hr text => simp only [ExchangeState.work, hs, hr, SendPhase.work, ReceivePhase.work]; omega
  | writeOffer hs hn hlt =>
    simp only [ExchangeState.work, hs, SendPhase.work, length_waiting_push, List.length_take, List.length_drop]
    omega
  | offered hs hn =>
    simp only [ExchangeState.work, hs, SendPhase.work, length_waiting_push]
    omega
  | accepted hs hbyte =>
    simp only [ExchangeState.work, hs, SendPhase.work, List.length_nil]
    omega
  | denied hs text hw => simp only [ExchangeState.work, hs, SendPhase.work]; omega
  | nextChunk hs hlt hle =>
    simp only [ExchangeState.work, hs, SendPhase.work, List.length_take, List.length_drop, List.length_nil]
    omega
  | writeChunk hs hn hle =>
    simp only [ExchangeState.work, hs, SendPhase.work, length_waiting_push, List.length_take, List.length_drop]
    omega
  | flushed hs => simp only [ExchangeState.work, hs, SendPhase.work]; omega
  | confirmed hs hbyte => simp only [ExchangeState.work, hs, SendPhase.work]; omega
  | rejected hs text hw => simp only [ExchangeState.work, hs, SendPhase.work]; omega
  | recorded hs engine turn uuid => simp only [ExchangeState.work, hs, SendPhase.work]; omega
  | notRecorded hs engine turn uuid text => simp only [ExchangeState.work, hs, SendPhase.work]; omega
  | fails hs text =>
    have hpos : 0 < s.sender.work s.file.length := by
      cases hphase : s.sender with
      | done result => exact absurd hphase (hs result)
      | _ => simp [SendPhase.work]
    show 0 + s.up.waiting.length + s.receiver.work s.files.transfers < s.work
    simp only [ExchangeState.work]
    omega

theorem TransferPhase.work_pos (phase : TransferPhase) (size : Nat) : 0 < phase.work size := by
  cases phase <;> simp [TransferPhase.work]

variable (env node) in
/-- A step of a transfer is one phase or one chunk less. -/
theorem stepTransfer_work_lt {files : FileState} (part : List UInt8) {t : Transfer} {l : FileLabel}
    (ht : files.transfers = [t]) (hl : FileState.takes t.phase l = true) (habort : ∀ j, l ≠ .abort j) :
    (ExchangeState.receiverAfterFile (files.stepTransfer env.toFileEnv node 0 t l) part l).work
      (files.stepTransfer env.toFileEnv node 0 t l).transfers < t.work := by
  -- the transfer in its next phase is the only one
  have hset : ∀ (files' : FileState) phase part', files'.transfers = files.transfers →
      phase.work t.offer.fileSize.toNat < t.work →
      (ReceivePhase.transferring part').work (files'.setPhase 0 t phase).transfers < t.work := by
    intro files' phase part' hfiles hlt
    simpa [ReceivePhase.work, FileState.setPhase, hfiles, ht, Transfer.work] using hlt
  cases l with
  | work a => simp [FileState.takes] at hl
  | offer remote turn offer => simp [FileState.takes] at hl
  | abort j => exact absurd rfl (habort j)
  | create j =>
    cases hphase : t.phase with
    | accepted => exact hset _ _ _ rfl (by simp [Transfer.work, hphase, TransferPhase.work])
    | _ => simp [FileState.takes, hphase] at hl
  | chunk j bytes failsAfter =>
    cases hphase : t.phase with
    | receiving received remaining =>
      simp only [FileState.takes, hphase, decide_eq_true_eq] at hl
      simp only [FileState.stepTransfer, hphase, ExchangeState.receiverAfterFile]
      cases failsAfter with
      | none => exact hset _ _ _ rfl (by simp only [Transfer.work, hphase, TransferPhase.work]; omega)
      | some n => exact hset _ _ _ rfl (by simp only [Transfer.work, hphase, TransferPhase.work]; omega)
    | _ => simp [FileState.takes, hphase] at hl
  | streamFails j =>
    cases hphase : t.phase with
    | receiving received remaining =>
      exact hset _ .failed _ rfl (by simp only [Transfer.work, hphase, TransferPhase.work]; omega)
    | _ => simp [FileState.takes, hphase] at hl
  | finish j =>
    cases hphase : t.phase with
    | receiving received remaining =>
      simp only [FileState.stepTransfer, hphase, ExchangeState.receiverAfterFile]
      refine hset _ _ _ rfl ?_
      split <;> simp only [Transfer.work, hphase, TransferPhase.work] <;> omega
    | _ => simp [FileState.takes, hphase] at hl
  | rename j fails =>
    cases hphase : t.phase with
    | verified received =>
      simp only [FileState.stepTransfer, hphase, ExchangeState.receiverAfterFile]
      split <;> exact hset _ _ _ rfl (by simp [Transfer.work, hphase, TransferPhase.work])
    | _ => simp [FileState.takes, hphase] at hl
  | record j turn uuid =>
    cases hphase : t.phase with
    | renamed received =>
      simp only [FileState.stepTransfer, hphase, FileState.recordTransfer]
      rcases (Call.addAttachment turn.disk turn.timestamp (t.attachment env.toFileEnv node received turn.now)).run
        (exec env.toEnv) files.engine with ⟨err | _, engine⟩
      · have hne : ({ files with engine }.setPhase 0 t .refused).transfers.isEmpty = false := by
          simp [FileState.setPhase, ht]
        simp only [ExchangeState.receiverAfterFile, hne]
        exact hset _ .refused _ rfl (by simp [Transfer.work, hphase, TransferPhase.work])
      · have hnil : files.transfers.eraseIdx 0 = [] := by rw [ht]; rfl
        simp [ExchangeState.receiverAfterFile, FileState.drop, hnil, ReceivePhase.work, Transfer.work, hphase,
          TransferPhase.work]
    | _ => simp [FileState.takes, hphase] at hl
  | discard j fails =>
    cases hphase : t.phase with
    | failed => simp [ExchangeState.receiverAfterFile, ReceivePhase.work, Transfer.work, hphase, TransferPhase.work]
    | refused => simp [ExchangeState.receiverAfterFile, ReceivePhase.work, Transfer.work, hphase, TransferPhase.work]
    | _ => simp [FileState.takes, hphase] at hl

theorem ReceiverStep.work_lt {l : ExchangeLabel} (h : ReceiverOk env node args s.files s.up.got s.down.sent s.receiver)
    (hstep : ReceiverStep env node args s l s') : s'.work < s.work := by
  cases hstep with
  | busy hr => simp only [ExchangeState.work, hr, ReceivePhase.work]; omega
  | pullLength hr hn hw hlt => simp only [ExchangeState.work, hr, ReceivePhase.work, length_waiting_pull]; omega
  | pulledLength hr hn hw hlen => simp only [ExchangeState.work, hr, ReceivePhase.work, length_waiting_pull]; omega
  | pullOffer hr hn hw hle => simp only [ExchangeState.work, hr, ReceivePhase.work, length_waiting_pull]; omega
  | pullChunk hr hn hw ht hp hle => simp only [ExchangeState.work, hr, ReceivePhase.work, length_waiting_pull]; omega
  | unparsed hr hparse turn => simp only [ExchangeState.work, hr, ReceivePhase.work]; omega
  | refused hr hparse hcheck => simp only [ExchangeState.work, hr, ReceivePhase.work]; omega
  | checked hr hparse hcheck =>
    rw [hr] at h
    obtain ⟨-, -, -, ht, -⟩ := h
    have hsize := UInt64.le_iff_toNat_le.1 (checkOffer_ok hcheck).2.1
    simp only [ExchangeState.work, hr, ReceivePhase.work, ht, List.nil_append, List.map_cons, List.map_nil, List.sum_cons,
      List.sum_nil, Transfer.work, TransferPhase.work]
    omega
  | noDirectory hr =>
    rw [hr] at h
    obtain ⟨-, -, t, ht, -, hphase, -⟩ := h
    simp [ExchangeState.work, hr, ReceivePhase.work, ht, Transfer.work, hphase, TransferPhase.work]
  | accept hr => simp only [ExchangeState.work, hr, ReceivePhase.work]; omega
  | noPartFile hr =>
    rw [hr] at h
    obtain ⟨-, -, t, ht, -⟩ := h
    have hpos := t.phase.work_pos t.offer.fileSize.toNat
    simp [ExchangeState.work, hr, ReceivePhase.work, ht, Transfer.work, hpos]
  | @transfer part l i t hr ht hl habort hchunk =>
    rw [hr] at h
    obtain ⟨-, -, u, hu, -⟩ := h
    obtain ⟨rfl, rfl⟩ := single_index hu ht
    have hlt := stepTransfer_work_lt env node part hu hl habort
    have hold : s.receiver.work s.files.transfers = u.work := by simp [hr, hu, ReceivePhase.work]
    simp only [ExchangeState.work, hold]
    omega
  | reply hr => simp [ExchangeState.work, hr, ReceivePhase.work]
  | fails hr hr' hw hend =>
    cases hphase : s.receiver with
    | waiting => exact absurd hphase hw
    | ended => exact absurd hphase hend
    | accepting => exact absurd hphase hr
    | transferring got => exact absurd hphase (hr' got)
    | _ => simp [ExchangeState.work, hphase, ReceivePhase.work]
  | notAccepted hr => simp only [ExchangeState.work, hr, ReceivePhase.work]; omega

/-- The label is of the sender or the receiver. -/
def ExchangeLabel.moves : ExchangeLabel → Bool
  | .edit _ | .senderWork _ | .receiverWork _ | .disturb _ _ => false
  | _ => true

/-- A step of either end is work done, and what goes on beside them makes none. -/
theorem ExchangeInv.work_step {known : Option (List UInt8)} (h : ExchangeInv env node args known s) {l : ExchangeLabel}
    (hl : s.enabled env node window l = true) (hun : Unedited s l) :
    (s.step env node args l).work + l.moves.toNat ≤ s.work := by
  have hmoves : l.moves.toNat ≤ 1 := Bool.toNat_le _
  rcases exchange_cases args hl with hstep | hstep | ⟨content, rfl⟩ | ⟨a, rfl⟩ | ⟨a, rfl⟩ | ⟨path, content, -, rfl⟩
  · have := hstep.work_lt
    omega
  · have := hstep.work_lt h.receiver
    omega
  · exact hun.elim
  all_goals exact le_rfl

/-- An exchange comes to an end: as long as the file does not change, the two ends take no more steps than this,
whatever fails and whatever happens beside them on other paths than those of the transfer. -/
theorem exchange_bounded (h₀ : (exchangeMachine env node args window).start s) (steps : List ExchangeLabel)
    (hr : ((exchangeMachine env node args window).restrict Unedited).Allows s steps) :
    steps.countP ExchangeLabel.moves ≤ 4 * s.file.length + 52559892 := by
  have hbound := Machine.countP_le (I := ExchangeInv env node args none) ExchangeState.work ExchangeLabel.moves
    (fun u l hl hu => ?_) steps (.start nofun h₀) hr
  · obtain ⟨hs, hrecv, ht, -, hup, -⟩ := h₀
    have hwork : s.work = 4 * s.file.length + 52559892 := by
      have hmax : maxFileSize.toNat = 52428800 := by decide
      simp only [ExchangeState.work, hs, hrecv, hup, SendPhase.work, ReceivePhase.work, hmax]
      simp only [Pipe.waiting, Pipe.empty, List.drop_nil, List.length_nil]
      omega
    omega
  · obtain ⟨hen, hun⟩ : u.enabled env node window l = true ∧ Unedited u l := hl
    exact ⟨hu.step hen (by rintro content rfl; exact hun.elim), hu.work_step hen hun⟩

/-! ## Exchanges in which nothing fails -/

def ExchangeLabel.smooth : ExchangeLabel → Bool
  | .edit _ | .senderFails _ | .busy | .noDirectory | .noPartFile | .receiverFails => false
  | .fileStep (.chunk _ _ failsAfter) => failsAfter.isNone
  | .fileStep (.streamFails _) => false
  | .fileStep (.rename _ fails) => !fails
  | _ => true

/-- Nothing fails at either end, and the file does not change. -/
def Smooth (_ : ExchangeState) (l : ExchangeLabel) : Prop := l.smooth = true

instance (s : ExchangeState) (l : ExchangeLabel) : Decidable (Smooth s l) :=
  inferInstanceAs (Decidable (l.smooth = true))

/-- What was read when so many answers were given: the offer, or the whole file. -/
def SettledAt (env : ExchangeEnv) (got : List UInt8) : Nat → Prop
  | 1 => ∃ offer, Parsed env got offer []
  | 2 => ∃ offer body, Parsed env got offer body ∧ body.length = offer.fileSize.toNat
  | _ => False

/-- The receiver reads what there is to read before it gives a verdict, and finds nothing wrong with a file. -/
def ReceiverFlow (env : ExchangeEnv) (files : FileState) (got answers : List UInt8) : ReceivePhase → Prop
  | .waiting => False
  | .transferring _ => ∀ t ∈ files.transfers, t.phase ≠ .failed ∧
      (t.phase = .refused → ∃ body, Parsed env got t.offer body ∧ body.length = t.offer.fileSize.toNat)
  | .replying _ => SettledAt env got (answers.length + 1)
  | .ended => answers ≠ [fileAccept] ∧ SettledAt env got answers.length
  | _ => True

/-- The offer of a sender that has opened its stream. -/
def SendPhase.opened : SendPhase → Option FileOfferWire
  | .offering offer _ | .awaiting offer | .sending offer _ _ | .confirming offer | .recording offer => some offer
  | _ => none

/-- The receiver waits for the stream to be opened, and then follows the sender until that is done. -/
structure Flow (env : ExchangeEnv) (s : ExchangeState) : Prop where
  before : s.sender.opened = none → (∃ result, s.sender = .done result) ∨ s.receiver = .waiting
  after : ∀ offer, s.sender.opened = some offer → ReceiverFlow env s.files s.up.got s.down.sent s.receiver

/-- The bytes of the stream of a file: they begin with its offer, and go on with its content. -/
structure Streams (env : ExchangeEnv) (args : SendArgs) (content sent : List UInt8) (offer : FileOfferWire) : Prop where
  offerOk : OfferOk env args (some content) offer
  sent : ∃ n whole, n ≤ offer.fileSize.toNat ∧ SentOk env (some content) offer n whole ∧ sent <+: whole

variable {content sent heard got answers part : List UInt8} {offer : FileOfferWire} {files : FileState} {t : Transfer}

/-- A file that came as a whole has the hash that was offered. -/
theorem Streams.sha256 (hjson : env.RoundTrips) (h : Streams env args content sent offer) (hgot : got <+: sent)
    {received : List UInt8} (hp : Parsed env got t.offer received) (hlen : received.length = t.offer.fileSize.toNat) :
    env.sha256Hex received = t.offer.sha256 := by
  obtain ⟨n, whole, hn, hsent, hpre⟩ := h.sent
  obtain ⟨heq, data, hdata, hknown, hbody⟩ := Parsed.of_sent hjson hsent (hgot.trans hpre) hp
  have hle := hbody.length_le
  rw [heq] at hlen
  have hsize : n = offer.fileSize.toNat := by omega
  have hall : received = data := hbody.eq_of_length (by omega)
  rw [heq, h.offerOk.sha256 content rfl, hall, hknown content rfl, hsize, h.offerOk.size content rfl, List.take_length]

theorem ReceiverFlow.stepTransfer (hjson : env.RoundTrips) (hstream : Streams env args content sent offer)
    (hgot : got <+: sent) (hsafe : files.Safe env.toFileEnv node)
    (h : ReceiverOk env node args files got answers (.transferring part))
    (hflow : ReceiverFlow env files got answers (.transferring part)) {i : Nat} {l : FileLabel}
    (ht : files.transfers[i]? = some t) (hl : FileState.takes t.phase l = true) (habort : ∀ j, l ≠ .abort j)
    (hsmooth : Smooth s (.fileStep l)) :
    ReceiverFlow env (files.stepTransfer env.toFileEnv node i t l) got answers
      (ExchangeState.receiverAfterFile (files.stepTransfer env.toFileEnv node i t l) part l) := by
  obtain ⟨rfl, -, u, hu, -, hreads⟩ := h
  have hint := hsafe.intact t (List.mem_of_getElem? ht)
  obtain ⟨rfl, rfl⟩ := single_index hu ht
  have hset : ∀ (files' : FileState) phase part', files'.transfers = files.transfers → phase ≠ .failed →
      (phase = .refused → ∃ body, Parsed env got u.offer body ∧ body.length = u.offer.fileSize.toNat) →
      ReceiverFlow env (files'.setPhase 0 u phase) got [fileAccept] (.transferring part') := by
    intro files' phase part' hfiles hfailed hrefused t ht
    obtain rfl : t = { u with phase } := by simpa [FileState.setPhase, hfiles, hu] using ht
    exact ⟨hfailed, hrefused⟩
  cases l with
  | work a => simp [FileState.takes] at hl
  | offer remote turn offer => simp [FileState.takes] at hl
  | abort j => exact absurd rfl (habort j)
  | create j => exact hset _ (.receiving [] u.offer.fileSize.toNat) _ rfl (by simp) (by simp)
  | chunk j bytes failsAfter =>
    obtain rfl : failsAfter = none := Option.isNone_iff_eq_none.1 hsmooth
    cases hphase : u.phase with
    | receiving received remaining =>
      simp only [FileState.stepTransfer, hphase]
      exact hset _ (.receiving _ _) _ rfl (by simp) (by simp)
    | _ => simp [FileState.takes, hphase] at hl
  | streamFails j => cases hsmooth
  | finish j =>
    cases hphase : u.phase with
    | receiving received remaining =>
      simp only [Transfer.Reads, hphase] at hreads
      simp only [Transfer.Intact, hphase] at hint
      simp only [FileState.takes, hphase, decide_eq_true_eq] at hl
      subst hl
      obtain rfl : part = [] := List.eq_nil_of_length_eq_zero (by simpa using hreads.2)
      have hsha := hstream.sha256 hjson hgot (by simpa using hreads.1) hint.2
      simp only [FileState.stepTransfer, hphase, if_pos hsha]
      exact hset _ (.verified received) _ rfl (by simp) (by simp)
    | _ => simp [FileState.takes, hphase] at hl
  | rename j fails =>
    obtain rfl : fails = false := by simpa [Smooth, ExchangeLabel.smooth] using hsmooth
    cases hphase : u.phase with
    | verified received =>
      simp only [Transfer.Intact, hphase] at hint
      simp only [FileState.stepTransfer, hphase, hint.1]
      exact hset _ (.renamed received) _ rfl (by simp) (by simp)
    | _ => simp [FileState.takes, hphase] at hl
  | record j turn uuid =>
    cases hphase : u.phase with
    | renamed received =>
      simp only [Transfer.Reads, hphase] at hreads
      simp only [Transfer.Intact, hphase] at hint
      have hwhole : ∃ body, Parsed env got u.offer body ∧ body.length = u.offer.fileSize.toNat := ⟨_, hreads.1, hint.2⟩
      simp only [FileState.stepTransfer, hphase, FileState.recordTransfer]
      rcases (Call.addAttachment turn.disk turn.timestamp (u.attachment env.toFileEnv node received turn.now)).run
        (exec env.toEnv) files.engine with ⟨err | _, engine⟩
      · have hne : ({ files with engine }.setPhase 0 u .refused).transfers.isEmpty = false := by
          simp [FileState.setPhase, hu]
        simp only [ExchangeState.receiverAfterFile, hne]
        exact hset _ .refused _ rfl (by simp) fun _ => hwhole
      · have hnil : files.transfers.eraseIdx 0 = [] := by rw [hu]; rfl
        simp only [ExchangeState.receiverAfterFile, FileState.drop, hnil]
        exact ⟨_, hwhole⟩
    | _ => simp [FileState.takes, hphase] at hl
  | discard j fails =>
    obtain ⟨hfailed, hrefused⟩ := hflow u (by simp [hu])
    cases hphase : u.phase with
    | failed => exact absurd hphase hfailed
    | refused => exact ⟨_, hrefused hphase⟩
    | _ => simp [FileState.takes, hphase] at hl

/-- An offer that came as a whole can be read. -/
theorem Streams.parses (hjson : env.RoundTrips) (h : Streams env args content sent offer) {len json : List UInt8}
    (hlen : len.length = 2) (hjlen : json.length = Cbor.beValue len) (hgot : len ++ json <+: sent) :
    env.offerFromJson json = some offer := by
  obtain ⟨n, whole, -, hsent, hpre⟩ := h.sent
  have hlead : len ++ json ++ [] <+: whole := by
    rw [List.append_nil]
    exact hgot.trans hpre
  obtain ⟨rfl, -⟩ := hsent.split hlen hjlen hlead
  exact hjson offer hsent.1

theorem ReceiverFlow.step (hjson : env.RoundTrips) (hstream : Streams env args content s.up.sent offer)
    (hsafe : s.files.Safe env.toFileEnv node)
    (h : ReceiverOk env node args s.files s.up.got s.down.sent s.receiver)
    (hflow : ReceiverFlow env s.files s.up.got s.down.sent s.receiver) {l : ExchangeLabel} (hsmooth : Smooth s l)
    (hstep : ReceiverStep env node args s l s') : ReceiverFlow env s'.files s'.up.got s'.down.sent s'.receiver := by
  cases hstep with
  | busy hr => cases hsmooth
  | pullLength hr hn hw hlt => trivial
  | pulledLength hr hn hw hlen => trivial
  | pullOffer hr hn hw hle => trivial
  | pullChunk hr hn hw ht hp hle =>
    intro t ht'
    obtain rfl : t = _ := by simpa [ht] using ht'
    simp [hp]
  | unparsed hr hparse turn =>
    rw [hr] at h
    obtain ⟨⟨len, hlen, hwant, hgot⟩, -⟩ := h
    rw [hstream.parses hjson hlen hwant (hgot ▸ s.up.got_prefix)] at hparse
    cases hparse
  | refused hr hparse hcheck =>
    rw [hr] at h
    obtain ⟨⟨len, hlen, hwant, hgot⟩, -, hans, -⟩ := h
    rw [hans]
    exact ⟨_, len, _, hlen, hwant, hparse, by rw [hgot, List.append_nil]⟩
  | checked hr hparse hcheck => trivial
  | noDirectory hr => cases hsmooth
  | accept hr =>
    rw [hr] at h
    obtain ⟨-, -, t, ht, -, hphase, -⟩ := h
    intro u hu
    obtain rfl : u = t := by simpa [ht] using hu
    simp [hphase]
  | noPartFile hr => cases hsmooth
  | transfer hr ht hl habort hchunk =>
    rw [hr] at h hflow
    exact ReceiverFlow.stepTransfer hjson hstream s.up.got_prefix hsafe h hflow ht hl habort hsmooth
  | reply hr =>
    rw [hr] at h hflow
    refine ⟨fun hans => ?_, ?_⟩
    · -- a single answer is no acceptance
      have hanswered := h.2
      rw [← Pipe.sent_push, hans] at hanswered
      cases hanswered with
      | refused hb => exact hb rfl
    · rw [Pipe.sent_push, List.length_append]
      exact hflow
  | fails => cases hsmooth
  | notAccepted => cases hsmooth

/-- The stream of a sender that has opened it and is not done. -/
theorem SenderOk.streams {phase : SendPhase} (h : SenderOk env args (some content) sent heard phase)
    (hopen : phase.opened = some offer) : Streams env args content sent offer := by
  cases phase with
  | offering offer' rest =>
    cases hopen
    exact ⟨h.2.1, 0, _, Nat.zero_le _, h.2.2.2, List.prefix_append _ _⟩
  | awaiting offer' =>
    cases hopen
    exact ⟨h.2.1, 0, _, Nat.zero_le _, h.2.2, List.prefix_rfl⟩
  | sending offer' read rest =>
    cases hopen
    exact ⟨h.2.1, read, _, h.2.2.1, h.2.2.2, List.prefix_append _ _⟩
  | confirming offer' =>
    cases hopen
    exact ⟨h.2.1, _, _, le_rfl, h.2.2, List.prefix_rfl⟩
  | recording offer' =>
    cases hopen
    exact ⟨h.2.1, _, _, le_rfl, h.2.2, List.prefix_rfl⟩
  | _ => cases hopen

/-- A stream is opened by a step that leaves the receiver at its beginning. -/
theorem SenderStep.opened {l : ExchangeLabel} (h : SenderStep env args s l s') :
    (∃ result, s'.sender = .done result) ∨ (s.sender.opened = none ∧ s'.sender.opened = none ∧ s'.receiver = s.receiver) ∨
      (s'.receiver = .readingLength [] ∧ s'.sender.opened.isSome) ∨
      (s'.sender.opened = s.sender.opened ∧ s.sender.opened.isSome ∧ s'.receiver = s.receiver) := by
  cases h <;> simp_all [SendPhase.opened]

theorem SenderStep.not_done {l : ExchangeLabel} (h : SenderStep env args s l s') (result : Except String AttachmentRecord) :
    s.sender ≠ .done result := by
  cases h <;> simp_all

theorem ReceiverStep.not_waiting {l : ExchangeLabel} (h : ReceiverStep env node args s l s') : s.receiver ≠ .waiting := by
  cases h <;> simp_all

theorem Flow.step (hjson : env.RoundTrips) (h : ExchangeInv env node args (some content) s) (hflow : Flow env s)
    {l : ExchangeLabel} (hl : s.enabled env node window l = true) (hsmooth : Smooth s l) :
    Flow env (s.step env node args l) := by
  rcases exchange_cases args hl with hstep | hstep | ⟨content, rfl⟩ | ⟨a, rfl⟩ | ⟨a, rfl⟩ | ⟨path, content, -, rfl⟩
  · obtain ⟨-, hfiles, hgot, hsent, -⟩ := hstep.frame
    rcases hstep.opened with ⟨result, hdone⟩ | ⟨hno, hno', hrecv⟩ | ⟨hrecv, hsome⟩ | ⟨hsame, hsome, hrecv⟩
    · exact ⟨fun _ => .inl ⟨result, hdone⟩, fun offer ho => by rw [hdone] at ho; cases ho⟩
    · refine ⟨fun _ => .inr ?_, fun offer ho => by rw [hno'] at ho; cases ho⟩
      rw [hrecv]
      exact (hflow.before hno).resolve_left fun ⟨result, hdone⟩ => hstep.not_done result hdone
    · refine ⟨fun hno => by simp [hno] at hsome, fun offer _ => ?_⟩
      rw [hrecv]
      trivial
    · refine ⟨fun hno => by simp [← hsame, hno] at hsome, fun offer ho => ?_⟩
      rw [hfiles, hgot, hsent, hrecv]
      exact hflow.after offer (hsame ▸ ho)
  · obtain ⟨-, hsender, -, -⟩ := hstep.frame
    refine ⟨fun hno => ?_, fun offer ho => ?_⟩
    · rw [hsender] at hno ⊢
      exact (hflow.before hno).imp_right fun hw => absurd hw hstep.not_waiting
    · rw [hsender] at ho
      exact (hflow.after offer ho).step hjson (h.sender.streams ho) h.safe h.receiver hsmooth hstep
  · cases hsmooth
  · exact ⟨hflow.before, hflow.after⟩
  · exact ⟨hflow.before, hflow.after⟩
  · exact ⟨hflow.before, hflow.after⟩

/-! ## One of the two can go on -/

/-- Some step of either end is possible, with nothing failing. -/
def GoesOn (env : ExchangeEnv) (node : FileNode) (window : Nat) (s : ExchangeState) : Prop :=
  ∃ l, l.moves = true ∧ s.enabled env node window l = true ∧ Smooth s l

theorem GoesOn.sender {l : ExchangeLabel} (hm : l.moves = true) (hl : s.senderTakes window l s.sender = true)
    (hs : Smooth s l) : GoesOn env node window s := by
  refine ⟨l, hm, ?_, hs⟩
  cases l with
  | edit | senderWork | receiverWork | disturb => cases hm
  | _ => simp only [ExchangeState.enabled, hl, Bool.true_or]

theorem GoesOn.receiver {l : ExchangeLabel} (hm : l.moves = true) (hl : s.receiverTakes window l s.receiver = true)
    (hs : Smooth s l) : GoesOn env node window s := by
  refine ⟨l, hm, ?_, hs⟩
  cases l with
  | edit | senderWork | receiverWork | disturb => cases hm
  | _ => simp only [ExchangeState.enabled, hl, Bool.or_true]

/-- The receiver goes on, or waits for bytes, or cannot write its answer, or has ended. -/
theorem receiver_goes_on (turn : Turn) (h : ReceiverOk env node args s.files s.up.got s.down.sent s.receiver)
    (hw : s.receiver ≠ .waiting) :
    GoesOn env node window s ∨ (s.up.waiting = [] ∧ ∃ want got, s.want = some (want, got) ∧ got.length < want) ∨
      (¬ s.down.Room window 1 ∧ (s.receiver = .accepting ∨ ∃ b, s.receiver = .replying b)) ∨ s.receiver = .ended := by
  -- a reader that lacks bytes takes the next one that is there
  have hpull : ∀ want got, s.want = some (want, got) → got.length < want → GoesOn env node window s ∨
      (s.up.waiting = [] ∧ ∃ want got, s.want = some (want, got) ∧ got.length < want) := by
    intro want got hwant hlt
    by_cases hup : s.up.waiting = []
    · exact .inr ⟨hup, want, got, hwant, hlt⟩
    · refine .inl (.receiver (l := .pull 1) rfl ?_ rfl)
      have hpos : 0 < s.up.waiting.length := List.length_pos_iff.2 hup
      simp only [ExchangeState.receiverTakes, hwant, Option.any_some, decide_eq_true_eq]
      omega
  cases hr : s.receiver with
  | waiting => exact absurd hr hw
  | readingLength got =>
    rw [hr] at h
    rcases hpull 2 got (by simp [ExchangeState.want, hr]) h.2.1 with h | h
    exacts [.inl h, .inr (.inl h)]
  | readingOffer want got =>
    rw [hr] at h
    obtain hlt | heq := Nat.lt_or_eq_of_le h.2.1
    · rcases hpull want got (by simp [ExchangeState.want, hr]) hlt with h | h
      exacts [.inl h, .inr (.inl h)]
    · exact .inl (.receiver (l := .checkOffer turn) rfl (by simp [hr, ExchangeState.receiverTakes, heq]) rfl)
  | accepting =>
    by_cases hroom : s.down.Room window 1
    · exact .inl (.receiver (l := .accept) rfl (by simpa [hr, ExchangeState.receiverTakes] using hroom) rfl)
    · exact .inr (.inr (.inl ⟨hroom, .inl rfl⟩))
  | transferring part =>
    rw [hr] at h
    obtain ⟨-, -, t, ht, -, hreads⟩ := h
    have hstep : ∀ l, s.fileTakes part l = true → Smooth s (.fileStep l) → GoesOn env node window s :=
      fun l hl hs => .receiver (l := .fileStep l) rfl (by simpa only [hr, ExchangeState.receiverTakes] using hl) hs
    obtain ⟨remote, offer, fileId, phase⟩ := t
    cases phase with
    | accepted => exact .inl (hstep (.create 0) (by simp [ExchangeState.fileTakes, FileState.enabled,
        FileState.transferOf, ht, FileState.takes]) rfl)
    | receiving received remaining =>
      by_cases hrem : remaining = 0
      · exact .inl (hstep (.finish 0) (by simp [ExchangeState.fileTakes, FileState.enabled, FileState.transferOf, ht,
          FileState.takes, hrem]) rfl)
      · obtain hlt | hfull := Nat.lt_or_eq_of_le hreads.2
        · rcases hpull (min remaining 8192) part (by simp [ExchangeState.want, hr, ht]) hlt with h | h
          exacts [.inl h, .inr (.inl h)]
        · exact .inl (hstep (.chunk 0 part none) (by simp [ExchangeState.fileTakes, FileState.enabled,
            FileState.transferOf, ht, FileState.takes, hfull, Nat.pos_of_ne_zero hrem]) rfl)
    | verified received => exact .inl (hstep (.rename 0 false) (by simp [ExchangeState.fileTakes, FileState.enabled,
        FileState.transferOf, ht, FileState.takes]) rfl)
    | renamed received => exact .inl (hstep (.record 0 turn "") (by simp [ExchangeState.fileTakes, FileState.enabled,
        FileState.transferOf, ht, FileState.takes]) rfl)
    | failed => exact .inl (hstep (.discard 0 false) (by simp [ExchangeState.fileTakes, FileState.enabled,
        FileState.transferOf, ht, FileState.takes]) rfl)
    | refused => exact .inl (hstep (.discard 0 false) (by simp [ExchangeState.fileTakes, FileState.enabled,
        FileState.transferOf, ht, FileState.takes]) rfl)
  | replying b =>
    by_cases hroom : s.down.Room window 1
    · exact .inl (.receiver (l := .reply) rfl (by simpa [hr, ExchangeState.receiverTakes] using hroom) rfl)
    · exact .inr (.inr (.inl ⟨hroom, .inr ⟨b, rfl⟩⟩))
  | ended => exact .inr (.inr (.inr rfl))

/-- The sender goes on, or cannot write, or waits for an answer. -/
theorem sender_goes_on (turn : Turn) (h : SenderOk env args (some s.file) s.up.sent s.down.got s.sender)
    (hlen : s.file.length < 2 ^ 64) (hwait : s.sender.opened = none → s.receiver = .waiting)
    (hdone : ∀ result, s.sender ≠ .done result) :
    GoesOn env node window s ∨
      (¬ s.up.Room window 1 ∧ ((∃ offer rest, s.sender = .offering offer rest) ∨
        ∃ offer read rest, rest ≠ [] ∧ s.sender = .sending offer read rest)) ∨
      (s.down.waiting = [] ∧ ∃ offer, s.sender = .awaiting offer ∨ s.sender = .confirming offer) := by
  cases hs : s.sender with
  | starting => exact .inl (.sender (l := .stat) rfl (by simpa [hs, ExchangeState.senderTakes] using hlen) rfl)
  | hashing size hashed =>
    by_cases hend : s.file.length ≤ hashed.length
    · exact .inl (.sender (l := .offer (Vector.replicate 16 0)) rfl (by simpa [hs, ExchangeState.senderTakes] using hend) rfl)
    · exact .inl (.sender (l := .hash 1) rfl (by simpa [hs, ExchangeState.senderTakes] using hend) rfl)
  | connecting offer =>
    have hr := hwait (by rw [hs]; rfl)
    exact .inl (.sender (l := .connect) rfl (by simp [hs, ExchangeState.senderTakes, hr]) rfl)
  | offering offer rest =>
    rw [hs] at h
    by_cases hroom : s.up.Room window 1
    · have hpos : 0 < rest.length := List.length_pos_iff.2 h.2.2.1
      refine .inl (.sender (l := .write 1) rfl ?_ rfl)
      simp only [hs, ExchangeState.senderTakes, decide_eq_true_eq]
      exact ⟨Nat.one_pos, hpos, hroom⟩
    · exact .inr (.inl ⟨hroom, .inl ⟨offer, rest, rfl⟩⟩)
  | awaiting offer =>
    by_cases hdown : s.down.waiting = []
    · exact .inr (.inr ⟨hdown, offer, .inl rfl⟩)
    · refine .inl (.sender (l := .response) rfl ?_ rfl)
      simpa [hs, ExchangeState.senderTakes, List.length_pos_iff] using hdown
  | sending offer read rest =>
    rw [hs] at h
    obtain ⟨-, hoffer, hread, -⟩ := h
    have hsize := hoffer.size _ rfl
    by_cases hrest : rest = []
    · subst hrest
      obtain hlt | heq := Nat.lt_or_eq_of_le hread
      · refine .inl (.sender (l := .nextChunk) rfl ?_ rfl)
        simp only [hs, ExchangeState.senderTakes, decide_eq_true_eq]
        exact ⟨trivial, hlt, by omega⟩
      · exact .inl (.sender (l := .flushed) rfl (by simp [hs, ExchangeState.senderTakes, heq]) rfl)
    · by_cases hroom : s.up.Room window 1
      · refine .inl (.sender (l := .write 1) rfl ?_ rfl)
        simp only [hs, ExchangeState.senderTakes, decide_eq_true_eq]
        exact ⟨Nat.one_pos, List.length_pos_iff.2 hrest, hroom⟩
      · exact .inr (.inl ⟨hroom, .inr ⟨offer, read, rest, hrest, rfl⟩⟩)
  | confirming offer =>
    by_cases hdown : s.down.waiting = []
    · exact .inr (.inr ⟨hdown, offer, .inr rfl⟩)
    · refine .inl (.sender (l := .confirm) rfl ?_ rfl)
      simpa [hs, ExchangeState.senderTakes, List.length_pos_iff] using hdown
  | recording offer =>
    exact .inl (.sender (l := .recordSent turn "") rfl (by simp [hs, ExchangeState.senderTakes]) rfl)
  | done result => exact absurd hs (hdone result)

theorem SentOk.length {known : Option (List UInt8)} {n : Nat} (h : SentOk env known offer n sent) :
    sent.length = (offerHeader env offer).length + n := by
  obtain ⟨-, data, hdata, -, rfl⟩ := h
  rw [List.length_append, hdata]

/-- The length of what was read is that of the offer and of what came after it. -/
theorem Parsed.length_got (hjson : env.RoundTrips) {known : Option (List UInt8)} {n : Nat}
    (hsent : SentOk env known offer n sent) (hgot : got <+: sent) {offer' : FileOfferWire} {body : List UInt8}
    (hp : Parsed env got offer' body) : offer' = offer ∧ got.length = (offerHeader env offer).length + body.length := by
  obtain ⟨rfl, -⟩ := Parsed.of_sent hjson hsent hgot hp
  obtain ⟨len, json, hlen, hjlen, -, rfl⟩ := hp
  obtain ⟨rfl, -⟩ := hsent.split hlen hjlen hgot
  exact ⟨rfl, by simp only [offerHeader, List.length_append, Cbor.length_bigEndian, hlen]⟩

/-- How much was read when so many answers were given. -/
theorem SettledAt.length (hjson : env.RoundTrips) {known : Option (List UInt8)} {n k : Nat}
    (hsent : SentOk env known offer n sent) (hgot : got <+: sent) (h : SettledAt env got k) :
    k ≤ 2 ∧ (offerHeader env offer).length ≤ got.length ∧
      (k = 2 → got.length = (offerHeader env offer).length + offer.fileSize.toNat) := by
  match k, h with
  | 1, ⟨offer', hp⟩ =>
    obtain ⟨-, hlen⟩ := hp.length_got hjson hsent hgot
    exact ⟨by omega, by omega, by omega⟩
  | 2, ⟨offer', body, hp, hbody⟩ =>
    obtain ⟨rfl, hlen⟩ := hp.length_got hjson hsent hgot
    exact ⟨le_rfl, by omega, fun _ => by omega⟩

/-- Nothing keeps a receiver that has bytes to read from going on while the sender has more to write. -/
theorem goes_on_of_writing (hjson : env.RoundTrips) (hwin : 0 < window) (turn : Turn)
    (hrecv : ReceiverOk env node args s.files s.up.got s.down.sent s.receiver)
    (hflow : ReceiverFlow env s.files s.up.got s.down.sent s.receiver) {n : Nat} {rest : List UInt8} (hrest : rest ≠ [])
    (hsent : SentOk env (some s.file) offer n (s.up.sent ++ rest)) (hroom : ¬ s.up.Room window 1)
    (hheard : n = 0 ∧ s.down.got = [] ∨ n ≤ offer.fileSize.toNat ∧ s.down.got = [fileAccept]) :
    GoesOn env node window s := by
  have hw : s.receiver ≠ .waiting := fun hw => by rw [hw] at hflow; exact hflow
  have hup : s.up.waiting ≠ [] := by
    intro hup
    simp only [Pipe.Room, hup, List.length_nil] at hroom
    omega
  have hlen := hsent.length
  rw [List.length_append] at hlen
  have hpos : 0 < rest.length := List.length_pos_iff.2 hrest
  have hgot : s.up.got <+: s.up.sent ++ rest := s.up.got_prefix.trans (List.prefix_append _ _)
  have hgotlen := s.up.got_prefix.length_le
  have hdown := congrArg List.length s.down.got_append_waiting
  rw [List.length_append] at hdown
  rcases receiver_goes_on turn hrecv hw with hgo | ⟨hnone, -⟩ | ⟨hblocked, hr⟩ | hr
  · exact hgo
  · exact absurd hnone hup
  · simp only [Pipe.Room, not_le] at hblocked
    rcases hr with hr | ⟨b, hr⟩
    · rw [hr] at hrecv
      rw [hrecv.1, List.length_nil] at hdown
      omega
    · rw [hr] at hflow
      obtain ⟨hk, -, htwo⟩ := SettledAt.length hjson hsent hgot hflow
      rcases hheard with ⟨rfl, hheard⟩ | ⟨hn, hheard⟩ <;>
        rw [hheard] at hdown <;> simp only [List.length_nil, List.length_singleton] at hdown <;> omega
  · rw [hr] at hflow
    obtain ⟨hk, hheader, htwo⟩ := SettledAt.length hjson hsent hgot hflow.2
    rcases hheard with ⟨rfl, hheard⟩ | ⟨hn, hheard⟩
    · omega
    · -- the acceptance is not the only answer
      have hone : s.down.sent.length ≠ 1 := by
        intro hone
        have heq := s.down.got_prefix.eq_of_length (by rw [hheard, hone]; rfl)
        exact hflow.1 (heq.symm.trans hheard)
      rw [hheard, List.length_singleton] at hdown
      omega

/-- Nor does anything keep it from answering a sender that waits for an answer. -/
theorem goes_on_of_waiting (hwin : 0 < window) (turn : Turn)
    (hrecv : ReceiverOk env node args s.files s.up.got s.down.sent s.receiver) (hsafe : s.files.Safe env.toFileEnv node)
    (hflow : ReceiverFlow env s.files s.up.got s.down.sent s.receiver) (hjson : env.RoundTrips) {n : Nat}
    (hsent : SentOk env (some s.file) offer n s.up.sent) (hdown : s.down.waiting = [])
    (hheard : n = 0 ∧ s.down.sent = [] ∨ n = offer.fileSize.toNat ∧ s.down.sent = [fileAccept]) :
    GoesOn env node window s := by
  have hw : s.receiver ≠ .waiting := fun hw => by rw [hw] at hflow; exact hflow
  rcases receiver_goes_on turn hrecv hw with hgo | ⟨hnone, want, part, hwant, hlt⟩ | ⟨hblocked, -⟩ | hr
  · exact hgo
  · -- all that was sent was read, and no more is to come
    have hgot : s.up.got = s.up.sent := by
      have := s.up.got_append_waiting
      rwa [hnone, List.append_nil] at this
    have hlen := hsent.length
    exfalso
    cases hr : s.receiver with
    | readingLength got =>
      rw [hr] at hrecv
      have hheader : (offerHeader env offer).length = 2 + (env.offerToJson offer).length := by simp [offerHeader]
      rw [← hgot, hrecv.1] at hlen
      have := hrecv.2.1
      omega
    | readingOffer want' got =>
      rw [hr] at hrecv
      obtain ⟨⟨len, hlen2, rfl, hread⟩, -, hans, -⟩ := hrecv
      obtain ⟨rfl, -⟩ : n = 0 ∧ s.down.sent = [] := hheard.resolve_right fun h => by simp [hans] at h
      obtain ⟨hfits, data, hdata, -, hwhole⟩ := hsent
      obtain rfl := List.eq_nil_of_length_eq_zero hdata
      -- the two bytes are the length of the offer, and the rest is the offer
      rw [← hgot, hread, offerHeader, List.append_nil] at hwhole
      obtain ⟨rfl, rfl⟩ := List.append_inj hwhole (by rw [hlen2, Cbor.length_bigEndian])
      simp only [ExchangeState.want, hr, Option.some.injEq, Prod.mk.injEq] at hwant
      obtain ⟨rfl, rfl⟩ := hwant
      rw [Cbor.beValue_bigEndian (by omega)] at hlt
      exact lt_irrefl _ hlt
    | transferring got =>
      obtain ⟨rfl, t, received, remaining, ht, hp, rfl⟩ := want_transferring hr hwant
      rw [hr] at hrecv
      obtain ⟨hans, -, u, hu, -, hreads⟩ := hrecv
      obtain rfl : t = u := by simpa [ht] using hu
      obtain ⟨rfl, -⟩ : n = offer.fileSize.toNat ∧ s.down.sent = [fileAccept] :=
        hheard.resolve_left fun h => by simp [hans] at h
      have hint := hsafe.intact t (by simp [ht])
      simp only [Transfer.Intact, hp] at hint
      simp only [Transfer.Reads, hp] at hreads
      obtain ⟨heq, hread⟩ := hreads.1.length_got hjson hsent s.up.got_prefix
      rw [hgot, List.length_append] at hread
      rw [heq] at hint
      omega
    | _ => simp [ExchangeState.want, hr] at hwant
  · exact absurd (show s.down.waiting.length + 1 ≤ window by rw [hdown]; exact hwin) hblocked
  · rw [hr] at hflow
    rcases hheard with ⟨-, hans⟩ | ⟨-, hans⟩ <;> rw [hans] at hflow
    · exact hflow.2.elim
    · exact absurd rfl hflow.1

/-- As long as the sender is not done, one of the two goes on. -/
theorem ExchangeInv.goes_on (hjson : env.RoundTrips) (hwin : 0 < window) (turn : Turn)
    (h : ExchangeInv env node args (some s.file) s) (hflow : Flow env s) (hlen : s.file.length < 2 ^ 64)
    (hdone : ∀ result, s.sender ≠ .done result) : GoesOn env node window s := by
  have hsender := h.sender
  have hwait : s.sender.opened = none → s.receiver = .waiting := fun hno =>
    (hflow.before hno).resolve_left fun ⟨result, hd⟩ => hdone result hd
  rcases sender_goes_on turn hsender hlen hwait hdone with hgo | ⟨hroom, hs⟩ | ⟨hdown, offer, hs⟩
  · exact hgo
  · rcases hs with ⟨offer, rest, hs⟩ | ⟨offer, read, rest, hrest, hs⟩ <;> rw [hs] at hsender
    · exact goes_on_of_writing hjson hwin turn h.receiver (hflow.after offer (by rw [hs]; rfl)) hsender.2.2.1
        hsender.2.2.2 hroom (.inl ⟨rfl, hsender.1⟩)
    · exact goes_on_of_writing hjson hwin turn h.receiver (hflow.after offer (by rw [hs]; rfl)) hrest
        hsender.2.2.2 hroom (.inr ⟨hsender.2.2.1, hsender.1⟩)
  · have hsent : s.down.sent = s.down.got := by
      have := s.down.got_append_waiting
      rwa [hdown, List.append_nil, eq_comm] at this
    rcases hs with hs | hs <;> rw [hs] at hsender
    · exact goes_on_of_waiting hwin turn h.receiver h.safe (hflow.after offer (by rw [hs]; rfl)) hjson hsender.2.2 hdown
        (.inl ⟨rfl, hsent.trans hsender.1⟩)
    · exact goes_on_of_waiting hwin turn h.receiver h.safe (hflow.after offer (by rw [hs]; rfl)) hjson hsender.2.2 hdown
        (.inr ⟨rfl, hsent.trans hsender.1⟩)

/-- An exchange is never stuck: where nothing fails and the file does not change, one of the two ends can take a step
until the sender is done, whatever happens beside them and however small the window is. -/
theorem exchange_goes_on (hjson : env.RoundTrips) (hwin : 0 < window) (turn : Turn) {s₀ : ExchangeState}
    (h₀ : (exchangeMachine env node args window).start s₀) (hlen : s₀.file.length < 2 ^ 64)
    (hr : ((exchangeMachine env node args window).restrict Smooth).Run s₀ s) :
    (∃ result, s.sender = .done result) ∨
      ∃ l, l.moves = true ∧ (exchangeMachine env node args window).enabled s l ∧ Smooth s l := by
  have hinv : ExchangeInv env node args (some s₀.file) s ∧ Flow env s := by
    refine hr.keeps (I := fun u => ExchangeInv env node args (some s₀.file) u ∧ Flow env u) (fun u l hl hu => ?_)
      ⟨.start (fun _ hc => Option.some.inj hc) h₀, ?_⟩
    · obtain ⟨hen, hsmooth⟩ : u.enabled env node window l = true ∧ Smooth u l := hl
      exact ⟨hu.1.step hen (by rintro content rfl; cases hsmooth), hu.2.step hjson hu.1 hen hsmooth⟩
    · obtain ⟨hs, hrecv, -⟩ := h₀
      exact ⟨fun _ => .inr hrecv, fun offer ho => by rw [hs] at ho; cases ho⟩
  have hfile := hinv.1.file s₀.file rfl
  by_cases hdone : ∃ result, s.sender = .done result
  · exact .inl hdone
  · exact .inr (ExchangeInv.goes_on hjson hwin turn (hfile ▸ hinv.1) hinv.2 (hfile ▸ hlen) (not_exists.1 hdone))

namespace ExchangeSample

open FileSample

/-- The bound for the file that was sent. -/
theorem exchange_bounded_sample : (offering ++ sending).countP ExchangeLabel.moves = 24 ∧
    (offering ++ sending).countP ExchangeLabel.moves ≤ 4 * idle.file.length + 52559892 :=
  ⟨by decide, exchange_bounded start_idle (offering ++ sending) (by decide +kernel)⟩

/-- After the offer was accepted, one of the two goes on. -/
theorem exchange_goes_on_sample :
    (∃ result, ((exchangeMachine exchangeEnv operatorNode home 2).after idle offering).sender = .done result) ∨
      ∃ l, l.moves = true ∧ (exchangeMachine exchangeEnv operatorNode home 2).enabled
        ((exchangeMachine exchangeEnv operatorNode home 2).after idle offering) l ∧
        Smooth ((exchangeMachine exchangeEnv operatorNode home 2).after idle offering) l := by
  have hrun : ((exchangeMachine exchangeEnv operatorNode home 2).restrict Smooth).Run idle
      ((exchangeMachine exchangeEnv operatorNode home 2).after idle offering) := by
    rw [← Machine.after_restrict (C := Smooth)]
    exact .after _ .refl (by decide +kernel)
  exact exchange_goes_on roundTrips Nat.two_pos atHundred start_idle (by decide) hrun

end ExchangeSample

end Fortiq
