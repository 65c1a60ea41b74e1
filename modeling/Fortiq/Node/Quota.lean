/-
The storage quota of a ticket. An offer is checked against the attachments the ticket has, and nothing is set aside for
it until it is recorded. What a ticket has and what is on its way to it together grow only by accepted offers; so the
quota holds as long as one transfer at a time is on its way to a ticket, and two at a time go past it by one file at
most. The sizes are added modulo 2^64, and peers may announce any: the test of an offer is exact below.
-/
import Fortiq.Engine.Failure
import Fortiq.Node.Stored

namespace Fortiq

open TicketEngine TicketReducer

/-! ## The bytes of a ticket -/

/-- The sum of the sizes of the attachments. -/
def TicketAggregate.bytes (a : TicketAggregate) : Nat := (a.attachments.map fun x => x.sizeBytes.toNat).sum

def TicketStateStore.bytesOf (s : TicketStateStore) (t : String) : Nat :=
  ((s.listAttachments t).map fun x => x.sizeBytes.toNat).sum

/-- What an event adds to a ticket at most. -/
def TicketEvent.bytesFor (t : String) : TicketEvent → Nat
  | .attachmentAdded ticketId _ _ _ sizeBytes _ _ _ => if ticketId = t then sizeBytes.toNat else 0
  | _ => 0

section Engine

variable {env : Env} {t : String}

theorem TicketStateStore.bytesOf_eq (s : TicketStateStore) : s.bytesOf t = ((s.get t).map TicketAggregate.bytes).getD 0 := by
  unfold bytesOf listAttachments
  cases s.get t <;> rfl

theorem TicketReducer.Effect.bytes {e : Event} {te : TicketEvent} {a a' : TicketAggregate} (h : Effect env e a te a') :
    a'.bytes ≤ a.bytes + te.bytesFor te.ticketId := by
  cases h with
  | attachment =>
    simp [TicketAggregate.bytes, TicketAggregate.touch, TicketEvent.bytesFor, TicketEvent.ticketId]
  | _ => exact Nat.le_add_right _ _

theorem bytesOf_step {s : TicketStateStore} {e : Event} {te : TicketEvent} (he : e.payload = .ticket te) :
    (step env s e).bytesOf t ≤ s.bytesOf t + te.bytesFor t := by
  rw [TicketStateStore.bytesOf_eq, TicketStateStore.bytesOf_eq]
  cases hg : s.get t with
  | none =>
    rcases @get_step_absent env _ _ hg e with ⟨-, h⟩ | ⟨_, _, _, _, -, h⟩
    · rw [h]
      exact Nat.zero_le _
    · rw [h]
      exact Nat.zero_le _
  | some a =>
    obtain ⟨a', hget, ⟨-, rfl⟩ | ⟨te', hp, rfl, ⟨-, rfl⟩ | heff⟩⟩ := @get_step_present env _ _ _ hg e
    · rw [hget]
      exact Nat.le_add_right _ _
    · rw [hget]
      exact Nat.le_add_right _ _
    · rw [he] at hp
      cases hp
      rw [hget]
      exact heff.bytes

theorem bytesOf_append (te : TicketEvent) (ts : UInt64) (disk : Disk) (s : TicketEngine) :
    (appendTicketEvent env te ts disk s).2.state.bytesOf t ≤ s.state.bytesOf t + te.bytesFor t := by
  rcases append_state te ts disk s with h | ⟨e, he, -, h⟩
  · rw [h]
    exact Nat.le_add_right _ _
  · rw [h]
    exact bytesOf_step he

/-- An append whose result is dropped. -/
theorem run_append_unit (te : TicketEvent) (ts : UInt64) (disk : Disk) (s : TicketEngine) :
    (Call.appendTicketEvent te ts disk >>= fun _ => pure () : Call Unit).run (exec env) s =
      ((appendTicketEvent env te ts disk s).1.map fun _ => (), (appendTicketEvent env te ts disk s).2) := by
  rw [Prog.run_bind, run_appendTicketEvent]
  rcases appendTicketEvent env te ts disk s with ⟨_ | _, _⟩ <;> rfl

theorem bytesOf_addAttachment (disk : Disk) (now : UInt64) (att : AttachmentRecord) (s : TicketEngine) :
    ((Call.addAttachment disk now att).run (exec env) s).2.state.bytesOf t ≤
      s.state.bytesOf t + (if att.ticketId = t then att.sizeBytes.toNat else 0) := by
  unfold Call.addAttachment
  rw [run_append_unit]
  exact bytesOf_append _ _ disk s

/-- A record that is refused changes no ticket. -/
theorem addAttachment_error_state {disk : Disk} {now : UInt64} {att : AttachmentRecord} {s s' : TicketEngine} {err : Error}
    (h : (Call.addAttachment disk now att).run (exec env) s = (.error err, s')) : s'.state = s.state := by
  unfold Call.addAttachment at h
  rw [run_append_unit] at h
  obtain ⟨herr, rfl⟩ := Prod.mk.inj h
  cases ha : (appendTicketEvent env _ _ disk s).1 with
  | ok r => rw [ha] at herr; cases herr
  | error err => exact append_error_state ha

theorem bytesOf_recordEvent (disk : Disk) (uuid : String) (now : UInt64) (ticketId kind actor : String)
    (metadata : Option String) (s : TicketEngine) :
    ((Call.recordEvent disk uuid now ticketId kind actor metadata).run (exec env) s).2.state.bytesOf t ≤
      s.state.bytesOf t := by
  unfold Call.recordEvent
  rw [run_append_unit]
  exact bytesOf_append _ _ disk s

theorem toNat_foldl_add (l : List UInt64) : ∀ acc : UInt64,
    (l.foldl (· + ·) acc).toNat = (acc.toNat + (l.map UInt64.toNat).sum) % 2 ^ 64 := by
  induction l with
  | nil => intro acc; simp
  | cons a l ih =>
    intro acc
    rw [List.foldl_cons, ih, UInt64.toNat_add, List.map_cons, List.sum_cons, Nat.mod_add_mod, Nat.add_assoc]

/-- The sum the handler computes, in a build that wraps. -/
theorem storedBytes_toNat_mod (engine : TicketEngine) (t : String) :
    (storedBytes engine t).toNat = engine.state.bytesOf t % 2 ^ 64 := by
  rw [storedBytes, toNat_foldl_add, List.map_map]
  exact congrArg (· % 2 ^ 64) (Nat.zero_add _)

/-- The sum the handler computes, as long as it does not wrap. -/
theorem storedBytes_toNat {engine : TicketEngine} (h : engine.state.bytesOf t < 2 ^ 64) :
    (storedBytes engine t).toNat = engine.state.bytesOf t :=
  (storedBytes_toNat_mod engine t).trans (Nat.mod_eq_of_lt h)

/-- The sum in a build that checks: `none` is the panic of an addition that overflows. -/
def checkedSum (l : List UInt64) : Option UInt64 :=
  l.foldlM (fun acc a => if acc.toNat + a.toNat < 2 ^ 64 then some (acc + a) else none) 0

theorem checkedSum_isSome_iff (l : List UInt64) :
    (checkedSum l).isSome = true ↔ (l.map UInt64.toNat).sum < 2 ^ 64 := by
  have hfrom : ∀ (l : List UInt64) (acc : UInt64),
      (l.foldlM (fun acc a => if acc.toNat + a.toNat < 2 ^ 64 then some (acc + a) else none) acc).isSome = true ↔
        acc.toNat + (l.map UInt64.toNat).sum < 2 ^ 64 := by
    intro l
    induction l with
    | nil => intro acc; simpa using acc.toNat_lt
    | cons a l ih =>
      intro acc
      rw [List.foldlM_cons, List.map_cons, List.sum_cons]
      by_cases hadd : acc.toNat + a.toNat < 2 ^ 64
      · rw [if_pos hadd, Option.bind_eq_bind, Option.bind_some, ih, UInt64.toNat_add, Nat.mod_eq_of_lt hadd, Nat.add_assoc]
      · rw [if_neg hadd]
        refine iff_of_false (by simp) ?_
        omega
  rw [checkedSum, hfrom]
  exact Eq.to_iff (congrArg (· < 2 ^ 64) (Nat.zero_add _))

theorem saturatingAdd_le_iff {a b m : UInt64} (hm : m.toNat < 2 ^ 64 - 1) :
    saturatingAdd a b ≤ m ↔ a.toNat + b.toNat ≤ m.toNat := by
  rw [UInt64.le_iff_toNat_le, saturatingAdd]
  split
  · rename_i hadd
    rw [UInt64.toNat_add, Nat.mod_eq_of_lt hadd]
  · rename_i hadd
    refine iff_of_false ?_ ?_
    · show ¬ 2 ^ 64 - 1 ≤ m.toNat
      omega
    · omega

end Engine

/-! ## What a step does to a ticket -/

/-- What an offer would add to a ticket. -/
def FileOfferWire.bytesFor (t : String) (offer : FileOfferWire) : Nat :=
  if offer.ticketId = t then offer.fileSize.toNat else 0

namespace FileState

def offers (s : FileState) : List FileOfferWire := s.transfers.map Transfer.offer

/-- What is on its way to a ticket. -/
def pending (s : FileState) (t : String) : Nat := (s.offers.map (FileOfferWire.bytesFor t)).sum

def load (s : FileState) (t : String) : Nat := s.engine.state.bytesOf t + s.pending t

variable {env : FileEnv} {node : FileNode} {s : FileState} {l : FileLabel} {i : Nat} {x : Transfer} {t : String}

/-- A step of one transfer leaves the tickets and starts nothing, or it records the transfer and ends it. -/
theorem stepTransfer_effect (hi : s.transfers[i]? = some x) (hl : takes x.phase l = true) :
    ((s.stepTransfer env node i x l).engine.state = s.engine.state ∧
      List.Sublist (s.stepTransfer env node i x l).offers s.offers) ∨
    ((s.stepTransfer env node i x l).transfers = s.transfers.eraseIdx i ∧
      ∀ t, (s.stepTransfer env node i x l).engine.state.bytesOf t ≤ s.engine.state.bytesOf t + x.offer.bytesFor t) := by
  have hset : ∀ phase, List.Sublist ((s.transfers.set i { x with phase }).map Transfer.offer) s.offers := fun phase => by
    rw [map_set_phase Transfer.offer phase hi rfl]
    exact List.Sublist.refl _
  rcases s.stepTransfer_cases i hl with ⟨fs', phase, -, -, hstep⟩ | ⟨fs', -, hstep⟩ | ⟨received, turn, uuid, -, hstep⟩ <;>
    rw [hstep]
  · exact .inl ⟨rfl, hset phase⟩
  · exact .inl ⟨rfl, (List.eraseIdx_sublist s.transfers i).map _⟩
  · simp only [recordTransfer]
    rcases hrun : (Call.addAttachment turn.disk turn.timestamp (x.attachment env node received turn.now)).run
      (exec env.toEnv) s.engine with ⟨err | u, engine⟩
    · exact .inl ⟨addAttachment_error_state hrun, hset _⟩
    · refine .inr ⟨rfl, fun t => (bytesOf_recordEvent ..).trans ?_⟩
      have hadd := @bytesOf_addAttachment env.toEnv t turn.disk turn.timestamp
        (x.attachment env node received turn.now) s.engine
      rw [hrun] at hadd
      exact hadd

variable (env node) in
/-- Everything a step can do to the tickets and to the transfers. -/
theorem step_effect (hl : s.enabled l = true) :
    (∃ a, l = .work a ∧ s.step env node l = { s with engine := (exec env.toEnv a s.engine).2 }) ∨
    (∃ remote turn offer fileId, l = .offer remote turn offer ∧
      checkOffer env node s.engine turn remote offer = .ok fileId ∧
      s.step env node l = { s with transfers := s.transfers ++ [⟨remote, offer, fileId, .accepted⟩] }) ∨
    ((s.step env node l).engine.state = s.engine.state ∧ List.Sublist (s.step env node l).offers s.offers) ∨
    (∃ i x, s.transfers[i]? = some x ∧ (s.step env node l).transfers = s.transfers.eraseIdx i ∧
      ∀ t, (s.step env node l).engine.state.bytesOf t ≤ s.engine.state.bytesOf t + x.offer.bytesFor t) := by
  rcases step_cases env node hl with hwork | hsame | hoffer | ⟨i, x, hx, htakes, hstep⟩
  · exact .inl hwork
  · rw [hsame]
    exact .inr (.inr (.inl ⟨rfl, List.Sublist.refl _⟩))
  · exact .inr (.inl hoffer)
  · rw [hstep]
    rcases stepTransfer_effect hx htakes with h | h
    · exact .inr (.inr (.inl h))
    · exact .inr (.inr (.inr ⟨i, x, hx, h⟩))

/-- No other task adds an attachment to the ticket. -/
def HandlerOnly (env : FileEnv) (t : String) (s : FileState) : FileLabel → Prop
  | .work a => (exec env.toEnv a s.engine).2.state.listAttachments t = s.engine.state.listAttachments t
  | _ => True

instance (env : FileEnv) (t : String) (s : FileState) : ∀ l, Decidable (HandlerOnly env t s l)
  | .work a => inferInstanceAs
      (Decidable ((exec env.toEnv a s.engine).2.state.listAttachments t = s.engine.state.listAttachments t))
  | .offer .. | .abort _ | .create _ | .chunk .. | .streamFails _ | .finish _ | .rename .. | .record .. | .discard .. =>
    instDecidableTrue

variable (node) in
/-- What a ticket has and what is on its way to it grow together by accepted offers alone. -/
theorem load_step (hl : s.enabled l = true) (hwork : HandlerOnly env t s l) :
    (s.step env node l).load t ≤ s.load t ∨
    ∃ remote turn offer fileId, l = .offer remote turn offer ∧ offer.ticketId = t ∧
      checkOffer env node s.engine turn remote offer = .ok fileId ∧
      (s.step env node l).load t = s.load t + offer.fileSize.toNat := by
  unfold load
  rcases step_effect env node hl with
    ⟨a, rfl, hs⟩ | ⟨remote, turn, offer, fileId, rfl, hcheck, hs⟩ | ⟨hstate, hsub⟩ | ⟨i, x, hi, hs, hbytes⟩
  · left
    rw [hs]
    refine Nat.add_le_add_right (le_of_eq ?_) _
    show TicketStateStore.bytesOf _ t = _
    unfold TicketStateStore.bytesOf
    rw [hwork]
  · rw [hs]
    have hpending : FileState.pending { s with transfers := s.transfers ++ [⟨remote, offer, fileId, .accepted⟩] } t =
        s.pending t + offer.bytesFor t := by simp [pending, offers]
    by_cases ht : offer.ticketId = t
    · refine .inr ⟨remote, turn, offer, fileId, rfl, ht, hcheck, ?_⟩
      rw [hpending, FileOfferWire.bytesFor, if_pos ht, Nat.add_assoc]
    · refine .inl (Nat.add_le_add_left ?_ _)
      rw [hpending, FileOfferWire.bytesFor, if_neg ht, Nat.add_zero]
  · left
    rw [hstate]
    exact Nat.add_le_add_left ((hsub.map _).sum_le_sum fun _ _ => Nat.zero_le _) _
  · left
    have hpending : s.pending t = x.offer.bytesFor t + (s.step env node l).pending t := by
      obtain ⟨hil, rfl⟩ := List.getElem?_eq_some_iff.1 hi
      have hperm := ((List.getElem_cons_eraseIdx_perm hil).map (FileOfferWire.bytesFor t ∘ Transfer.offer)).sum_eq
      simp only [pending, offers, hs, List.map_map]
      exact hperm.symm
    have := hbytes t
    omega

/-- There are no more transfers than slots, each of no more than one file. -/
def InSlots (s : FileState) : Prop := s.offers.length ≤ maxParallelFiles ∧ ∀ offer ∈ s.offers, offer.fileSize ≤ maxFileSize

theorem InSlots.step (h : s.InSlots) (hl : s.enabled l = true) : (s.step env node l).InSlots := by
  have hsub : ∀ {s' : FileState}, List.Sublist s'.offers s.offers → s'.InSlots := fun hs =>
    ⟨hs.length_le.trans h.1, fun offer ho => h.2 offer (hs.subset ho)⟩
  rcases step_effect env node hl with
    ⟨a, -, hs⟩ | ⟨remote, turn, offer, fileId, rfl, hcheck, hs⟩ | ⟨-, hs⟩ | ⟨i, x, -, hs, -⟩
  · rw [hs]
    exact h
  · have hoffers : (s.step env node (.offer remote turn offer)).offers = s.offers ++ [offer] := by
      rw [hs, offers, List.map_append]
      rfl
    have hslot : s.transfers.length < maxParallelFiles := of_decide_eq_true hl
    rw [InSlots, hoffers]
    refine ⟨by simpa [offers] using hslot, fun o ho => ?_⟩
    rcases List.mem_append.1 ho with ho | ho
    · exact h.2 o ho
    · rw [List.mem_singleton.1 ho]
      exact (checkOffer_ok hcheck).2.1
  · exact hsub hs
  · refine hsub ?_
    rw [offers, hs]
    exact (List.eraseIdx_sublist s.transfers i).map _

theorem pending_le (h : ∀ offer ∈ s.offers, offer.fileSize ≤ maxFileSize) :
    s.pending t ≤ s.transfers.length * maxFileSize.toNat := by
  have hlen : (s.offers.map (FileOfferWire.bytesFor t)).length = s.transfers.length := by simp [offers]
  rw [pending, ← hlen, ← smul_eq_mul]
  refine List.sum_le_card_nsmul _ _ fun n hn => ?_
  obtain ⟨offer, ho, rfl⟩ := List.mem_map.1 hn
  unfold FileOfferWire.bytesFor
  split
  · exact UInt64.le_iff_toNat_le.1 (h offer ho)
  · exact Nat.zero_le _

theorem pending_eq_zero (h : ∀ x ∈ s.transfers, x.offer.ticketId ≠ t) : s.pending t = 0 := by
  rw [pending, offers, List.map_map]
  refine List.sum_eq_zero fun n hn => ?_
  obtain ⟨x, hx, rfl⟩ := List.mem_map.1 hn
  exact if_neg (h x hx)

/-- An accepted offer fits beside what the ticket has. -/
theorem checkOffer_fits {engine : TicketEngine} {turn : Turn} {remote : PeerId} {offer : FileOfferWire} {fileId : String}
    (h : checkOffer env node engine turn remote offer = .ok fileId) (hlt : engine.state.bytesOf offer.ticketId < 2 ^ 63) :
    engine.state.bytesOf offer.ticketId + offer.fileSize.toNat ≤ maxTicketStorage.toNat := by
  obtain ⟨-, -, hroom⟩ := checkOffer_ok h
  rw [saturatingAdd_le_iff (by decide), storedBytes_toNat (hlt.trans (by decide))] at hroom
  exact hroom

end FileState

/-! ## The test of an offer -/

section Test

variable (env : FileEnv) (node : FileNode) (engine : TicketEngine) (turn : Turn) (remote : PeerId) (offer : FileOfferWire)
  (fileId : String)

/-- The checks of an offer that come before its quota. -/
def EarlierChecks : Prop :=
  normalizeFileId env offer.fileId = some fileId ∧ ∃ ticket, engine.state.getTicket offer.ticketId = some ticket ∧
    isTicketCounterparty env node ticket remote = true ∧
    (ticket.clientPeerId = node.localPeerId → fileAuthorized env node turn remote offer = true) ∧
    ticket.state.permitsWork = true ∧ offer.fileSize ≤ maxFileSize

variable {env node engine turn remote offer fileId}

theorem EarlierChecks.checkOffer_iff (h : EarlierChecks env node engine turn remote offer fileId) :
    checkOffer env node engine turn remote offer = .ok fileId ↔
      saturatingAdd (storedBytes engine offer.ticketId) offer.fileSize ≤ maxTicketStorage := by
  obtain ⟨hid, ticket, hticket, hparty, hauth, hwork, hsize⟩ := h
  have hauth : ¬ (ticket.clientPeerId = node.localPeerId ∧ fileAuthorized env node turn remote offer = false) := by
    rintro ⟨hmine, hno⟩
    rw [hauth hmine] at hno
    cases hno
  rw [checkOffer]
  simp only [hid, hticket, hparty, hwork, Bool.not_true, Bool.false_eq_true, if_false, if_neg hauth,
    if_neg (UInt64.not_lt.2 hsize), gt_iff_lt]
  rw [← UInt64.not_lt]
  split <;> simp_all

/-- The quota decision of an offer that passes the checks before. The handler compares the sum of the sizes modulo
2^64; so nothing overflows and the decision is exact if and only if the sum is below 2^64. -/
theorem quota_decision_exact_iff (h : EarlierChecks env node engine turn remote offer fileId) :
    (checkOffer env node engine turn remote offer = .ok fileId ↔
      engine.state.bytesOf offer.ticketId % 2 ^ 64 + offer.fileSize.toNat ≤ maxTicketStorage.toNat) ∧
    ((checkedSum ((engine.state.listAttachments offer.ticketId).map AttachmentRecord.sizeBytes)).isSome = true ∧
      (checkOffer env node engine turn remote offer = .ok fileId ↔
        engine.state.bytesOf offer.ticketId + offer.fileSize.toNat ≤ maxTicketStorage.toNat) ↔
      engine.state.bytesOf offer.ticketId < 2 ^ 64) := by
  have hmod : checkOffer env node engine turn remote offer = .ok fileId ↔
      engine.state.bytesOf offer.ticketId % 2 ^ 64 + offer.fileSize.toNat ≤ maxTicketStorage.toNat := by
    rw [h.checkOffer_iff, saturatingAdd_le_iff (by decide), storedBytes_toNat_mod]
  have hsum : (checkedSum ((engine.state.listAttachments offer.ticketId).map AttachmentRecord.sizeBytes)).isSome = true ↔
      engine.state.bytesOf offer.ticketId < 2 ^ 64 := by
    rw [checkedSum_isSome_iff, List.map_map]
    rfl
  refine ⟨hmod, ?_⟩
  rw [hsum, hmod]
  refine and_iff_left_of_imp fun hlt => ?_
  rw [Nat.mod_eq_of_lt hlt]

end Test

/-! ## The quota -/

section Quota

variable {env : FileEnv} {node : FileNode} {s₀ s : FileState} {t : String}

/-- No other task adds an attachment to the ticket, and no file is offered for it while another is on its way. -/
def OneTransfer (env : FileEnv) (t : String) (s : FileState) : FileLabel → Prop
  | .offer _ _ offer => offer.ticketId = t → ∀ x ∈ s.transfers, x.offer.ticketId ≠ t
  | l => FileState.HandlerOnly env t s l

instance (env : FileEnv) (t : String) (s : FileState) : ∀ l, Decidable (OneTransfer env t s l)
  | .work a => inferInstanceAs (Decidable (FileState.HandlerOnly env t s (.work a)))
  | .offer _ _ offer => inferInstanceAs (Decidable (offer.ticketId = t → ∀ x ∈ s.transfers, x.offer.ticketId ≠ t))
  | .abort _ | .create _ | .chunk .. | .streamFails _ | .finish _ | .rename .. | .record .. | .discard .. =>
    instDecidableTrue

theorem OneTransfer.handlerOnly {l : FileLabel} (h : OneTransfer env t s l) : FileState.HandlerOnly env t s l := by
  cases l with
  | offer remote turn offer => trivial
  | _ => exact h

/-- The quota of a ticket holds at every moment of every run in which its files come one after the other. -/
theorem quota_kept (h₀ : (fileMachine env node).start s₀)
    (hroom : s₀.engine.state.bytesOf t ≤ maxTicketStorage.toNat)
    (hrun : ((fileMachine env node).restrict (OneTransfer env t)).Run s₀ s) :
    s.engine.state.bytesOf t ≤ maxTicketStorage.toNat := by
  have hload : s.load t ≤ maxTicketStorage.toNat := by
    refine Machine.Run.keeps (I := fun s => s.load t ≤ maxTicketStorage.toNat) (fun s l hl hs => ?_) hrun ?_
    · obtain ⟨hen, hone⟩ := hl
      rcases FileState.load_step node hen hone.handlerOnly with h | ⟨remote, turn, offer, fileId, rfl, rfl, hcheck, h⟩
      · exact h.trans hs
      · -- nothing else was on its way when the offer was checked
        have hzero := FileState.pending_eq_zero (hone rfl)
        have hbytes : s.load offer.ticketId = s.engine.state.bytesOf offer.ticketId := by
          rw [FileState.load, hzero, Nat.add_zero]
        rw [hbytes] at h hs
        exact h.le.trans (FileState.checkOffer_fits hcheck (hs.trans_lt (by decide)))
    · rwa [FileState.load, FileState.pending_eq_zero (by simp [h₀.1]), Nat.add_zero]
  exact (Nat.le_add_right _ _).trans hload

/-- In every run, the files that are on their way when an offer is checked are all that can go past the quota. -/
theorem quota_overshoot (h₀ : (fileMachine env node).start s₀)
    (hroom : s₀.engine.state.bytesOf t ≤ maxTicketStorage.toNat)
    (hrun : ((fileMachine env node).restrict (FileState.HandlerOnly env t)).Run s₀ s) :
    s.engine.state.bytesOf t ≤ maxTicketStorage.toNat + (maxParallelFiles - 1) * maxFileSize.toNat := by
  have hload : s.InSlots ∧ s.load t ≤ maxTicketStorage.toNat + (maxParallelFiles - 1) * maxFileSize.toNat := by
    refine Machine.Run.keeps
      (I := fun s => s.InSlots ∧ s.load t ≤ maxTicketStorage.toNat + (maxParallelFiles - 1) * maxFileSize.toNat)
      (fun s l hl hs => ?_) hrun ⟨?_, ?_⟩
    · obtain ⟨hen, hhandler⟩ := hl
      obtain ⟨hslots, hs⟩ := hs
      refine ⟨hslots.step hen, ?_⟩
      rcases FileState.load_step node hen hhandler with h | ⟨remote, turn, offer, fileId, rfl, rfl, hcheck, h⟩
      · exact h.trans hs
      · -- a slot is free for the offer, and the others hold a file each
        have hslot : s.transfers.length < maxParallelFiles := of_decide_eq_true hen
        have hpending := FileState.pending_le (t := offer.ticketId) hslots.2
        have hothers : s.transfers.length * maxFileSize.toNat ≤ (maxParallelFiles - 1) * maxFileSize.toNat :=
          Nat.mul_le_mul_right _ (Nat.le_sub_one_of_lt hslot)
        have hlt : s.engine.state.bytesOf offer.ticketId < 2 ^ 63 :=
          (Nat.le_add_right _ _).trans_lt (hs.trans_lt (by decide))
        have hfits := FileState.checkOffer_fits hcheck hlt
        refine h.le.trans ?_
        rw [FileState.load]
        omega
    · simp [FileState.InSlots, FileState.offers, h₀.1]
    · rw [FileState.load, FileState.pending_eq_zero (by simp [h₀.1])]
      omega
  exact (Nat.le_add_right _ _).trans hload.2

/-! ## A transfer from its acceptance to its record -/

variable {i : Nat} {x : Transfer} {s' : FileState} {phase : TransferPhase}

/-- One transfer has come to a phase, with the engine and the other transfers as they were. -/
structure Advances (env : FileEnv) (node : FileNode) (t : String) (s₀ s : FileState) (i : Nat) (x : Transfer)
    (phase : TransferPhase) (s' : FileState) : Prop where
  run : ((fileMachine env node).restrict (FileState.HandlerOnly env t)).Run s₀ s'
  engine : s'.engine = s.engine
  transfers : s'.transfers = s.transfers.set i { x with phase }

/-- A step of one transfer is a step of a run. -/
theorem run_transfer (hrun : ((fileMachine env node).restrict (FileState.HandlerOnly env t)).Run s₀ s) {l : FileLabel}
    (hi : s.transfers[i]? = some x) (hof : FileState.transferOf l = some i) (hl : FileState.takes x.phase l = true) :
    ((fileMachine env node).restrict (FileState.HandlerOnly env t)).Run s₀ (s.stepTransfer env node i x l) := by
  rw [← FileState.step_transfer hof hi]
  refine hrun.tail l ⟨?_, ?_⟩
  · show s.enabled l = true
    cases l with
    | work a => cases hof
    | offer remote turn offer => cases hof
    | _ => simp only [FileState.enabled, hof, Option.any_some, hi, hl]
  · cases l with
    | work a => cases hof
    | _ => trivial

/-- An accepted offer is one more transfer of a run. -/
theorem run_offer (hrun : ((fileMachine env node).restrict (FileState.HandlerOnly env t)).Run s₀ s) {remote : PeerId}
    {turn : Turn} {offer : FileOfferWire} {fileId : String} (hslot : s.transfers.length < maxParallelFiles)
    (hcheck : (checkOffer env node s.engine turn remote offer).toOption = some fileId) :
    ((fileMachine env node).restrict (FileState.HandlerOnly env t)).Run s₀
      { s with transfers := s.transfers ++ [⟨remote, offer, fileId, .accepted⟩] } := by
  have hstep : s.step env node (.offer remote turn offer) =
      { s with transfers := s.transfers ++ [⟨remote, offer, fileId, .accepted⟩] } := by
    cases h : checkOffer env node s.engine turn remote offer with
    | error denial => rw [h] at hcheck; cases hcheck
    | ok id =>
      rw [h] at hcheck
      cases hcheck
      simp only [FileState.step, h]
  rw [← hstep]
  exact hrun.tail (.offer remote turn offer) ⟨decide_eq_true hslot, trivial⟩

namespace Advances

theorem get (h : Advances env node t s₀ s i x phase s') (hil : i < s.transfers.length) :
    s'.transfers[i]? = some { x with phase } := by
  rw [h.transfers]
  exact List.getElem?_set_self hil

/-- A step that changes the files and the phase. -/
theorem step (h : Advances env node t s₀ s i x phase s') (hil : i < s.transfers.length) {l : FileLabel}
    (hof : FileState.transferOf l = some i) (hl : FileState.takes phase l = true) {fs : FileSystem String UInt8}
    {phase' : TransferPhase}
    (hstep : s'.stepTransfer env node i { x with phase } l = { s' with fs }.setPhase i x phase') :
    Advances env node t s₀ s i x phase' ({ s' with fs }.setPhase i x phase') := by
  refine ⟨?_, h.engine, ?_⟩
  · rw [← hstep]
    exact run_transfer h.run (h.get hil) hof hl
  · show s'.transfers.set i { x with phase := phase' } = _
    rw [h.transfers, List.set_set]

/-- What remains comes in chunks. -/
theorem chunks (hil : i < s.transfers.length) (remaining : Nat) : ∀ {s' : FileState} {received : List UInt8},
    Advances env node t s₀ s i x (.receiving received remaining) s' → s'.fs.read (x.partPath env node) ≠ none →
    ∃ s'' received', Advances env node t s₀ s i x (.receiving received' 0) s'' ∧
      s''.fs.read (x.partPath env node) ≠ none := by
  induction remaining using Nat.strong_induction_on with
  | _ remaining ih =>
    intro s' received h hread
    rcases Nat.eq_zero_or_pos remaining with rfl | hpos
    · exact ⟨s', received, h, hread⟩
    · let bytes : List UInt8 := List.replicate (min remaining 8192) 0
      have hlen : bytes.length = min remaining 8192 := List.length_replicate
      have hnext := h.step hil (l := .chunk i bytes none) rfl (by simp [FileState.takes, hpos, hlen]) rfl
      refine ih (remaining - bytes.length) (by omega) hnext ?_
      show (s'.fs.append (x.partPath env node) bytes).read (x.partPath env node) ≠ none
      simpa using hread

/-- A transfer whose hash will be the one offered comes to be stored. -/
theorem stored (hrun : ((fileMachine env node).restrict (FileState.HandlerOnly env t)).Run s₀ s)
    (hi : s.transfers[i]? = some x) (hphase : x.phase = .accepted)
    (hsha : ∀ bytes, env.sha256Hex bytes = x.offer.sha256) :
    ∃ s' received, Advances env node t s₀ s i x (.renamed received) s' := by
  obtain ⟨hil, hget⟩ := List.getElem?_eq_some_iff.1 hi
  have haccepted : Advances env node t s₀ s i x .accepted s :=
    ⟨hrun, rfl, by rw [← hphase, ← hget, List.set_getElem_self]⟩
  have hcreated := haccepted.step hil (l := .create i) rfl rfl rfl
  have hcreate : FileSystem.read (s.fs.create (x.partPath env node)) (x.partPath env node) ≠ none := by simp
  obtain ⟨s₁, received, hreceived, hread⟩ := chunks hil _ hcreated hcreate
  have hfinish : s₁.stepTransfer env node i { x with phase := .receiving received 0 } (.finish i) =
      { s₁ with fs := s₁.fs }.setPhase i x (.verified received) := by
    simp only [FileState.stepTransfer, hsha, if_true]
    rfl
  have hverified := hreceived.step hil rfl rfl hfinish
  have hnone : ¬ (false = true ∨ s₁.fs.read (x.partPath env node) = none) := by simpa using hread
  have hrenamed := hverified.step hil (l := .rename i false) rfl rfl (if_neg hnone)
  exact ⟨_, received, hrenamed⟩

/-- An engine, and one transfer to it. -/
def only (engine : TicketEngine) (x : Transfer) : FileState := ⟨engine, FileSystem.empty, [x], []⟩

/-- With one hash for all files the record does not depend on the bytes: an accepted transfer comes to be recorded,
with the engine as after the record of no bytes. -/
theorem recorded (hrun : ((fileMachine env node).restrict (FileState.HandlerOnly env t)).Run s₀ s)
    (hi : s.transfers[i]? = some x) (hphase : x.phase = .accepted)
    (hsha : ∀ bytes, env.sha256Hex bytes = x.offer.sha256) {turn : Turn} {uuid : String}
    (hok : ((only s.engine x).recordTransfer env node 0 x [] turn uuid).transfers.length = 0) :
    ∃ s', ((fileMachine env node).restrict (FileState.HandlerOnly env t)).Run s₀ s' ∧
      s'.engine = ((only s.engine x).recordTransfer env node 0 x [] turn uuid).engine ∧
      s'.transfers = s.transfers.eraseIdx i := by
  obtain ⟨hil, -⟩ := List.getElem?_eq_some_iff.1 hi
  obtain ⟨s₁, received, h⟩ := stored hrun hi hphase hsha
  have hrecord := run_transfer h.run (l := .record i turn uuid) (h.get hil) rfl rfl
  have hatt : ({ x with phase := .renamed received } : Transfer).attachment env node received turn.now =
      x.attachment env node [] turn.now := by
    simp only [Transfer.attachment, hsha]
    rfl
  refine ⟨_, hrecord, ?_⟩
  simp only [FileState.stepTransfer, FileState.recordTransfer, hatt, h.engine]
  simp only [FileState.recordTransfer, only] at hok ⊢
  rcases hadd : (Call.addAttachment turn.disk turn.timestamp (x.attachment env node [] turn.now)).run (exec env.toEnv)
    s.engine with ⟨err | u, engine⟩
  · simp [hadd, FileState.setPhase] at hok
  · refine ⟨rfl, ?_⟩
    show s₁.transfers.eraseIdx i = _
    rw [h.transfers, List.eraseIdx_set_eq]

end Advances

end Quota

namespace QuotaSample

/-- The ids of files are told by their lengths. -/
def fileText (k : Nat) : String := String.ofList (List.replicate (k + 1) 'f')

def fileId (k : Nat) : String := hexEncode (List.replicate 16 (k + 1).toUInt8)

def digest : String := hexEncode (List.replicate 32 7)

def storedPath (k : Nat) : String := "data/" ++ digest ++ "/files/" ++ fileId k ++ "_log.txt"

/-- A ticket of the peer `client`, and eleven files of the largest size with the notes of their receipt. -/
def quotaTable : EventTable where
  bodies :=
    let file (k : Nat) : List EventBody :=
      [⟨[idAt (2 * k)], 100, (2 * k + 2).toUInt64, .ticket (.attachmentAdded "T-aaaaaaaa" (fileId k) "client" "log.txt"
          maxFileSize digest (storedPath k) 100)⟩,
       ⟨[idAt (2 * k + 1)], 100, (2 * k + 3).toUInt64, .ticket (.customAudit "T-aaaaaaaa" (fileText k)
          "ATTACHMENT_RECEIVED" "client" (some "Fichier reçu de client: log.txt") 100)⟩]
    ⟨[], 10, 1, .ticket (.created "T-aaaaaaaa" "printer" "on fire" .high "client")⟩ :: (List.range 11).flatMap file

/-- The environment of the samples before, with one hash for all files. -/
def quotaEnv : FileEnv :=
  { FileSample.fileEnv with
    toEnv := quotaTable.env
    sha256 := fun _ => Vector.replicate 32 7
    parseUuid := fun text => some (Vector.replicate 16 text.toList.length.toUInt8) }

def offer (k : Nat) : FileOfferWire := ⟨"T-aaaaaaaa", fileText k, "log.txt", maxFileSize, digest, none⟩

def transfer (k : Nat) : Transfer := ⟨⟨utf8 "client"⟩, offer k, fileId k, .accepted⟩

def empty : FileState where
  engine := ((Reached.start quotaTable).after (.createTicket "aaaaaaaa" 10 "printer" "on fire" .high "client")).engine
  fs := FileSystem.empty
  transfers := []
  recorded := []

/-- The engine with so many files recorded. -/
def filled : Nat → TicketEngine
  | 0 => empty.engine
  | k + 1 => ((Advances.only (filled k) (transfer k)).recordTransfer quotaEnv FileSample.operatorNode 0 (transfer k) []
      FileSample.atHundred (fileText k)).engine

theorem filled_succ (k : Nat) : ((Advances.only (filled k) (transfer k)).recordTransfer quotaEnv FileSample.operatorNode 0
    (transfer k) [] FileSample.atHundred (fileText k)).engine = filled (k + 1) := rfl

/-- The engine takes each of the eleven files; it accepts each of the first ten after those before it, and the last
without the one before it. -/
theorem filled_facts :
    (∀ k < 11, ((Advances.only (filled k) (transfer k)).recordTransfer quotaEnv FileSample.operatorNode 0 (transfer k) []
      FileSample.atHundred (fileText k)).transfers.length = 0) ∧
    (∀ k < 10, (checkOffer quotaEnv FileSample.operatorNode (filled k) FileSample.atHundred ⟨utf8 "client"⟩
      (offer k)).toOption = some (fileId k)) ∧
    (checkOffer quotaEnv FileSample.operatorNode (filled 9) FileSample.atHundred ⟨utf8 "client"⟩
      (offer 10)).toOption = some (fileId 10) ∧
    (filled 11).state.bytesOf "T-aaaaaaaa" = 11 * maxFileSize.toNat := by decide +kernel

/-- Files come one after the other, up to the ninth. -/
theorem filled_reached : ∀ k ≤ 9, ∃ s,
    ((fileMachine quotaEnv FileSample.operatorNode).restrict (FileState.HandlerOnly quotaEnv "T-aaaaaaaa")).Run empty s ∧
      s.engine = filled k ∧ s.transfers = []
  | 0, _ => ⟨empty, .refl, rfl, rfl⟩
  | k + 1, hk => by
    obtain ⟨s, hrun, hengine, htransfers⟩ := filled_reached k (by omega)
    obtain ⟨htaken, haccepted, -⟩ := filled_facts
    have hoffer := run_offer hrun (by simp [htransfers, maxParallelFiles])
      (by rw [hengine]; exact haccepted k (by omega))
    obtain ⟨s', hrun', hengine', htransfers'⟩ := Advances.recorded hoffer (i := 0) (x := transfer k)
      (by simp [htransfers, transfer]) rfl (fun _ => rfl) (by rw [hengine]; exact htaken k (by omega))
    refine ⟨s', hrun', ?_, by rw [htransfers', htransfers]; rfl⟩
    rw [hengine', ← filled_succ, ← hengine]

/-- The client sends nine files of the largest size one after the other, and then two at once: both are accepted beside
the nine, and with both recorded the ticket is over its quota. -/
theorem quota_exceeded : ∃ s,
    ((fileMachine quotaEnv FileSample.operatorNode).restrict (FileState.HandlerOnly quotaEnv "T-aaaaaaaa")).Run empty s ∧
    (fileMachine quotaEnv FileSample.operatorNode).start empty ∧
    empty.engine.state.listAttachments "T-aaaaaaaa" = [] ∧
    maxTicketStorage.toNat < s.engine.state.bytesOf "T-aaaaaaaa" := by
  obtain ⟨s, hrun, hengine, htransfers⟩ := filled_reached 9 le_rfl
  obtain ⟨htaken, haccepted, hlast, hbytes⟩ := filled_facts
  -- both offers are checked against the nine
  have hfirst := run_offer hrun (by simp [htransfers, maxParallelFiles])
    (by rw [hengine]; exact haccepted 9 (by omega))
  have hsecond := run_offer hfirst (by simp [htransfers, maxParallelFiles]) (by rw [hengine]; exact hlast)
  obtain ⟨s₁, hrun₁, hengine₁, htransfers₁⟩ := Advances.recorded hsecond (i := 0) (x := transfer 9)
    (by simp [htransfers, transfer]) rfl (fun _ => rfl) (by rw [hengine]; exact htaken 9 (by omega))
  have hten : s₁.engine = filled 10 := by
    rw [hengine₁, ← filled_succ 9, ← hengine]
  obtain ⟨s₂, hrun₂, hengine₂, -⟩ := Advances.recorded hrun₁ (i := 0) (x := transfer 10)
    (by simp [htransfers₁, htransfers, transfer]) rfl (fun _ => rfl) (by rw [hten]; exact htaken 10 (by omega))
  have heleven : s₂.engine = filled 11 := by
    rw [hengine₂, ← filled_succ 10, ← hten]
  refine ⟨s₂, hrun₂, ⟨rfl, rfl⟩, by decide +kernel, ?_⟩
  rw [heleven, hbytes]
  decide

/-- The theorem after two deliveries, one after the other. -/
theorem quota_kept_pair :
    FileSample.pair.engine.state.bytesOf "T-aaaaaaaa" = 2 ∧
    FileSample.pair.engine.state.bytesOf "T-aaaaaaaa" ≤ maxTicketStorage.toNat := by
  have hempty : ((fileMachine FileSample.pairEnv FileSample.operatorNode).restrict
      (OneTransfer FileSample.pairEnv "T-aaaaaaaa")).Run FileSample.pairEmpty FileSample.pairEmpty := .refl
  have hroom : FileSample.pairEmpty.engine.state.bytesOf "T-aaaaaaaa" ≤ maxTicketStorage.toNat := by decide +kernel
  have hrun := hempty.after FileSample.pairLabels (by decide +kernel)
  rw [Machine.after_restrict] at hrun
  exact ⟨by decide +kernel, quota_kept ⟨rfl, rfl⟩ hroom hrun⟩

/-- A ticket of the peer `client`, and two attachments of 2^63 bytes each, announced by a peer that sends objects. -/
def wrapTable : EventTable where
  bodies :=
    let added (id : String) : TicketEvent :=
      .attachmentAdded "T-aaaaaaaa" id "mallory" "log.txt" 0x8000000000000000 digest "nowhere" 20
    [⟨[], 10, 1, .ticket (.created "T-aaaaaaaa" "printer" "on fire" .high "client")⟩,
     ⟨[idAt 0], 20, 2, .ticket (added "x1")⟩, ⟨[idAt 1], 20, 3, .ticket (added "x2")⟩]
  author := fun i => (if i = 0 then alice else mallory).publicKey tagCrypto

def wrapEnv : FileEnv := { quotaEnv with toEnv := wrapTable.env }

def announced : Reached wrapTable :=
  ((Reached.start wrapTable).after (.createTicket "aaaaaaaa" 10 "printer" "on fire" .high "client")).after
    (.applyRemoteObject (objectAt mallory 1 20))

def wrapped : Reached wrapTable := announced.after (.applyRemoteObject (objectAt mallory 2 20))

/-- The theorem with one of the attachments: the sum is below 2^64 and the offer is refused. -/
theorem quota_decision_exact_iff_announced :
    announced.engine.state.bytesOf "T-aaaaaaaa" = 2 ^ 63 ∧
      checkOffer wrapEnv FileSample.operatorNode announced.engine FileSample.atHundred ⟨utf8 "client"⟩ (offer 0) ≠
        .ok (fileId 0) := by
  obtain ⟨hbytes, hid, hticket, hsize⟩ : announced.engine.state.bytesOf "T-aaaaaaaa" = 2 ^ 63 ∧
      normalizeFileId wrapEnv (offer 0).fileId = some (fileId 0) ∧
      ((announced.engine.state.getTicket "T-aaaaaaaa").any fun ticket =>
        isTicketCounterparty wrapEnv FileSample.operatorNode ticket ⟨utf8 "client"⟩ &&
          (ticket.clientPeerId ≠ FileSample.operatorNode.localPeerId) && ticket.state.permitsWork) = true ∧
      (offer 0).fileSize ≤ maxFileSize := by decide +kernel
  obtain ⟨ticket, hget, hall⟩ := (Option.any_eq_true _ _).1 hticket
  simp only [Bool.and_eq_true, decide_eq_true_eq] at hall
  have hearlier : EarlierChecks wrapEnv FileSample.operatorNode announced.engine FileSample.atHundred ⟨utf8 "client"⟩
      (offer 0) (fileId 0) :=
    ⟨hid, ticket, hget, hall.1.1, fun h => absurd h hall.1.2, hall.2, hsize⟩
  have hexact := ((quota_decision_exact_iff hearlier).2.2 (by rw [show (offer 0).ticketId = "T-aaaaaaaa" from rfl, hbytes]; decide)).2
  refine ⟨hbytes, fun hok => ?_⟩
  have hle := hexact.1 hok
  rw [show (offer 0).ticketId = "T-aaaaaaaa" from rfl, hbytes] at hle
  exact absurd hle (by decide)

/-- With both attachments the sum of the sizes wraps to zero: the ticket has 2^64 bytes on record, far over its quota,
and the offer is accepted. -/
theorem quota_decision_wraps :
    wrapped.engine.state.bytesOf "T-aaaaaaaa" = 2 ^ 64 ∧ storedBytes wrapped.engine "T-aaaaaaaa" = 0 ∧
      checkedSum ((wrapped.engine.state.listAttachments "T-aaaaaaaa").map AttachmentRecord.sizeBytes) = none ∧
      (checkOffer wrapEnv FileSample.operatorNode wrapped.engine FileSample.atHundred ⟨utf8 "client"⟩
        (offer 0)).toOption = some (fileId 0) := by decide +kernel

end QuotaSample

end Fortiq
