/-
Stored files and their records. A part file is named by the file id alone, and a finished file is renamed over
whatever has its name; so a transfer keeps what it has written as long as no other uses its id at the same time, and
a recorded file stays as long as no later offer comes to the same path.
-/
import Fortiq.Engine.Reach
import Fortiq.Node.Files

namespace Fortiq

open TicketEngine

/-! ## Paths -/

variable {env : FileEnv} {node : FileNode}

theorem length_hexEncode (bytes : List UInt8) : (hexEncode bytes).toList.length = 2 * bytes.length := by
  induction bytes with
  | nil => rfl
  | cons b bytes ih => simp [hexEncode] at ih ⊢; omega

/-- A canonical file id has 32 digits. -/
theorem length_normalizeFileId {text fileId : String} (h : normalizeFileId env text = some fileId) :
    fileId.toList.length = 32 := by
  obtain ⟨id, -, rfl⟩ := Option.map_eq_some_iff.1 h
  rw [length_hexEncode]
  simp

/-- The directory of a ticket and the id in it have fixed widths, so that a path has one reading. -/
theorem filePath_inj {t t' f f' r r' : String} (hf : f.toList.length = 32) (hf' : f'.toList.length = 32)
    (h : filePath env node t f r = filePath env node t' f' r') :
    env.sha256Hex (utf8 t) = env.sha256Hex (utf8 t') ∧ f = f' ∧ r = r' := by
  have hlen : ∀ t, (env.sha256Hex (utf8 t)).toList.length = 64 := fun t => by
    rw [FileEnv.sha256Hex, length_hexEncode]; simp
  have h := congrArg String.toList h
  simp only [filePath, String.toList_append, List.append_assoc, List.append_cancel_left_eq] at h
  obtain ⟨hkey, h⟩ := List.append_inj h (by rw [hlen, hlen])
  obtain ⟨hid, hrest⟩ := List.append_inj (List.append_cancel_left h) (by rw [hf, hf'])
  exact ⟨String.toList_inj.1 hkey, String.toList_inj.1 hid, String.toList_inj.1 hrest⟩

/-- A part file is not a finished one. -/
theorem part_ne_final {t t' f f' name : String} (hf : f.toList.length = 32) (hf' : f'.toList.length = 32) :
    filePath env node t f ".part" ≠ filePath env node t' f' ("_" ++ name) := by
  intro h
  have hrest := congrArg (fun r => r.toList.head?) (filePath_inj hf hf' h).2.2
  simp at hrest

/-! ## What a file must hold -/

/-- The file at the path has the size and the hash. -/
def Holds (env : FileEnv) (fs : FileSystem String UInt8) (path : String) (size : Nat) (sha : String) : Prop :=
  ∃ content, fs.read path = some content ∧ content.length = size ∧ env.sha256Hex content = sha

/-- Every attachment of a ticket that this handler has recorded is on disk as recorded. -/
def FilesMatch (env : FileEnv) (s : FileState) : Prop :=
  ∀ r ∈ s.recorded, ∀ x ∈ s.engine.state.listAttachments r.ticketId,
    x.id = r.id ∧ x.localPath = r.localPath ∧ x.sizeBytes = r.sizeBytes ∧ x.sha256 = r.sha256 →
      Holds env s.fs x.localPath x.sizeBytes.toNat x.sha256

/-- The directory and the id a transfer works under. -/
def Transfer.slot (env : FileEnv) (t : Transfer) : String × String := (env.sha256Hex (utf8 t.offer.ticketId), t.fileId)

/-- What a transfer has received is in its file. -/
def Transfer.Intact (env : FileEnv) (node : FileNode) (fs : FileSystem String UInt8) (t : Transfer) : Prop :=
  match t.phase with
  | .receiving received remaining =>
    fs.read (t.partPath env node) = some received ∧ received.length + remaining = t.offer.fileSize.toNat
  | .verified received => fs.read (t.partPath env node) = some received ∧ received.length = t.offer.fileSize.toNat
  | .renamed received => fs.read (t.finalPath env node) = some received ∧ received.length = t.offer.fileSize.toNat
  | _ => True

/-- Transfers work under different ids, and away from the files that are recorded. -/
structure FileState.Safe (env : FileEnv) (node : FileNode) (s : FileState) : Prop where
  ids : ∀ t ∈ s.transfers, t.fileId.toList.length = 32
  slots : (s.transfers.map (Transfer.slot env)).Nodup
  intact : ∀ t ∈ s.transfers, t.Intact env node s.fs
  kept : ∀ r ∈ s.recorded, Holds env s.fs r.localPath r.sizeBytes.toNat r.sha256
  final : ∀ r ∈ s.recorded, ∃ ticketId fileId name, fileId.toList.length = 32 ∧
    r.localPath = filePath env node ticketId fileId ("_" ++ name)
  apart : ∀ t ∈ s.transfers, ∀ r ∈ s.recorded, r.localPath ≠ t.finalPath env node

/-! ## Frames -/

/-- Only the two paths of the transfer change. -/
def Confined (env : FileEnv) (node : FileNode) (t : Transfer) (fs fs' : FileSystem String UInt8) : Prop :=
  ∀ p, p ≠ t.partPath env node → p ≠ t.finalPath env node → fs'.read p = fs.read p

variable {fs fs' : FileSystem String UInt8} {t u : Transfer} {s : FileState} {i : Nat}

theorem confined_refl (t : Transfer) (fs : FileSystem String UInt8) : Confined env node t fs fs := fun _ _ _ => rfl

theorem confined_append (t : Transfer) (fs : FileSystem String UInt8) (bytes : List UInt8) :
    Confined env node t fs (fs.append (t.partPath env node) bytes) := fun _ hp _ => FileSystem.read_append_of_ne hp

/-- A transfer under another id keeps its file. -/
theorem Transfer.Intact.frame (h : u.Intact env node fs) (hc : Confined env node t fs fs')
    (ht : t.fileId.toList.length = 32) (hu : u.fileId.toList.length = 32) (hne : u.slot env ≠ t.slot env) :
    u.Intact env node fs' := by
  have hpath : ∀ r r', filePath env node u.offer.ticketId u.fileId r ≠ filePath env node t.offer.ticketId t.fileId r' := by
    intro r r' heq
    obtain ⟨hkey, hid, -⟩ := filePath_inj hu ht heq
    exact hne (Prod.ext hkey hid)
  have hpart : fs'.read (u.partPath env node) = fs.read (u.partPath env node) := hc _ (hpath _ _) (hpath _ _)
  have hfinal : fs'.read (u.finalPath env node) = fs.read (u.finalPath env node) := hc _ (hpath _ _) (hpath _ _)
  unfold Transfer.Intact at h ⊢
  rwa [hpart, hfinal]

/-- Different places in the list have different ids. -/
theorem slot_ne_of_index_ne (hn : (s.transfers.map (Transfer.slot env)).Nodup) (hi : s.transfers[i]? = some t) {j : Nat}
    (hj : s.transfers[j]? = some u) (hji : j ≠ i) : u.slot env ≠ t.slot env := by
  intro heq
  obtain ⟨hjl, -⟩ := List.getElem?_eq_some_iff.1 hj
  refine hji ((List.getElem?_inj (by simpa using hjl) hn).1 ?_)
  rw [List.getElem?_map, List.getElem?_map, hi, hj, Option.map_some, Option.map_some, heq]

/-- What does not depend on the phase stays when a transfer moves on. -/
theorem map_set_phase {β : Type} (f : Transfer → β) (phase : TransferPhase) (hi : s.transfers[i]? = some t)
    (hf : f { t with phase } = f t) : (s.transfers.set i { t with phase }).map f = s.transfers.map f := by
  obtain ⟨hil, -⟩ := List.getElem?_eq_some_iff.1 hi
  refine List.ext_getElem? fun j => ?_
  rw [List.getElem?_map, List.getElem?_map]
  by_cases hij : i = j
  · subst hij
    rw [List.getElem?_set_self hil, hi, Option.map_some, Option.map_some, hf]
  · rw [List.getElem?_set_ne hij]

namespace FileState.Safe

/-- A recorded file is not touched by a transfer. -/
theorem kept_frame (h : s.Safe env node) (ht : t ∈ s.transfers) (hc : Confined env node t s.fs fs') :
    ∀ r ∈ s.recorded, Holds env fs' r.localPath r.sizeBytes.toNat r.sha256 := by
  intro r hr
  obtain ⟨ticketId, fileId, name, hid, hpath⟩ := h.final r hr
  have hpart : r.localPath ≠ t.partPath env node := by
    rw [hpath]
    exact (part_ne_final (h.ids t ht) hid).symm
  unfold Holds
  rw [hc _ hpart (h.apart t ht r hr)]
  exact h.kept r hr

/-- One transfer moves on, and its file with it. -/
theorem setPhase (h : s.Safe env node) (hi : s.transfers[i]? = some t) {phase : TransferPhase}
    (hc : Confined env node t s.fs fs') (hp : ({ t with phase } : Transfer).Intact env node fs') :
    ({ s with fs := fs' }.setPhase i t phase).Safe env node := by
  have ht : t ∈ s.transfers := List.mem_of_getElem? hi
  obtain ⟨hil, -⟩ := List.getElem?_eq_some_iff.1 hi
  -- the others are where they were, under other ids
  have hmem : ∀ u ∈ s.transfers.set i { t with phase }, u = { t with phase } ∨ (u ∈ s.transfers ∧ u.slot env ≠ t.slot env) := by
    intro u hu
    obtain ⟨j, hj⟩ := List.mem_iff_getElem?.1 hu
    by_cases hij : i = j
    · subst hij
      rw [List.getElem?_set_self hil] at hj
      cases hj
      exact .inl rfl
    · rw [List.getElem?_set_ne hij] at hj
      exact .inr ⟨List.mem_of_getElem? hj, slot_ne_of_index_ne h.slots hi hj (Ne.symm hij)⟩
  refine ⟨fun u hu => ?_, ?_, fun u hu => ?_, h.kept_frame ht hc, h.final, fun u hu r hr => ?_⟩
  · rcases hmem u hu with rfl | ⟨hu, -⟩
    · exact h.ids t ht
    · exact h.ids u hu
  · show ((s.transfers.set i { t with phase }).map (Transfer.slot env)).Nodup
    rw [map_set_phase (Transfer.slot env) phase hi rfl]
    exact h.slots
  · rcases hmem u hu with rfl | ⟨hu, hne⟩
    · exact hp
    · exact (h.intact u hu).frame hc (h.ids t ht) (h.ids u hu) hne
  · rcases hmem u hu with rfl | ⟨hu, -⟩
    · exact h.apart t ht r hr
    · exact h.apart u hu r hr

/-- One transfer ends; what it does to its own paths is its own affair. -/
theorem drop (h : s.Safe env node) (hi : s.transfers[i]? = some t) (hc : Confined env node t s.fs fs') :
    ({ s with fs := fs' }.drop i).Safe env node := by
  have ht : t ∈ s.transfers := List.mem_of_getElem? hi
  have hmem : ∀ u ∈ s.transfers.eraseIdx i, u ∈ s.transfers ∧ u.slot env ≠ t.slot env := by
    intro u hu
    obtain ⟨j, hji, hj⟩ := List.mem_eraseIdx_iff_getElem?.1 hu
    exact ⟨List.mem_of_getElem? hj, slot_ne_of_index_ne h.slots hi hj hji⟩
  refine ⟨fun u hu => h.ids u (hmem u hu).1, ?_, fun u hu => ?_, h.kept_frame ht hc, h.final,
    fun u hu => h.apart u (hmem u hu).1⟩
  · exact h.slots.sublist ((List.eraseIdx_sublist ..).map _)
  · obtain ⟨hu, hne⟩ := hmem u hu
    exact (h.intact u hu).frame hc (h.ids t ht) (h.ids u hu) hne

/-- The engine is of no consequence. -/
theorem setEngine (h : s.Safe env node) (engine : TicketEngine) : ({ s with engine } : FileState).Safe env node :=
  ⟨h.ids, h.slots, h.intact, h.kept, h.final, h.apart⟩

/-- A file that is in its place is recorded as it is. -/
theorem record (h : s.Safe env node) (hi : s.transfers[i]? = some t) {received : List UInt8}
    (hphase : t.phase = .renamed received) (engine : TicketEngine) (now : UInt64) :
    ({ s with engine, recorded := s.recorded ++ [t.attachment env node received now] }.drop i : FileState).Safe env node := by
  have ht : t ∈ s.transfers := List.mem_of_getElem? hi
  have hdrop := h.drop hi (confined_refl t s.fs)
  have hint := h.intact t ht
  simp only [Transfer.Intact, hphase] at hint
  have hmem : ∀ r ∈ s.recorded ++ [t.attachment env node received now],
      r ∈ s.recorded ∨ r = t.attachment env node received now := fun r hr => by simpa using hr
  refine ⟨hdrop.ids, hdrop.slots, hdrop.intact, fun r hr => ?_, fun r hr => ?_, fun u hu r hr => ?_⟩
  · rcases hmem r hr with hr | rfl
    · exact h.kept r hr
    · exact ⟨received, hint.1, hint.2, rfl⟩
  · rcases hmem r hr with hr | rfl
    · exact h.final r hr
    · exact ⟨_, _, _, h.ids t ht, rfl⟩
  · rcases hmem r hr with hr | rfl
    · exact hdrop.apart u hu r hr
    · -- the others work under other ids
      obtain ⟨j, hji, hj⟩ := List.mem_eraseIdx_iff_getElem?.1 hu
      have hne := slot_ne_of_index_ne h.slots hi hj hji
      intro heq
      obtain ⟨hkey, hid, -⟩ := filePath_inj (h.ids t ht) (h.ids u (List.mem_of_getElem? hj)) heq
      exact hne (Prod.ext hkey.symm hid.symm)

end FileState.Safe

/-! ## Steps -/

/-- A step of one transfer moves it to another phase with what it has received still in its file, or ends it, or is
the record of a file in its place. The first two touch the paths of the transfer alone. -/
theorem FileState.stepTransfer_cases (s : FileState) (i : Nat) {l : FileLabel} (hl : FileState.takes t.phase l = true) :
    (∃ fs' phase, Confined env node t s.fs fs' ∧
      (t.Intact env node s.fs → ({ t with phase } : Transfer).Intact env node fs') ∧
      s.stepTransfer env node i t l = { s with fs := fs' }.setPhase i t phase) ∨
    (∃ fs', Confined env node t s.fs fs' ∧ s.stepTransfer env node i t l = { s with fs := fs' }.drop i) ∨
    (∃ received turn uuid, t.phase = .renamed received ∧
      s.stepTransfer env node i t l = s.recordTransfer env node i t received turn uuid) := by
  cases l with
  | work a => simp [FileState.takes] at hl
  | offer remote turn offer => simp [FileState.takes] at hl
  | abort j => exact .inr (.inl ⟨s.fs, confined_refl t s.fs, rfl⟩)
  | create j =>
    refine .inl ⟨_, .receiving [] t.offer.fileSize.toNat, fun p hp _ => FileSystem.read_create_of_ne hp, fun _ => ?_, rfl⟩
    exact ⟨FileSystem.read_create_self, by simp⟩
  | chunk j bytes failsAfter =>
    cases hphase : t.phase with
    | receiving received remaining =>
      simp only [FileState.takes, hphase, decide_eq_true_eq] at hl
      simp only [FileState.stepTransfer, hphase]
      cases failsAfter with
      | none =>
        refine .inl ⟨_, .receiving (received ++ bytes) (remaining - bytes.length), confined_append t s.fs bytes,
          fun hint => ?_, rfl⟩
        simp only [Transfer.Intact, hphase] at hint
        refine ⟨?_, ?_⟩
        · show (s.fs.append (t.partPath env node) bytes).read (t.partPath env node) = _
          rw [FileSystem.read_append_self, hint.1, Option.map_some]
        · show (received ++ bytes).length + (remaining - bytes.length) = t.offer.fileSize.toNat
          rw [List.length_append]
          omega
      | some n => exact .inl ⟨_, .failed, confined_append t s.fs _, fun _ => trivial, rfl⟩
    | _ => simp [FileState.takes, hphase] at hl
  | streamFails j => exact .inl ⟨s.fs, .failed, confined_refl t s.fs, fun _ => trivial, rfl⟩
  | finish j =>
    cases hphase : t.phase with
    | receiving received remaining =>
      simp only [FileState.takes, hphase, decide_eq_true_eq] at hl
      simp only [FileState.stepTransfer, hphase]
      refine .inl ⟨s.fs, _, confined_refl t s.fs, fun hint => ?_, rfl⟩
      simp only [Transfer.Intact, hphase] at hint
      by_cases hsha : env.sha256Hex received = t.offer.sha256
      · rw [if_pos hsha]
        refine ⟨hint.1, ?_⟩
        show received.length = t.offer.fileSize.toNat
        omega
      · rw [if_neg hsha]
        trivial
    | _ => simp [FileState.takes, hphase] at hl
  | rename j fails =>
    cases hphase : t.phase with
    | verified received =>
      simp only [FileState.stepTransfer, hphase]
      split
      · exact .inl ⟨s.fs, .failed, confined_refl t s.fs, fun _ => trivial, rfl⟩
      · refine .inl ⟨_, .renamed received, fun p hp hq => FileSystem.read_rename_of_ne hp hq, fun hint => ?_, rfl⟩
        simp only [Transfer.Intact, hphase] at hint
        exact ⟨FileSystem.read_rename_to hint.1, hint.2⟩
    | _ => simp [FileState.takes, hphase] at hl
  | record j turn uuid =>
    cases hphase : t.phase with
    | renamed received => exact .inr (.inr ⟨received, turn, uuid, rfl, by simp only [FileState.stepTransfer, hphase]⟩)
    | _ => simp [FileState.takes, hphase] at hl
  | discard j fails =>
    refine .inr (.inl ⟨_, fun p hp hq => ?_, rfl⟩)
    cases fails with
    | true => rfl
    | false =>
      refine FileSystem.read_remove_of_ne ?_
      split
      exacts [hp, hq]

/-- A step of one transfer. -/
theorem FileState.Safe.stepTransfer (h : s.Safe env node) (hi : s.transfers[i]? = some t) {l : FileLabel}
    (hl : FileState.takes t.phase l = true) : (s.stepTransfer env node i t l).Safe env node := by
  rcases s.stepTransfer_cases i hl with ⟨fs', phase, hc, hint, hstep⟩ | ⟨fs', hc, hstep⟩ |
    ⟨received, turn, uuid, hphase, hstep⟩ <;> rw [hstep]
  · exact h.setPhase hi hc (hint (h.intact t (List.mem_of_getElem? hi)))
  · exact h.drop hi hc
  · simp only [FileState.recordTransfer]
    rcases (Call.addAttachment turn.disk turn.timestamp (t.attachment env node received turn.now)).run
      (exec env.toEnv) s.engine with ⟨err | u, engine⟩
    · exact (h.setEngine engine).setPhase hi (confined_refl t s.fs) trivial
    · exact h.record hi hphase _ turn.now

/-- An offer comes to paths of its own: no transfer under way has its id in its ticket, and no recorded attachment has
the path it is going to. -/
def FreshPaths (env : FileEnv) (node : FileNode) (s : FileState) : FileLabel → Prop
  | .offer _ _ offer => ∀ fileId ∈ normalizeFileId env offer.fileId,
    (env.sha256Hex (utf8 offer.ticketId), fileId) ∉ s.transfers.map (Transfer.slot env) ∧
    ∀ r ∈ s.recorded, r.localPath ≠ filePath env node offer.ticketId fileId ("_" ++ safeName offer.filename)
  | _ => True

instance (env : FileEnv) (node : FileNode) (s : FileState) (l : FileLabel) : Decidable (FreshPaths env node s l) := by
  cases l <;> unfold FreshPaths <;> infer_instance

/-- An accepted offer has a canonical id, and a size within the limit and within what the ticket has left. -/
theorem checkOffer_ok {engine : TicketEngine} {turn : Turn} {remote : PeerId} {offer : FileOfferWire} {fileId : String}
    (h : checkOffer env node engine turn remote offer = .ok fileId) :
    normalizeFileId env offer.fileId = some fileId ∧ offer.fileSize ≤ maxFileSize ∧
      saturatingAdd (storedBytes engine offer.ticketId) offer.fileSize ≤ maxTicketStorage := by
  unfold checkOffer at h
  cases hid : normalizeFileId env offer.fileId with
  | none => rw [hid] at h; cases h
  | some id =>
    rw [hid] at h
    cases hg : engine.state.getTicket offer.ticketId with
    | none => simp [hg] at h
    | some ticket =>
      simp only [hg] at h
      iterate 3 (split at h; · cases h)
      split at h
      · cases h
      · rename_i hsize
        split at h
        · cases h
        · rename_i hroom
          cases h
          exact ⟨rfl, UInt64.not_lt.1 hsize, UInt64.not_lt.1 hroom⟩

/-- A transfer that is accepted on paths of its own. -/
theorem FileState.Safe.accept (h : s.Safe env node) {remote : PeerId} {offer : FileOfferWire} {fileId : String}
    (hlen : fileId.toList.length = 32)
    (hslot : (env.sha256Hex (utf8 offer.ticketId), fileId) ∉ s.transfers.map (Transfer.slot env))
    (hpath : ∀ r ∈ s.recorded, r.localPath ≠ filePath env node offer.ticketId fileId ("_" ++ safeName offer.filename)) :
    ({ s with transfers := s.transfers ++ [⟨remote, offer, fileId, .accepted⟩] } : FileState).Safe env node := by
  have hmem : ∀ t ∈ s.transfers ++ [⟨remote, offer, fileId, .accepted⟩],
      t ∈ s.transfers ∨ t = ⟨remote, offer, fileId, .accepted⟩ := fun t ht => by simpa using ht
  refine ⟨fun t ht => ?_, ?_, fun t ht => ?_, h.kept, h.final, fun t ht r hr => ?_⟩
  · rcases hmem t ht with ht | rfl
    exacts [h.ids t ht, hlen]
  · simp only [List.map_append, List.map_singleton]
    refine List.nodup_append.2 ⟨h.slots, List.nodup_singleton _, fun a ha b hb hab => ?_⟩
    rw [List.mem_singleton] at hb
    have hba : (env.sha256Hex (utf8 offer.ticketId), fileId) = a := (hab.trans hb).symm
    exact hslot (hba ▸ ha)
  · rcases hmem t ht with ht | rfl
    exacts [h.intact t ht, trivial]
  · rcases hmem t ht with ht | rfl
    exacts [h.apart t ht r hr, hpath r hr]

/-- A step that names a transfer is one of the transfer in its place. -/
theorem FileState.step_transfer {l : FileLabel} (hl : FileState.transferOf l = some i) (hi : s.transfers[i]? = some t) :
    s.step env node l = s.stepTransfer env node i t l := by
  cases l with
  | work a => cases hl
  | offer remote turn offer => cases hl
  | _ => simp only [FileState.step, hl, hi]

/-- Everything a step can do: work of another task, an offer that is turned down or accepted, or the next step of a
transfer. -/
theorem FileState.step_cases (env : FileEnv) (node : FileNode) {l : FileLabel} (hl : s.enabled l = true) :
    (∃ a, l = .work a ∧ s.step env node l = { s with engine := (exec env.toEnv a s.engine).2 }) ∨
    s.step env node l = s ∨
    (∃ remote turn offer fileId, l = .offer remote turn offer ∧
      checkOffer env node s.engine turn remote offer = .ok fileId ∧
      s.step env node l = { s with transfers := s.transfers ++ [⟨remote, offer, fileId, .accepted⟩] }) ∨
    (∃ i t, s.transfers[i]? = some t ∧ FileState.takes t.phase l = true ∧
      s.step env node l = s.stepTransfer env node i t l) := by
  have htransfer : ∀ {i}, FileState.transferOf l = some i → (FileState.transferOf l).any
      (fun i => s.transfers[i]?.any fun t => FileState.takes t.phase l) = true →
      ∃ i t, s.transfers[i]? = some t ∧ FileState.takes t.phase l = true ∧
        s.step env node l = s.stepTransfer env node i t l := by
    intro i hi hany
    rw [hi, Option.any_some] at hany
    obtain ⟨t, ht, htakes⟩ := (Option.any_eq_true _ _).1 hany
    exact ⟨i, t, ht, htakes, FileState.step_transfer hi ht⟩
  cases l with
  | work a => exact .inl ⟨a, rfl, rfl⟩
  | offer remote turn offer =>
    cases hcheck : checkOffer env node s.engine turn remote offer with
    | error denial => exact .inr (.inl (by simp only [FileState.step, hcheck]))
    | ok fileId =>
      exact .inr (.inr (.inl ⟨remote, turn, offer, fileId, rfl, hcheck, by simp only [FileState.step, hcheck]⟩))
  | _ => exact .inr (.inr (.inr (htransfer rfl hl)))

theorem FileState.Safe.step (h : s.Safe env node) {l : FileLabel} (hl : s.enabled l = true)
    (hfresh : FreshPaths env node s l) : (s.step env node l).Safe env node := by
  rcases FileState.step_cases env node hl with ⟨a, rfl, hstep⟩ | hstep | ⟨remote, turn, offer, fileId, rfl, hcheck, hstep⟩ |
    ⟨i, t, ht, htakes, hstep⟩ <;> rw [hstep]
  · exact h.setEngine _
  · exact h
  · obtain ⟨hid, -⟩ := checkOffer_ok hcheck
    obtain ⟨hslot, hpath⟩ := hfresh fileId hid
    exact h.accept (length_normalizeFileId hid) hslot hpath
  · exact h.stepTransfer ht htakes

/-- Stored files match their records. In every run in which each offer comes to paths of its own, at every moment, the
file of each attachment the handler has recorded has the size and the hash of the record. -/
theorem stored_files_match (h : ((fileMachine env node).restrict (FreshPaths env node)).Reachable s) :
    FilesMatch env s := by
  have hsafe : s.Safe env node := by
    refine Machine.Reachable.invariant (fun s₀ h₀ => ?_) (fun s l hl hs => ?_) h
    · obtain ⟨htransfers, hrecorded⟩ := h₀
      constructor <;> simp [htransfers, hrecorded]
    · obtain ⟨hen, hfresh⟩ := hl
      exact hs.step hen hfresh
  rintro r hr x - ⟨-, hpath, hsize, hsha⟩
  rw [hpath, hsize, hsha]
  exact hsafe.kept r hr

namespace FileSample

/-- A digest that tells texts by their first byte. -/
def firstByte (bytes : List UInt8) : Vector UInt8 32 := Vector.replicate 32 (bytes.headD 0)

def fileId : String := hexEncode (List.replicate 16 5)

def storedPath : String := "data/" ++ hexEncode (firstByte (utf8 "T-aaaaaaaa")).toList ++ "/files/" ++ fileId ++ "_log.txt"

/-- A ticket of the peer `client`, and two files of one id and name with the notes of their receipt. -/
def fileTable : EventTable where
  bodies :=
    let added (byte : UInt8) : TicketEvent :=
      .attachmentAdded "T-aaaaaaaa" fileId "client" "log.txt" 1 (hexEncode (List.replicate 32 byte)) storedPath 100
    let received (uuid : String) : TicketEvent :=
      .customAudit "T-aaaaaaaa" uuid "ATTACHMENT_RECEIVED" "client" (some "Fichier reçu de client: log.txt") 100
    [⟨[], 10, 1, .ticket (.created "T-aaaaaaaa" "printer" "on fire" .high "client")⟩,
     ⟨[idAt 0], 100, 2, .ticket (added 1)⟩, ⟨[idAt 1], 100, 3, .ticket (received "u1")⟩,
     ⟨[idAt 2], 100, 4, .ticket (added 2)⟩, ⟨[idAt 3], 100, 5, .ticket (received "u2")⟩]

def fileEnv : FileEnv where
  toEnv := fileTable.env
  peerToString := fun peer => String.ofList (peer.bytes.map fun b => Char.ofNat b.toNat)
  certificateFromCbor := fun _ => none
  sha256 := firstByte
  parseUuid := fun _ => some (Vector.replicate 16 5)

def operatorNode : FileNode where
  localPeerId := "operator"
  authority := none
  filesBaseDir := "data"

def empty : FileState where
  engine := ((Reached.start fileTable).after (.createTicket "aaaaaaaa" 10 "printer" "on fire" .high "client")).engine
  fs := FileSystem.empty
  transfers := []
  recorded := []

def atHundred : Turn := ⟨100, 100, diskOk, fun _ => none, false⟩

/-- One byte is offered, comes, and is recorded. -/
def deliver (byte : UInt8) (uuid : String) : List FileLabel :=
  [.offer ⟨utf8 "client"⟩ atHundred ⟨"T-aaaaaaaa", "05", "log.txt", 1, hexEncode (List.replicate 32 byte), none⟩,
   .create 0, .chunk 0 [byte] none, .finish 0, .rename 0 false, .record 0 atHundred uuid]

def once : FileState := (fileMachine fileEnv operatorNode).after empty (deliver 1 "u1")

def twice : FileState := (fileMachine fileEnv operatorNode).after once (deliver 2 "u2")

/-- The client sends a second file under the id and the name of its first: the ticket keeps the record of the first,
and the file of the second is in its place. -/
theorem stored_file_replaced :
    (fileMachine fileEnv operatorNode).Reachable twice ∧
    (twice.engine.state.listAttachments "T-aaaaaaaa").map (fun x => (x.localPath, x.sha256)) =
      [(storedPath, hexEncode (List.replicate 32 1))] ∧
    twice.fs.read storedPath = some [2] ∧ ¬ FilesMatch fileEnv twice := by
  have hrun : (fileMachine fileEnv operatorNode).Reachable twice := by
    have hempty : (fileMachine fileEnv operatorNode).Reachable empty := .of_start ⟨rfl, rfl⟩
    exact (hempty.after (deliver 1 "u1") (by decide +kernel)).after (deliver 2 "u2") (by decide +kernel)
  -- the record of the first file is the one in the ticket
  obtain ⟨hlist, hread, hfirst⟩ :
      (twice.engine.state.listAttachments "T-aaaaaaaa").map (fun x => (x.localPath, x.sha256)) =
        [(storedPath, hexEncode (List.replicate 32 1))] ∧
      twice.fs.read storedPath = some [2] ∧
      ∃ r ∈ twice.recorded, ∃ x ∈ twice.engine.state.listAttachments r.ticketId,
        (x.id = r.id ∧ x.localPath = r.localPath ∧ x.sizeBytes = r.sizeBytes ∧ x.sha256 = r.sha256) ∧
        x.localPath = storedPath ∧ x.sha256 ≠ fileEnv.sha256Hex [2] := by decide +kernel
  refine ⟨hrun, hlist, hread, fun h => ?_⟩
  obtain ⟨r, hr, x, hx, hrec, hpath, hsha⟩ := hfirst
  obtain ⟨content, hc, -, hcs⟩ := h r hr x hx hrec
  rw [hpath, hread] at hc
  cases hc
  exact hsha hcs.symm

def pairPath (byte : UInt8) : String :=
  "data/" ++ hexEncode (firstByte (utf8 "T-aaaaaaaa")).toList ++ "/files/" ++ hexEncode (List.replicate 16 byte) ++ "_log.txt"

/-- A ticket of the peer `client`, and two files of different ids with the notes of their receipt. -/
def pairTable : EventTable where
  bodies :=
    let added (byte : UInt8) : TicketEvent :=
      .attachmentAdded "T-aaaaaaaa" (hexEncode (List.replicate 16 byte)) "client" "log.txt" 1
        (hexEncode (List.replicate 32 byte)) (pairPath byte) 100
    let received (uuid : String) : TicketEvent :=
      .customAudit "T-aaaaaaaa" uuid "ATTACHMENT_RECEIVED" "client" (some "Fichier reçu de client: log.txt") 100
    [⟨[], 10, 1, .ticket (.created "T-aaaaaaaa" "printer" "on fire" .high "client")⟩,
     ⟨[idAt 0], 100, 2, .ticket (added 1)⟩, ⟨[idAt 1], 100, 3, .ticket (received "u1")⟩,
     ⟨[idAt 2], 100, 4, .ticket (added 2)⟩, ⟨[idAt 3], 100, 5, .ticket (received "u2")⟩]

/-- The ids of files are told by their lengths. -/
def pairEnv : FileEnv :=
  { fileEnv with
    toEnv := pairTable.env
    parseUuid := fun text => some (Vector.replicate 16 text.toList.length.toUInt8) }

def pairEmpty : FileState :=
  { empty with
    engine := ((Reached.start pairTable).after (.createTicket "aaaaaaaa" 10 "printer" "on fire" .high "client")).engine }

/-- Two files come one after the other. -/
def pairLabels : List FileLabel :=
  let deliverAs (id : String) (byte : UInt8) (uuid : String) : List FileLabel :=
    [.offer ⟨utf8 "client"⟩ atHundred ⟨"T-aaaaaaaa", id, "log.txt", 1, hexEncode (List.replicate 32 byte), none⟩,
     .create 0, .chunk 0 [byte] none, .finish 0, .rename 0 false, .record 0 atHundred uuid]
  deliverAs "f" 1 "u1" ++ deliverAs "ff" 2 "u2"

def pair : FileState := (fileMachine pairEnv operatorNode).after pairEmpty pairLabels

/-- The theorem after the two deliveries. -/
theorem stored_files_match_pair :
    (pair.engine.state.listAttachments "T-aaaaaaaa").map AttachmentRecord.localPath = [pairPath 1, pairPath 2] ∧
    pair.fs.read (pairPath 1) = some [1] ∧ pair.fs.read (pairPath 2) = some [2] ∧ FilesMatch pairEnv pair := by
  obtain ⟨hlist, hfirst, hsecond⟩ :
      (pair.engine.state.listAttachments "T-aaaaaaaa").map AttachmentRecord.localPath = [pairPath 1, pairPath 2] ∧
      pair.fs.read (pairPath 1) = some [1] ∧ pair.fs.read (pairPath 2) = some [2] := by decide +kernel
  have hempty : ((fileMachine pairEnv operatorNode).restrict (FreshPaths pairEnv operatorNode)).Reachable pairEmpty :=
    .of_start ⟨rfl, rfl⟩
  have hpair : ((fileMachine pairEnv operatorNode).restrict (FreshPaths pairEnv operatorNode)).Reachable pair := by
    rw [pair, ← Machine.after_restrict (C := FreshPaths pairEnv operatorNode)]
    exact hempty.after pairLabels (by decide +kernel)
  exact ⟨hlist, hfirst, hsecond, stored_files_match hpair⟩

end FileSample

end Fortiq
