/-
The entries of a ticket: its messages, its attachments and the starts of its shell sessions. Each kind is a log under
ids of its own. A ticket shows, for each id, the entry of the first event that names it, in the order of the events and
from the creation of the ticket on. So an id that is shown stays shown, whatever events arrive and however the calls
that bring them are interleaved; the entry under it can only be replaced by that of an event which sorts before.
-/
import Fortiq.Engine.Replay
import Fortiq.Lib.FirstWins
import Fortiq.Reducer.Effect
import Mathlib.Data.List.TakeWhile

namespace Fortiq

open KeyOrder

/-! ## Kinds of entries -/

/-- A list of a ticket to which an event adds an entry, unless its id is there. -/
structure EntryKind (ε : Type) where
  entries : TicketAggregate → List ε
  key : ε → String
  entry : TicketEvent → Option ε
  effect : ∀ {env : Env} {e : Event} {a a' : TicketAggregate} {te : TicketEvent}, TicketReducer.Effect env e a te a' →
    entries a' = (entry te).elim (entries a) (FirstWins.add key (entries a))
  refused : ∀ {a : TicketAggregate} {te : TicketEvent}, TicketReducer.Refused a te → entry te = none
  created : ∀ e actor t title description priority client,
    entries (TicketReducer.create e actor t title description priority client) = []

namespace EntryKind

open TicketReducer

def messages : EntryKind ChatMessage where
  entries := TicketAggregate.messages
  key := ChatMessage.id
  entry
    | .chatMessageAdded t id sender body ts => some ⟨id, t, sender, body, ts, "DELIVERED"⟩
    | _ => none
  effect {_ _ _ _ te} h := by
    cases h with
    | idle hidle =>
      cases te with
      | chatMessageAdded => exact (if_pos hidle).symm
      | _ => rfl
    | message hnew => exact (if_neg hnew).symm
    | _ => rfl
  refused {_ te} h := by
    cases te with
    | chatMessageAdded => exact h.elim
    | _ => rfl
  created _ _ _ _ _ _ _ := rfl

def attachments : EntryKind AttachmentRecord where
  entries := TicketAggregate.attachments
  key := AttachmentRecord.id
  entry
    | .attachmentAdded t id sender file size sha path ts => some ⟨id, t, sender, file, size, sha, path, ts, "AVAILABLE"⟩
    | _ => none
  effect {_ _ _ _ te} h := by
    cases h with
    | idle hidle =>
      cases te with
      | attachmentAdded => exact (if_pos hidle).symm
      | _ => rfl
    | attachment hnew => exact (if_neg hnew).symm
    | _ => rfl
  refused {_ te} h := by
    cases te with
    | attachmentAdded => exact h.elim
    | _ => rfl
  created _ _ _ _ _ _ _ := rfl

/-- A session as it was started. -/
def atStart (y : ShellSessionRecord) : ShellSessionRecord := { y with endedAt := none, result := none }

theorem map_id_atStart (l : List ShellSessionRecord) :
    (l.map atStart).map ShellSessionRecord.id = l.map ShellSessionRecord.id := by
  rw [List.map_map]
  rfl

def sessions : EntryKind ShellSessionRecord where
  entries a := a.shellSessions.map atStart
  key := ShellSessionRecord.id
  entry
    | .shellSessionStarted t id operator transport ts => some ⟨id, t, operator, ts, none, transport, none⟩
    | _ => none
  effect {_ _ a _ te} h := by
    cases h with
    | idle hidle =>
      cases te with
      | shellSessionStarted => exact (if_pos (by rw [map_id_atStart]; exact hidle)).symm
      | _ => rfl
    | started hnew =>
      refine Eq.trans ?_ (if_neg (by rw [map_id_atStart]; exact hnew)).symm
      exact List.map_append
    | @ended t id ts result hmem =>
      have hkeep : ∀ y, atStart { y with endedAt := some ts, result := result } = atStart y := fun _ => rfl
      exact map_updateFirst (fun y => y.id = id) hkeep a.shellSessions
    | _ => rfl
  refused {_ te} h := by
    cases te with
    | shellSessionStarted => exact h.elim
    | _ => rfl
  created _ _ _ _ _ _ _ := rfl

variable {ε : Type} (kind : EntryKind ε) {env : Env}

/-- What a store shows of a ticket. -/
def shown (s : TicketStateStore) (t : String) : List ε := ((s.get t).map kind.entries).getD []

/-- The entry an event has for a ticket. -/
def ofEvent (t : String) (e : Event) : Option ε :=
  match e.payload with
  | .ticket te => if te.ticketId = t then kind.entry te else none
  | .custom _ _ => none

variable {kind} {s : TicketStateStore} {t : String} {e : Event}

theorem shown_absent (h : s.get t = none) : kind.shown s t = [] := by
  rw [shown, h]
  rfl

theorem shown_present {a : TicketAggregate} (h : s.get t = some a) : kind.shown s t = kind.entries a := by
  rw [shown, h]
  rfl

theorem ofEvent_ticket {te : TicketEvent} (hp : e.payload = .ticket te) : kind.ofEvent te.ticketId e = kind.entry te := by
  simp only [ofEvent, hp, if_pos]

theorem ofEvent_of_not_about (h : e.about t = false) : kind.ofEvent t e = none := by
  unfold ofEvent
  cases hp : e.payload with
  | custom => rfl
  | ticket te =>
    have hne : te.ticketId ≠ t := by
      rintro rfl
      simp [Event.about, Event.ticketId, hp] at h
    exact if_neg hne

theorem ofEvent_of_creates (h : e.creates t = true) : kind.ofEvent t e = none := by
  obtain ⟨te, hp, rfl⟩ := Event.payload_of_about (Event.about_of_creates h)
  rw [ofEvent_ticket hp]
  cases te with
  | created t title description priority client =>
    exact kind.refused (a := create e "" t title description priority client) trivial
  | _ => simp [Event.creates, Event.creation, hp] at h

/-- An event of a ticket that is there adds its entry. -/
theorem shown_step_present (h : (s.get t).isSome) :
    kind.shown (step env s e) t = (kind.ofEvent t e).elim (kind.shown s t) (FirstWins.add kind.key (kind.shown s t)) := by
  obtain ⟨a, ha⟩ := Option.isSome_iff_exists.1 h
  obtain ⟨a', ha', ⟨habout, rfl⟩ | ⟨te, hp, rfl, ⟨hrefused, rfl⟩ | heff⟩⟩ := @get_step_present env _ _ _ ha e
  · rw [shown_present ha', shown_present ha, ofEvent_of_not_about habout]
    rfl
  · rw [shown_present ha', shown_present ha, ofEvent_ticket hp, kind.refused hrefused]
    rfl
  · rw [shown_present ha', shown_present ha, ofEvent_ticket hp]
    exact kind.effect heff

/-- The first event of a ticket shows nothing. -/
theorem shown_step_absent (h : s.get t = none) : kind.shown (step env s e) t = [] := by
  obtain ⟨-, hnone⟩ | ⟨title, description, priority, client, -, hmade⟩ := @get_step_absent env _ _ h e
  · exact shown_absent hnone
  · rw [shown_present hmade]
    exact kind.created _ _ _ _ _ _ _

end EntryKind

/-! ## The log of a ticket -/

/-- From the creation of a ticket on. -/
def history (t : String) (l : List Event) : List Event := l.dropWhile fun e => !e.creates t

section History

variable {t : String} {l : List Event} {e : Event}

theorem history_eq_nil : history t l = [] ↔ ¬ ∃ e ∈ l, e.creates t = true := by
  simp [history, List.dropWhile_eq_nil_iff]

theorem history_append (h : ∃ e ∈ l, e.creates t = true) (m : List Event) : history t (l ++ m) = history t l ++ m := by
  rw [history, List.dropWhile_append, if_neg]
  · rfl
  · rw [List.isEmpty_iff]
    exact fun hnil => history_eq_nil.1 hnil h

theorem history_append_of_none (h : ¬ ∃ e ∈ l, e.creates t = true) (m : List Event) :
    history t (l ++ m) = history t m := by
  rw [history, List.dropWhile_append, if_pos]
  · rfl
  · rw [List.isEmpty_iff]
    exact history_eq_nil.2 h

/-- Fewer events, shorter history. -/
theorem mem_history_of_filter {p : Event → Bool} : ∀ {l : List Event}, e ∈ history t (l.filter p) → e ∈ history t l
  | [], h => h
  | a :: l, h => by
    by_cases hc : a.creates t = true
    · -- the creation is the first of all
      have hall : history t (a :: l) = a :: l := List.dropWhile_cons_of_neg (by simp [hc])
      rw [hall]
      exact (List.mem_filter.1 ((List.dropWhile_sublist _).mem h)).1
    · have hskip : history t (a :: l) = history t l := List.dropWhile_cons_of_pos (by simp [hc])
      rw [hskip]
      refine mem_history_of_filter (p := p) ?_
      by_cases hp : p a = true
      · rw [List.filter_cons_of_pos hp] at h
        rwa [history, List.dropWhile_cons_of_pos (by simp [hc])] at h
      · rwa [List.filter_cons_of_neg hp] at h

/-- With the first creation among them, the events of a kind have their part of the history. -/
theorem history_filter {p : Event → Bool} : ∀ {l : List Event},
    (∀ c, l.find? (Event.creates t) = some c → p c = true) → history t (l.filter p) = (history t l).filter p
  | [], _ => rfl
  | a :: l, h => by
    by_cases hc : a.creates t = true
    · have hp : p a = true := h a (List.find?_cons_of_pos hc)
      have hall : history t (a :: l) = a :: l := List.dropWhile_cons_of_neg (by simp [hc])
      rw [hall, List.filter_cons_of_pos hp]
      exact List.dropWhile_cons_of_neg (by simp [hc])
    · have hskip : ∀ m, history t (a :: m) = history t m := fun m => List.dropWhile_cons_of_pos (by simp [hc])
      have ih := history_filter (l := l) fun c hfind => h c (by rw [List.find?_cons_of_neg hc]; exact hfind)
      rw [hskip, ← ih]
      by_cases hp : p a = true
      · rw [List.filter_cons_of_pos hp, hskip]
      · rw [List.filter_cons_of_neg hp]

end History

namespace EntryKind

open TicketReducer

variable {ε : Type} (kind : EntryKind ε) {env : Env} {t : String}

/-- The entries of the events of a log, from the creation of the ticket on. -/
def log (t : String) (l : List Event) : List ε := (history t l).filterMap (kind.ofEvent t)

/-- A store shows the log, first come first kept. -/
theorem fold_shown (l : List Event) :
    kind.shown (fold env TicketStateStore.new l) t = FirstWins.collect kind.key (kind.log t l) := by
  induction l using List.reverseRecOn with
  | nil => rfl
  | append_singleton l e ih =>
    rw [fold_append]
    show kind.shown (step env (fold env TicketStateStore.new l) e) t = _
    unfold log at ih ⊢
    by_cases hc : ∃ c ∈ l, c.creates t = true
    · rw [shown_step_present ((fold_isSome t l).2 hc), ih, history_append hc, List.filterMap_append]
      cases hof : kind.ofEvent t e with
      | none => rw [List.filterMap_cons_none hof, List.filterMap_nil, List.append_nil]; rfl
      | some x =>
        rw [List.filterMap_cons_some hof, List.filterMap_nil, FirstWins.collect_append_singleton]
        rfl
    · have habsent : (fold env TicketStateStore.new l).get t = none := by
        rw [← Option.not_isSome_iff_eq_none, fold_isSome]
        exact hc
      rw [shown_step_absent habsent, history_append_of_none hc]
      -- all that may be left is the creation itself
      by_cases hce : e.creates t = true
      · rw [history, List.dropWhile_cons_of_neg (by simp [hce]), List.filterMap_cons_none (ofEvent_of_creates hce)]
        rfl
      · rw [history, List.dropWhile_cons_of_pos (by simp [hce])]
        rfl

variable (env t) in
/-- The entry shown under an id is that of the first event that has one for it. -/
theorem find_shown (l : List Event) (k : String) :
    (kind.shown (fold env TicketStateStore.new l) t).find? (fun x => kind.key x = k) =
      ((history t l).find? fun e => (kind.ofEvent t e).any fun x => kind.key x = k).bind (kind.ofEvent t) := by
  rw [fold_shown, FirstWins.find_collect, log, List.find?_filterMap]

variable {kind}

/-- What is shown of fewer events is shown of more under the same id; and it is the same entry, unless one of the
further events has the entry shown or creates the ticket. -/
theorem shown_filter {p : Event → Bool} {l : List Event} {x : ε}
    (hx : x ∈ kind.shown (fold env TicketStateStore.new (l.filter p)) t) :
    ∃ y ∈ kind.shown (fold env TicketStateStore.new l) t, kind.key y = kind.key x ∧
      (y = x ∨ ∃ e ∈ l, p e = false ∧ (kind.ofEvent t e = some y ∨ e.creates t = true)) := by
  have hfew : ∃ e ∈ history t (l.filter p), kind.ofEvent t e = some x := by
    rw [fold_shown, FirstWins.mem_collect_iff] at hx
    exact List.mem_filterMap.1 (List.mem_of_find?_eq_some hx)
  obtain ⟨e₀, he₀, hof₀⟩ := hfew
  -- the first event of all with an entry under the id
  have hsome : ((history t l).find? fun e => (kind.ofEvent t e).any fun y => kind.key y = kind.key x).isSome := by
    rw [List.find?_isSome]
    exact ⟨e₀, mem_history_of_filter he₀, by simp [hof₀]⟩
  obtain ⟨e, he⟩ := Option.isSome_iff_exists.1 hsome
  have hany := List.find?_some he
  obtain ⟨y, hof, hkey⟩ := (Option.any_eq_true _ _).1 hany
  have hkey : kind.key y = kind.key x := of_decide_eq_true hkey
  have hmem : e ∈ l := (List.dropWhile_sublist _).mem (List.mem_of_find?_eq_some he)
  have hy : (kind.shown (fold env TicketStateStore.new l) t).find? (fun z => kind.key z = kind.key x) = some y := by
    rw [find_shown kind, he, Option.bind_some, hof]
  refine ⟨y, List.mem_of_find?_eq_some hy, hkey, ?_⟩
  by_cases hpe : p e = true
  swap
  · exact .inr ⟨e, hmem, by simpa using hpe, .inl hof⟩
  by_cases hpc : ∀ c, l.find? (Event.creates t) = some c → p c = true
  swap
  · obtain ⟨c, hpc⟩ := not_forall.1 hpc
    obtain ⟨hfind, hpc⟩ := Classical.not_imp.1 hpc
    have hc := List.find?_some hfind
    exact .inr ⟨c, List.mem_of_find?_eq_some hfind, by simpa using hpc, .inr hc⟩
  -- the first event of all is the first of the few
  left
  have hfirst : ((history t l).filter p).find? (fun e => (kind.ofEvent t e).any fun y => kind.key y = kind.key x) = some e := by
    rw [List.find?_filter, List.find?_eq_some_iff_append]
    obtain ⟨hq, before, after, heq, hbefore⟩ := List.find?_eq_some_iff_append.1 he
    refine ⟨by simp [hpe, hq], before, after, heq, fun a ha => ?_⟩
    have := hbefore a ha
    simp_all
  have hsame := find_shown kind env t (l.filter p) (kind.key x)
  rw [history_filter hpc, hfirst, Option.bind_some, hof, fold_shown] at hsame
  rw [fold_shown, FirstWins.mem_collect_iff, ← FirstWins.find_collect, hsame] at hx
  exact Option.some.inj hx

end EntryKind

/-! ## Engines -/

namespace TicketEngine

open TicketReducer

variable {env : Env} {U : Set Event} {s s' : TicketEngine} {ε : Type} {t : String}

/-- In every reachable state the lists of a ticket are its log: the entries of the events in their order, from the
creation of the ticket on, each id once, with the entry of the first event that names it. -/
theorem lists_eq_log (hU : IdealIds U) (h : Reach env U s) (t : String) :
    s.state.listMessages t = FirstWins.collect ChatMessage.id (EntryKind.messages.log t s.graph.topologicalSort) ∧
    s.state.listAttachments t =
      FirstWins.collect AttachmentRecord.id (EntryKind.attachments.log t s.graph.topologicalSort) ∧
    (s.state.listShellSessions t).map EntryKind.atStart =
      FirstWins.collect ShellSessionRecord.id (EntryKind.sessions.log t s.graph.topologicalSort) := by
  have hstate : s.state = fold env TicketStateStore.new s.graph.topologicalSort := h.synced hU
  refine ⟨?_, ?_, ?_⟩
  · rw [hstate]
    exact EntryKind.messages.fold_shown _
  · rw [hstate]
    exact EntryKind.attachments.fold_shown _
  · have hmap : (s.state.listShellSessions t).map EntryKind.atStart = EntryKind.sessions.shown s.state t := by
      rw [TicketStateStore.listShellSessions, EntryKind.shown]
      cases s.state.get t <;> rfl
    rw [hmap, hstate]
    exact EntryKind.sessions.fold_shown _

/-- The state shows some of the events of the graph: all of them, unless a call that has inserted events has still
to replace the state. -/
structure Shows (env : Env) (s : TicketEngine) (l : List Event) : Prop where
  sub : ∀ e ∈ l, e ∈ s.graph.events
  keyed : (l.map Event.sortKey).Nodup
  state : s.state = replay env l

theorem Shows.of_synced (h : Sound U s) (hs : Synced env s) : Shows env s s.graph.events :=
  ⟨fun _ he => he, s.graph.nodup_sortKey, hs.trans h.reduce_eq⟩

/-- What is shown stays shown with more events. -/
theorem Shows.stays (kind : EntryKind ε) {l l' : List Event} (h : Shows env s l) (h' : Shows env s' l')
    (hsub : ∀ e ∈ l, e ∈ l') {x : ε} (hx : x ∈ kind.shown s.state t) :
    ∃ y ∈ kind.shown s'.state t, kind.key y = kind.key x ∧
      (y = x ∨ ∃ e ∈ l', e ∉ l ∧ (kind.ofEvent t e = some y ∨ e.creates t = true)) := by
  have hfew : keySort Event.sortKey l = (keySort Event.sortKey l').filter fun e => e ∈ l := by
    rw [← keySort_filter h'.keyed]
    refine keySort_congr h.keyed (h'.keyed.sublist (List.filter_sublist.map _)) fun e => ?_
    rw [List.mem_filter, decide_eq_true_eq]
    exact ⟨fun he => ⟨hsub e he, he⟩, And.right⟩
  have hstate : s.state = fold env TicketStateStore.new ((keySort Event.sortKey l').filter fun e => e ∈ l) := by
    rw [← hfew]
    exact h.state
  have hstate' : s'.state = fold env TicketStateStore.new (keySort Event.sortKey l') := h'.state
  rw [hstate] at hx
  obtain ⟨y, hy, hkey, hcases⟩ := EntryKind.shown_filter hx
  refine ⟨y, hstate' ▸ hy, hkey, hcases.imp_right fun ⟨e, he, hnew, hof⟩ => ⟨e, ?_, ?_, hof⟩⟩
  · rwa [mem_keySort] at he
  · exact of_decide_eq_false hnew

/-- Every section keeps showing what was shown. -/
theorem Shows.exec (hU : IdealIds U) (h : Sound U s) {l : List Event} (hl : Shows env s l) {a : Action}
    (ha : Admits env U a s) : ∃ l', Shows env (exec env a s).2 l' ∧ ∀ e ∈ l, e ∈ l' := by
  obtain ⟨hsound, hgrows⟩ := exec_sound hU a s ha h
  have hsub : ∀ e ∈ l, e ∈ (TicketEngine.exec env a s).2.graph.events := fun e he => hgrows e (hl.sub e he)
  have hsame : (TicketEngine.exec env a s).2.state = s.state →
      ∃ l', Shows env (TicketEngine.exec env a s).2 l' ∧ ∀ e ∈ l, e ∈ l' :=
    fun hst => ⟨l, ⟨hsub, hl.keyed, hst.trans hl.state⟩, fun _ he => he⟩
  cases a with
  | readState | readGraph | getObject _ _ | put _ _ | insertGraph _ => exact hsame rfl
  | ingest objects disk =>
    obtain ⟨⟨store', heq⟩, -⟩ := ingest_spec env disk objects 0 s
    refine hsame ?_
    show (objects.foldl (ingestObject env disk) (0, s)).2.state = s.state
    rw [heq]
  | replaceState => exact ⟨s.graph.events, .of_synced hsound rfl, hl.sub⟩
  | append te ts disk =>
    obtain ⟨-, hst⟩ | ⟨e, -, hev, hlast, hst⟩ := h.append_effect hU ha
    · exact hsame hst
    · have hlt : ∀ a ∈ l, a.sortKey < e.sortKey := fun a ha => hlast a (hl.sub a ha)
      refine ⟨l ++ [e], ⟨?_, ?_, ?_⟩, fun _ => List.mem_append_left _⟩
      · intro f hf
        show f ∈ (appendTicketEvent env te ts disk s).2.graph.events
        rw [hev]
        exact List.mem_append.2 ((List.mem_append.1 hf).imp_left (hl.sub f))
      · refine nodup_map_append_singleton hl.keyed fun hmem => ?_
        obtain ⟨a, ha, heq⟩ := List.mem_map.1 hmem
        exact (hlt a ha).ne heq
      · show (appendTicketEvent env te ts disk s).2.state = _
        rw [hst, hl.state]
        exact (Replay.replay_append_last hl.keyed hlt).symm

/-- An append that succeeds shows an entry under the id of its own. -/
theorem append_shows (kind : EntryKind ε) {te : TicketEvent} {ts : UInt64} {disk : Disk} {x : Event × SignedObject}
    (h : appendTicketEvent env te ts disk s = (.ok x, s')) {y : ε} (hy : kind.entry te = some y) :
    kind.key y ∈ (kind.shown s'.state te.ticketId).map kind.key := by
  obtain ⟨hp, -, happ, hstate⟩ := append_ok h
  have hsome : (s.state.get te.ticketId).isSome := by
    by_contra hnone
    rw [Option.not_isSome_iff_eq_none] at hnone
    obtain ⟨t, title, description, priority, client, rfl⟩ := (applicable_of_none hnone).1 happ
    have hcreated : kind.entry (.created t title description priority client) = none :=
      kind.refused (a := create x.1 "" t title description priority client) trivial
    rw [hcreated] at hy
    cases hy
  rw [hstate, EntryKind.shown_step_present hsome, EntryKind.ofEvent_ticket hp, hy]
  show kind.key y ∈ (FirstWins.add kind.key _ y).map kind.key
  unfold FirstWins.add
  split
  · assumption
  · simp

/-- An append that succeeds leaves its event in the graph. -/
theorem Sound.append_mem (hU : IdealIds U) (h : Sound U s) {te : TicketEvent} {ts : UInt64} {disk : Disk}
    {x : Event × SignedObject} (ha : Admits env U (.append te ts disk) s)
    (happ : appendTicketEvent env te ts disk s = (.ok x, s')) : ∃ e ∈ s'.graph.events, e.payload = .ticket te := by
  obtain ⟨err, -, he⟩ | ⟨e, obj, hd, ⟨err, -, he⟩ | ⟨store', -, ⟨err, -, he⟩ | ⟨g', hi, he⟩⟩⟩ := append_cases env te ts disk s
  · rw [he] at happ; cases happ
  · rw [he] at happ; cases happ
  · rw [he] at happ; cases happ
  · have heU : e ∈ U := ha e (by simp [events, hd, Except.toOption])
    obtain ⟨hev, -⟩ := h.append_last hU heU (draft_ok hd).1 hi
    have hgraph : s'.graph = g' := by
      rw [he] at happ
      exact congrArg TicketEngine.graph (Prod.mk.inj happ).2.symm
    exact ⟨e, by rw [hgraph, hev]; simp, (draft_ok hd).2.2.2.1⟩

/-- The sections of any calls, in any interleaving. -/
abbrev Sections (env : Env) (U : Set Event) : TicketEngine → TicketEngine → Prop :=
  Relation.ReflTransGen fun s s' => ∃ a, Admits env U a s ∧ s' = (exec env a s).2

/-- A call run alone is one of the interleavings. -/
theorem Step.sections (h : Step env U s s') : Sections env U s s' := by
  obtain ⟨disk, m, hadmitted, rfl⟩ := h
  exact (Prog.run_preserves (Admits env U) (I := fun _ => True) (R := Sections env U) (fun _ => .refl)
    (fun _ _ _ => .trans) (fun a s ha _ => ⟨trivial, .single ⟨a, ha, rfl⟩⟩) _ s hadmitted trivial).2

theorem Sections.shows (hU : IdealIds U) (hr : Sections env U s s') (h : Sound U s) {l : List Event}
    (hl : Shows env s l) : Sound U s' ∧ ∃ l', Shows env s' l' ∧ ∀ e ∈ l, e ∈ l' := by
  induction hr with
  | refl => exact ⟨h, l, hl, fun _ he => he⟩
  | tail _ hstep ih =>
    obtain ⟨hsound, l₁, hl₁, hsub₁⟩ := ih
    obtain ⟨a, ha, rfl⟩ := hstep
    obtain ⟨l₂, hl₂, hsub₂⟩ := hl₁.exec hU hsound ha
    exact ⟨(exec_sound hU a _ ha hsound).1, l₂, hl₂, fun e he => hsub₂ e (hsub₁ e he)⟩

/-- What a ticket shows under an id, it shows under this id after any sections of any calls, in whatever order they
take turns: the same entry, or one that came with a new event; and where the new event is not the entry's own, it
creates the ticket again. -/
theorem entry_stays (hU : IdealIds U) (h : Reach env U s) (hr : Sections env U s s') (kind : EntryKind ε) {x : ε}
    (hx : x ∈ kind.shown s.state t) :
    ∃ y ∈ kind.shown s'.state t, kind.key y = kind.key x ∧
      (y = x ∨ ∃ e ∈ s'.graph.events, e ∉ s.graph.events ∧ (kind.ofEvent t e = some y ∨ e.creates t = true)) := by
  have hl := Shows.of_synced (h.sound hU) (h.synced hU)
  obtain ⟨-, l', hl', hsub⟩ := hr.shows hU (h.sound hU) hl
  obtain ⟨y, hy, hkey, hcases⟩ := hl.stays kind hl' hsub hx
  exact ⟨y, hy, hkey, hcases.imp_right fun ⟨e, he, hnew, hof⟩ => ⟨e, hl'.sub e he, hnew, hof⟩⟩

section Sample

/-- A ticket with a message, and a back-dated message under the same id that sorts between the two. -/
def doubleTable : EventTable where
  bodies :=
    [⟨[], 10, 1, .ticket (.created "T-aaaaaaaa" "printer" "on fire" .high "alice")⟩,
     ⟨[idAt 0], 20, 2, .ticket (.chatMessageAdded "T-aaaaaaaa" "MSG-1" "alice" "hello" 20)⟩,
     ⟨[], 15, 1, .ticket (.chatMessageAdded "T-aaaaaaaa" "MSG-1" "mallory" "goodbye" 15)⟩]

def doubleSent : Reached doubleTable :=
  ((Reached.start doubleTable).after (.createTicket "aaaaaaaa" 10 "printer" "on fire" .high "alice")).after
    (.addChatMessage 20 ⟨"MSG-1", "T-aaaaaaaa", "alice", "hello", 20, "PENDING"⟩)

/-- The other message takes the place of the first. -/
def doubleTaken : Reached doubleTable := doubleSent.after (.applyRemoteObject (objectAt alice 2 15))

theorem lists_eq_log_doubleTaken :
    (doubleTaken.engine.state.listMessages "T-aaaaaaaa").map ChatMessage.body = ["goodbye"] ∧
    (FirstWins.collect ChatMessage.id
      (EntryKind.messages.log "T-aaaaaaaa" doubleTaken.engine.graph.topologicalSort)).map ChatMessage.body = ["goodbye"] := by
  have hbody : (doubleTaken.engine.state.listMessages "T-aaaaaaaa").map ChatMessage.body = ["goodbye"] := by decide +kernel
  have hlog := (lists_eq_log doubleTable.idealIds doubleTaken.reach "T-aaaaaaaa").1
  exact ⟨hbody, hlog ▸ hbody⟩

theorem entry_stays_doubleTaken :
    ∃ y ∈ EntryKind.messages.shown doubleTaken.engine.state "T-aaaaaaaa", y.id = "MSG-1" ∧
      (y = ⟨"MSG-1", "T-aaaaaaaa", "alice", "hello", 20, "DELIVERED"⟩ ∨
        ∃ e ∈ doubleTaken.engine.graph.events, e ∉ doubleSent.engine.graph.events ∧
          (EntryKind.messages.ofEvent "T-aaaaaaaa" e = some y ∨ e.creates "T-aaaaaaaa" = true)) := by
  have hx : (⟨"MSG-1", "T-aaaaaaaa", "alice", "hello", 20, "DELIVERED"⟩ : ChatMessage) ∈
      EntryKind.messages.shown doubleSent.engine.state "T-aaaaaaaa" := by decide +kernel
  have hstep := doubleSent.step_after (.applyRemoteObject (objectAt alice 2 15)) (by decide +kernel)
  exact entry_stays doubleTable.idealIds doubleSent.reach hstep.sections EntryKind.messages hx

end Sample

end TicketEngine

end Fortiq
