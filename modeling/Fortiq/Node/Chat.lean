/-
Chat messages from peers (`handle_chat` in `fortiq-p2p/src/node.rs`). The ticket is read twice: once for the authority
the sender has to show, and once for everything else, and other tasks work on the engine in between. A message that is
acknowledged has been stored, and its ticket has a message under its id from then on, whatever happens to the engine.
Its sender is the client of the ticket, or the ticket is the node's own and the sender showed an operator session; but
where the first reading does not find the ticket, or finds it in the hands of another client, no session is asked for.
-/
import Fortiq.Engine.Entries
import Fortiq.Node.Once
import Fortiq.Service.Requests

namespace Fortiq

open TicketEngine TicketReducer

/-! ## The answer to a message -/

section Answer

variable (net : NodeEnv) (turn : Turn) (localPeerId : String) (authority : Option AuthorityContext) (peer : PeerId)

/-- `is_ticket_counterparty`. -/
def isCounterparty (ticket : TicketRecord) : Bool :=
  ticket.clientPeerId = net.peerToString peer || ticket.clientPeerId = localPeerId

/-- The message shows an operator session that may write. -/
def chatProven (request : ChatMessageWire) : Bool :=
  match request.authority with
  | some proof =>
    match authority with
    | some authority =>
      verifyOperatorSessionProof net turn authority peer proof "chat" request.ticketId request.id request.createdAt
        (utf8 request.body) OperatorCapabilities.write
    | none => false
  | none => false

/-- A session is asked for where the ticket is the node's own. -/
def chatAuthorityValid (request : ChatMessageWire) : Option TicketRecord → Bool
  | some ticket => if ticket.clientPeerId = localPeerId then chatProven net turn authority peer request else true
  | none => true

/-- Why a message is refused, by the ticket as it is read the second time. -/
def chatObjection (authorityValid : Bool) : Option TicketRecord → Option String
  | some ticket =>
    if !isCounterparty net localPeerId peer ticket then some "PeerId non autorisé pour ce ticket"
    else if !authorityValid then some "Authority WRITE invalide"
    else if !ticket.state.permitsWork then some "Le ticket est fermé"
    else none
  | none => some "Ticket introuvable sur le poste distant"

/-- The message as it is stored. -/
def receivedMessage (request : ChatMessageWire) : ChatMessage where
  id := request.id
  ticketId := request.ticketId
  senderPeerId := net.peerToString peer
  body := request.body
  createdAt := request.createdAt
  deliveryState := "DELIVERED"

/-- The note of a message that is stored. -/
def receivedNote (uuid : String) (request : ChatMessageWire) : Call Unit :=
  let preview := String.ofList (request.body.toList.take 40)
  Call.recordEvent turn.disk uuid turn.timestamp request.ticketId "CHAT_MESSAGE_RECEIVED" (net.peerToString peer)
    (some (net.peerToString peer ++ ": " ++ preview))

/-- What is left once a message is stored. -/
def noteMessage (uuid : String) (request : ChatMessageWire) : Handler ChatAckWire := do
  let _ ← (receivedNote net turn peer uuid request).attempt
  return ⟨request.id, true, none⟩

/-- What is left once nothing stands against a message. -/
def storeMessage (uuid : String) (request : ChatMessageWire) : Handler ChatAckWire := do
  let r ← (Call.addChatMessage turn.disk turn.timestamp (receivedMessage net peer request)).attempt
  match r with
  | .error error => return ⟨request.id, false, some ("Échec de persistance du message: " ++ error.text)⟩
  | .ok () => noteMessage net turn peer uuid request

/-- What is left once the authority is known: the ticket is read again. -/
def decideMessage (uuid : String) (request : ChatMessageWire) (authorityValid : Bool) : Handler ChatAckWire := do
  let ticket ← lookupTicket request.ticketId
  match chatObjection net localPeerId peer authorityValid ticket with
  | some text => return ⟨request.id, false, some text⟩
  | none => storeMessage net turn peer uuid request

def handleChatRequest (uuid : String) (request : ChatMessageWire) : Handler ChatAckWire := do
  let ticket ← lookupTicket request.ticketId
  decideMessage net turn localPeerId peer uuid request (chatAuthorityValid net turn localPeerId authority peer request ticket)

end Answer

/-! ## The event loop among other tasks -/

/-- A message the event loop is at: the states it has read, and what is left to do. -/
structure ChatTask where
  peer : PeerId
  turn : Turn
  request : ChatMessageWire
  seen : List TicketStateStore
  rest : Handler ChatAckWire

/-- A message that is answered. -/
structure ChatAnswer where
  peer : PeerId
  turn : Turn
  request : ChatMessageWire
  seen : List TicketStateStore
  ack : ChatAckWire

structure ChatState where
  engine : TicketEngine
  handling : Option ChatTask
  answered : List ChatAnswer

inductive ChatLabel where
  /-- Another task runs a section of the engine. -/
  | work (a : Action)
  | deliver (peer : PeerId) (turn : Turn) (uuid : String) (request : ChatMessageWire)
  /-- The next section of the message at hand. -/
  | advance
  | answer

/-- The states read for a message, after a section. -/
def seenAfter (a : Action) (seen : List TicketStateStore) (st : TicketStateStore) : List TicketStateStore :=
  match a with
  | .readState => seen ++ [st]
  | _ => seen

namespace ChatState

variable (net : NodeEnv) (U : Set Event) (localPeerId : String) (authority : Option AuthorityContext)

/-- One section of a task; what it reads of the state is noted. -/
def advanceTask (s : ChatState) (task : ChatTask) (a : Action) (k : a.Ret → Handler ChatAckWire) : ChatState :=
  let r := exec net.toEnv a s.engine
  { s with engine := r.2, handling := some { task with seen := seenAfter a task.seen s.engine.state, rest := k r.1 } }

def step (s : ChatState) : ChatLabel → ChatState
  | .work a => { s with engine := (exec net.toEnv a s.engine).2 }
  | .deliver peer turn uuid request =>
    let rest := handleChatRequest net turn localPeerId authority peer uuid request
    { s with handling := some ⟨peer, turn, request, [], rest⟩ }
  | .advance =>
    match s.handling with
    | none => s
    | some task =>
      match task.rest with
      | .act a k => s.advanceTask net task a k
      | _ => s
  | .answer =>
    match s.handling with
    | none => s
    | some task =>
      match task.rest with
      | .ret ack =>
        { s with handling := none, answered := s.answered ++ [⟨task.peer, task.turn, task.request, task.seen, ack⟩] }
      | _ => s

/-- Messages are handled one after the other; the events of every section are in play. -/
def Enabled (s : ChatState) : ChatLabel → Prop
  | .work a => Admits net.toEnv U a s.engine
  | .deliver _ _ _ _ => s.handling.isNone
  | .advance =>
    match s.handling with
    | none => False
    | some task =>
      match task.rest with
      | .act a _ => Admits net.toEnv U a s.engine
      | _ => False
  | .answer =>
    match s.handling with
    | none => False
    | some task =>
      match task.rest with
      | .ret _ => True
      | _ => False

end ChatState

/-- A node that is sent chat messages, with any other work on its engine in between. -/
def chatMachine (net : NodeEnv) (U : Set Event) (localPeerId : String) (authority : Option AuthorityContext) :
    Machine ChatState ChatLabel where
  start := fun s => Reach net.toEnv U s.engine ∧ s.handling = none ∧ s.answered = []
  enabled := fun s l => s.Enabled net U l
  step := fun s l => s.step net localPeerId authority l

instance {net : NodeEnv} {U : Set Event} [DecidablePred (· ∈ U)] {localPeerId : String}
    {authority : Option AuthorityContext} (s : ChatState) (l : ChatLabel) :
    Decidable ((chatMachine net U localPeerId authority).enabled s l) := by
  show Decidable (s.Enabled net U l)
  obtain ⟨engine, handling, answered⟩ := s
  cases l with
  | work a => exact inferInstanceAs (Decidable (Admits net.toEnv U a engine))
  | deliver peer turn uuid request => exact inferInstanceAs (Decidable (handling.isNone = true))
  | advance | answer =>
    rcases handling with _ | ⟨peer, turn, request, seen, ack | err | ⟨a, k⟩⟩ <;> unfold ChatState.Enabled <;> infer_instance

/-! ## The sections of an answer -/

section Sections

variable (net : NodeEnv) (turn : Turn) (localPeerId : String) (authority : Option AuthorityContext) (peer : PeerId)
  (uuid : String) (request : ChatMessageWire)

/-- The event a message is stored with. -/
def messageEvent : TicketEvent :=
  .chatMessageAdded request.ticketId request.id (net.peerToString peer) request.body
    (Call.timestampOr request.createdAt turn.timestamp)

theorem handleChatRequest_eq : handleChatRequest net turn localPeerId authority peer uuid request =
    .act .readState fun st => decideMessage net turn localPeerId peer uuid request
      (chatAuthorityValid net turn localPeerId authority peer request (TicketStateStore.getTicket st request.ticketId)) :=
  rfl

theorem decideMessage_eq (authorityValid : Bool) : decideMessage net turn localPeerId peer uuid request authorityValid =
    .act .readState fun st =>
      match chatObjection net localPeerId peer authorityValid (TicketStateStore.getTicket st request.ticketId) with
      | some text => .ret ⟨request.id, false, some text⟩
      | none => storeMessage net turn peer uuid request :=
  rfl

theorem storeMessage_eq : ∃ k, storeMessage net turn peer uuid request =
      .act (.append (messageEvent net turn peer request) (Call.timestampOr request.createdAt turn.timestamp) turn.disk) k ∧
    (∀ x, k (.ok x) = noteMessage net turn peer uuid request) ∧ ∀ e, ∃ text, k (.error e) = .ret ⟨request.id, false, text⟩ :=
  ⟨_, rfl, fun _ => rfl, fun _ => ⟨_, rfl⟩⟩

theorem noteMessage_eq : ∃ te k, noteMessage net turn peer uuid request = .act (.append te turn.timestamp turn.disk) k ∧
    ∀ r, k r = .ret ⟨request.id, true, none⟩ :=
  ⟨_, _, rfl, fun r => by cases r <;> rfl⟩

end Sections

/-! ## The invariant -/

section Invariant

variable {net : NodeEnv} {U : Set Event} {localPeerId : String} {authority : Option AuthorityContext}
  {engine : TicketEngine} {peer : PeerId} {turn : Turn} {request : ChatMessageWire} {seen : List TicketStateStore}

/-- Nothing stood against the message in the two states that were read for it. -/
def ChatAccepted (net : NodeEnv) (localPeerId : String) (authority : Option AuthorityContext) (peer : PeerId)
    (turn : Turn) (request : ChatMessageWire) (seen : List TicketStateStore) : Prop :=
  ∃ first second, seen = [first, second] ∧ chatObjection net localPeerId peer
    (chatAuthorityValid net turn localPeerId authority peer request (first.getTicket request.ticketId))
    (second.getTicket request.ticketId) = none

/-- The ticket has a message under the id, and the graph the event of the message. -/
def MessageKept (net : NodeEnv) (engine : TicketEngine) (peer : PeerId) (turn : Turn) (request : ChatMessageWire) : Prop :=
  request.id ∈ (engine.state.listMessages request.ticketId).map ChatMessage.id ∧
    ∃ e ∈ engine.graph.events, e.payload = .ticket (messageEvent net turn peer request)

theorem MessageKept.exec (hU : IdealIds U) (h : Sound U engine) {l : List Event} (hl : Shows net.toEnv engine l)
    {a : Action} (ha : Admits net.toEnv U a engine) (hk : MessageKept net engine peer turn request) :
    MessageKept net (exec net.toEnv a engine).2 peer turn request := by
  obtain ⟨hid, e, he, hpayload⟩ := hk
  obtain ⟨l', hl', hsub⟩ := hl.exec hU h ha
  obtain ⟨x, hx, hxid⟩ := List.mem_map.1 hid
  obtain ⟨y, hy, hkey, -⟩ := hl.stays EntryKind.messages hl' hsub hx
  exact ⟨List.mem_map.2 ⟨y, hy, hkey.trans hxid⟩, e, (exec_sound hU a engine ha h).2 e he, hpayload⟩

/-- How far the answer to a message has come. -/
inductive ChatStage (net : NodeEnv) (localPeerId : String) (authority : Option AuthorityContext) (engine : TicketEngine)
    (peer : PeerId) (turn : Turn) (request : ChatMessageWire) : List TicketStateStore → Handler ChatAckWire → Prop
  | arrived (uuid : String) : ChatStage net localPeerId authority engine peer turn request []
      (handleChatRequest net turn localPeerId authority peer uuid request)
  | readOnce (uuid : String) (first : TicketStateStore) : ChatStage net localPeerId authority engine peer turn request [first]
      (decideMessage net turn localPeerId peer uuid request
        (chatAuthorityValid net turn localPeerId authority peer request (first.getTicket request.ticketId)))
  | storing (uuid : String) {seen : List TicketStateStore}
      (accepted : ChatAccepted net localPeerId authority peer turn request seen) :
      ChatStage net localPeerId authority engine peer turn request seen (storeMessage net turn peer uuid request)
  | noting (uuid : String) {seen : List TicketStateStore}
      (accepted : ChatAccepted net localPeerId authority peer turn request seen)
      (kept : MessageKept net engine peer turn request) :
      ChatStage net localPeerId authority engine peer turn request seen (noteMessage net turn peer uuid request)
  | finished {seen : List TicketStateStore} {ack : ChatAckWire}
      (success : ack.success = true →
        ChatAccepted net localPeerId authority peer turn request seen ∧ MessageKept net engine peer turn request) :
      ChatStage net localPeerId authority engine peer turn request seen (.ret ack)

/-- Other work leaves an answer where it is. -/
theorem ChatStage.work {engine' : TicketEngine} {rest : Handler ChatAckWire}
    (hmono : MessageKept net engine peer turn request → MessageKept net engine' peer turn request)
    (h : ChatStage net localPeerId authority engine peer turn request seen rest) :
    ChatStage net localPeerId authority engine' peer turn request seen rest := by
  cases h with
  | arrived uuid => exact .arrived uuid
  | readOnce uuid first => exact .readOnce uuid first
  | storing uuid accepted => exact .storing uuid accepted
  | noting uuid accepted kept => exact .noting uuid accepted (hmono kept)
  | finished success => exact .finished fun hs => (success hs).imp_right hmono

/-- What an answer that is done says. -/
theorem ChatStage.success {rest : Handler ChatAckWire} {ack : ChatAckWire}
    (h : ChatStage net localPeerId authority engine peer turn request seen rest) (hrest : rest = .ret ack)
    (hs : ack.success = true) :
    ChatAccepted net localPeerId authority peer turn request seen ∧ MessageKept net engine peer turn request := by
  cases h with
  | arrived uuid => rw [handleChatRequest_eq] at hrest; cases hrest
  | readOnce uuid first => rw [decideMessage_eq] at hrest; cases hrest
  | storing uuid accepted =>
    obtain ⟨k, heq, -⟩ := storeMessage_eq net turn peer uuid request
    rw [heq] at hrest
    cases hrest
  | noting uuid accepted kept =>
    obtain ⟨te, k, heq, -⟩ := noteMessage_eq net turn peer uuid request
    rw [heq] at hrest
    cases hrest
  | finished success =>
    cases hrest
    exact success hs

structure ChatInv (net : NodeEnv) (U : Set Event) (localPeerId : String) (authority : Option AuthorityContext)
    (s : ChatState) : Prop where
  sound : Sound U s.engine
  shows : ∃ l, Shows net.toEnv s.engine l
  stage : ∀ task, s.handling = some task →
    ChatStage net localPeerId authority s.engine task.peer task.turn task.request task.seen task.rest
  answers : ∀ x ∈ s.answered, x.ack.success = true →
    ChatAccepted net localPeerId authority x.peer x.turn x.request x.seen ∧ MessageKept net s.engine x.peer x.turn x.request

theorem ChatStage.advance {rest : Handler ChatAckWire} {a : Action} {k : a.Ret → Handler ChatAckWire}
    (h : ChatStage net localPeerId authority engine peer turn request seen rest) (hrest : rest = .act a k)
    (hmono : MessageKept net engine peer turn request →
      MessageKept net (exec net.toEnv a engine).2 peer turn request)
    (hlast : ∀ te ts disk x engine', a = .append te ts disk → appendTicketEvent net.toEnv te ts disk engine = (.ok x, engine') →
      ∃ e ∈ engine'.graph.events, e.payload = .ticket te) :
    ChatStage net localPeerId authority (exec net.toEnv a engine).2 peer turn request (seenAfter a seen engine.state)
      (k (exec net.toEnv a engine).1) := by
  cases h with
  | arrived uuid =>
    rw [handleChatRequest_eq] at hrest
    cases hrest
    exact .readOnce uuid engine.state
  | readOnce uuid first =>
    rw [decideMessage_eq] at hrest
    cases hrest
    show ChatStage _ _ _ engine _ _ _ [first, engine.state] (match chatObjection net localPeerId peer
        (chatAuthorityValid net turn localPeerId authority peer request (first.getTicket request.ticketId))
        (engine.state.getTicket request.ticketId) with
      | some text => .ret ⟨request.id, false, some text⟩
      | none => storeMessage net turn peer uuid request)
    split
    · exact .finished nofun
    · rename_i haccepted
      exact .storing uuid ⟨first, engine.state, rfl, haccepted⟩
  | storing uuid accepted =>
    obtain ⟨k', heq, hok, herror⟩ := storeMessage_eq net turn peer uuid request
    rw [heq] at hrest
    cases hrest
    show ChatStage _ _ _ (appendTicketEvent net.toEnv (messageEvent net turn peer request) _ turn.disk engine).2 _ _ _ seen
      (k' (appendTicketEvent net.toEnv (messageEvent net turn peer request) _ turn.disk engine).1)
    cases happ : appendTicketEvent net.toEnv (messageEvent net turn peer request)
        (Call.timestampOr request.createdAt turn.timestamp) turn.disk engine with
    | mk r engine' =>
      cases r with
      | error e =>
        obtain ⟨text, hret⟩ := herror e
        rw [hret]
        exact .finished nofun
      | ok x =>
        rw [hok x]
        exact .noting uuid accepted ⟨append_shows EntryKind.messages happ rfl, hlast _ _ _ x engine' rfl happ⟩
  | noting uuid accepted kept =>
    obtain ⟨te, k', heq, hret⟩ := noteMessage_eq net turn peer uuid request
    rw [heq] at hrest
    cases hrest
    rw [hret]
    exact .finished fun _ => ⟨accepted, hmono kept⟩
  | finished success => cases hrest

namespace ChatInv

variable {s : ChatState}

/-- A section of the engine, whoever runs it. -/
theorem exec (hU : IdealIds U) (h : ChatInv net U localPeerId authority s) {a : Action}
    (ha : Admits net.toEnv U a s.engine) :
    Sound U (TicketEngine.exec net.toEnv a s.engine).2 ∧ (∃ l, Shows net.toEnv (TicketEngine.exec net.toEnv a s.engine).2 l) ∧
      ∀ peer turn request, MessageKept net s.engine peer turn request →
        MessageKept net (TicketEngine.exec net.toEnv a s.engine).2 peer turn request := by
  obtain ⟨l, hl⟩ := h.shows
  obtain ⟨l', hl', -⟩ := hl.exec hU h.sound ha
  exact ⟨(exec_sound hU a s.engine ha h.sound).1, ⟨l', hl'⟩, fun _ _ _ hk => hk.exec hU h.sound hl ha⟩

theorem step (hU : IdealIds U) (h : ChatInv net U localPeerId authority s) {l : ChatLabel} (hl : s.Enabled net U l) :
    ChatInv net U localPeerId authority (s.step net localPeerId authority l) := by
  cases l with
  | work a =>
    obtain ⟨hsound, hshows, hmono⟩ := h.exec hU hl
    exact ⟨hsound, hshows, fun task ht => (h.stage task ht).work (hmono _ _ _),
      fun x hx hs => (h.answers x hx hs).imp_right (hmono _ _ _)⟩
  | deliver peer turn uuid request =>
    refine ⟨h.sound, h.shows, fun task ht => ?_, h.answers⟩
    cases ht
    exact .arrived uuid
  | advance =>
    simp only [ChatState.Enabled, ChatState.step] at hl ⊢
    cases hh : s.handling with
    | none => rw [hh] at hl; exact hl.elim
    | some task =>
      simp only [hh] at hl ⊢
      cases hrest : task.rest with
      | ret ack => rw [hrest] at hl; exact hl.elim
      | fail err => exact err.elim
      | act a k =>
        simp only [hrest] at hl ⊢
        obtain ⟨hsound, hshows, hmono⟩ := h.exec hU hl
        refine ⟨hsound, hshows, fun task' ht => ?_, fun x hx hs => (h.answers x hx hs).imp_right (hmono _ _ _)⟩
        cases ht
        refine (h.stage task hh).advance hrest (hmono _ _ _) ?_
        rintro te ts disk x engine' rfl happ
        exact h.sound.append_mem hU hl happ
  | answer =>
    simp only [ChatState.Enabled, ChatState.step] at hl ⊢
    cases hh : s.handling with
    | none => rw [hh] at hl; exact hl.elim
    | some task =>
      simp only [hh] at hl ⊢
      cases hrest : task.rest with
      | fail err => exact err.elim
      | act a k => rw [hrest] at hl; exact hl.elim
      | ret ack =>
        refine ⟨h.sound, h.shows, nofun, fun x hx hs => ?_⟩
        rcases List.mem_append.1 hx with hx | hx
        · exact h.answers x hx hs
        · obtain rfl := List.mem_singleton.1 hx
          exact (h.stage task hh).success hrest hs

theorem reachable (hU : IdealIds U) (hs : (chatMachine net U localPeerId authority).Reachable s) :
    ChatInv net U localPeerId authority s := by
  refine hs.invariant ?_ fun s l hl h => h.step hU hl
  rintro s ⟨hreach, hhandling, hanswered⟩
  refine ⟨hreach.sound hU, ⟨_, .of_synced (hreach.sound hU) (hreach.synced hU)⟩, ?_, ?_⟩
  · rw [hhandling]; nofun
  · rw [hanswered]; nofun

end ChatInv

/-- A message that is acknowledged stays: in every later state, and between any sections of other calls, its ticket has
a message under its id, and the graph has the event that says who sent it, what and when. -/
theorem acknowledged_stays (hU : IdealIds U) {s : ChatState} (hs : (chatMachine net U localPeerId authority).Reachable s)
    {x : ChatAnswer} (hx : x ∈ s.answered) (hack : x.ack.success = true) :
    x.request.id ∈ (s.engine.state.listMessages x.request.ticketId).map ChatMessage.id ∧
      ∃ e ∈ s.engine.graph.events, e.payload = .ticket (.chatMessageAdded x.request.ticketId x.request.id
        (net.peerToString x.peer) x.request.body (Call.timestampOr x.request.createdAt x.turn.timestamp)) :=
  ((ChatInv.reachable hU hs).answers x hx hack).2

/-- Nothing stands against a message only if its ticket is there and open to work, and its sender may write to it. -/
theorem chatObjection_none {authorityValid : Bool} {ticket : Option TicketRecord}
    (h : chatObjection net localPeerId peer authorityValid ticket = none) :
    ∃ record, ticket = some record ∧ isCounterparty net localPeerId peer record = true ∧ authorityValid = true ∧
      record.state.permitsWork = true := by
  unfold chatObjection at h
  cases ticket with
  | none => cases h
  | some record =>
    refine ⟨record, rfl, ?_⟩
    simp only at h
    split at h
    · cases h
    · split at h
      · cases h
      · split at h
        · cases h
        · simp_all

/-- Who may write. In every run an acknowledged message was about a ticket open to work as it was read last, and its
sender was the client of the ticket; or the ticket was the node's own and the sender showed an operator session with
the right to write. The exception is a first reading that did not find the ticket as the node's: then no session is asked for. -/
theorem acknowledged_sender (hU : IdealIds U) {s : ChatState} (hs : (chatMachine net U localPeerId authority).Reachable s)
    {x : ChatAnswer} (hx : x ∈ s.answered) (hack : x.ack.success = true) :
    ∃ first second record, x.seen = [first, second] ∧ second.getTicket x.request.ticketId = some record ∧
      record.state.permitsWork = true ∧
      (record.clientPeerId = net.peerToString x.peer ∨ record.clientPeerId = localPeerId) ∧
      (chatProven net x.turn authority x.peer x.request = true ∨
        ∀ found, first.getTicket x.request.ticketId = some found → found.clientPeerId ≠ localPeerId) := by
  obtain ⟨first, second, hseen, hnone⟩ := ((ChatInv.reachable hU hs).answers x hx hack).1
  obtain ⟨record, hrecord, hcounter, hvalid, hwork⟩ := chatObjection_none hnone
  refine ⟨first, second, record, hseen, hrecord, hwork, by simpa [isCounterparty] using hcounter, ?_⟩
  cases hproven : chatProven net x.turn authority x.peer x.request with
  | true => exact .inl rfl
  | false =>
    refine .inr fun found hfound hown => ?_
    rw [hfound, chatAuthorityValid, if_pos hown, hproven] at hvalid
    cases hvalid

end Invariant

/-! ## A sample: a message that overtakes its ticket -/

namespace ChatNodeSample

open OnceSample

/-- The ticket, a message about it, and the note of the message. -/
def raceTable : EventTable where
  bodies :=
    [⟨[], 10, 1, .ticket (.created "T-aaaaaaaa" "printer" "on fire" .high "home")⟩,
     ⟨[idAt 0], 50, 2, .ticket (.chatMessageAdded "T-aaaaaaaa" "MSG-1" "mallory" "hi" 50)⟩,
     ⟨[idAt 1], 100, 3, .ticket (.customAudit "T-aaaaaaaa" "u1" "CHAT_MESSAGE_RECEIVED" "mallory" (some "mallory: hi") 100)⟩]

def raceNet : NodeEnv := { onceNet with toEnv := raceTable.env }

def idle : ChatState := ⟨(Reached.start raceTable).engine, none, []⟩

def hi : ChatMessageWire := ⟨"MSG-1", "T-aaaaaaaa", "hi", 50, none⟩

/-- The ticket is created between the two readings. -/
def race : List ChatLabel :=
  [.deliver ⟨utf8 "mallory"⟩ atHundred "u1" hi, .advance,
   .work (.append (.created "T-aaaaaaaa" "printer" "on fire" .high "home") 10 diskOk),
   .advance, .advance, .advance, .answer]

def raced : ChatState := (chatMachine raceNet raceTable.inPlay "home" (some owner)).after idle race

theorem reachable_idle : (chatMachine raceNet raceTable.inPlay "home" (some owner)).Reachable idle :=
  .of_start ⟨Reached.reach _, rfl, rfl⟩

theorem reachable_raced : (chatMachine raceNet raceTable.inPlay "home" (some owner)).Reachable raced :=
  reachable_idle.after race (by decide +kernel)

/-- The message is acknowledged, and shows no session. -/
theorem answered_raced : ∃ x ∈ raced.answered, x.ack.success = true ∧ x.request.id = "MSG-1" ∧
    x.request.ticketId = "T-aaaaaaaa" ∧ chatProven raceNet x.turn (some owner) x.peer x.request = false := by
  have hmap : raced.answered.map (fun x => (x.ack.success, x.request.id, x.request.ticketId,
      chatProven raceNet x.turn (some owner) x.peer x.request)) = [(true, "MSG-1", "T-aaaaaaaa", false)] := by
    decide +kernel
  have hmem : (true, "MSG-1", "T-aaaaaaaa", false) ∈ raced.answered.map (fun x => (x.ack.success, x.request.id,
      x.request.ticketId, chatProven raceNet x.turn (some owner) x.peer x.request)) := by
    rw [hmap]
    exact List.mem_singleton_self _
  obtain ⟨x, hx, heq⟩ := List.mem_map.1 hmem
  simp only [Prod.mk.injEq] at heq
  exact ⟨x, hx, heq⟩

theorem acknowledged_stays_raced : "MSG-1" ∈ (raced.engine.state.listMessages "T-aaaaaaaa").map ChatMessage.id := by
  obtain ⟨x, hx, hack, hid, hticket, -⟩ := answered_raced
  have h := (acknowledged_stays raceTable.idealIds reachable_raced hx hack).1
  rwa [hid, hticket] at h

/-- The message came without a session, and yet it is in the node's own ticket: the first reading did not find it. -/
theorem acknowledged_sender_raced : ∃ x ∈ raced.answered, chatProven raceNet x.turn (some owner) x.peer x.request = false ∧
    ∃ first second record, x.seen = [first, second] ∧ second.getTicket "T-aaaaaaaa" = some record ∧
      record.state.permitsWork = true ∧
      ∀ found, first.getTicket "T-aaaaaaaa" = some found → found.clientPeerId ≠ "home" := by
  obtain ⟨x, hx, hack, -, hticket, hproven⟩ := answered_raced
  obtain ⟨first, second, record, hseen, hrecord, hwork, -, hcase⟩ :=
    acknowledged_sender raceTable.idealIds reachable_raced hx hack
  rw [hticket] at hrecord hcase
  rw [hproven] at hcase
  exact ⟨x, hx, hproven, first, second, record, hseen, hrecord, hwork, hcase.resolve_left (by decide)⟩

end ChatNodeSample

end Fortiq
