/-
The lines of the local interface. A request and its response are JSON texts, each on a line of its own
(`handle_client` in `fortiq-service/src/ipc_server.rs`, `send_command` in `fortiq-cli/src/ipc.rs`, `send_request` in
`fortiq-desktop/src/ipc.rs`). Every reader refuses a line over 64 KB, and no writer looks at the length of what it
writes; so a response comes through exactly if its line is within the limit. The parsers of `serde_json` are external.
-/
import Fortiq.Lib.JsonLine
import Fortiq.Object.Fields
import Fortiq.Service.Requests

namespace Fortiq

/-! ## JSON -/

/-- An enumeration with its tag and, unless the variant is empty, its content. -/
def tagged (variant : String) (payload : Option Json) : Json :=
  .obj (("type", .str variant) :: payload.toList.map fun json => ("payload", json))

def TicketPriority.asStr : TicketPriority → String
  | normal => "NORMAL"
  | high => "HIGH"
  | urgent => "URGENT"

section ToJson

def jsonOption {α : Type} (toJson : α → Json) : Option α → Json
  | none => .null
  | some a => toJson a

def jsonTime (n : UInt64) : Json := .num n.toNat

def TicketRecord.toJson (t : TicketRecord) : Json :=
  .obj [("id", .str t.id), ("title", .str t.title), ("description", .str t.description), ("state", .str t.state.asStr),
    ("priority", .str t.priority.asStr), ("client_peer_id", .str t.clientPeerId), ("revision", .num t.revision.toNat),
    ("created_at", jsonTime t.createdAt), ("updated_at", jsonTime t.updatedAt), ("closed_at", jsonOption jsonTime t.closedAt)]

def ChatMessage.toJson (m : ChatMessage) : Json :=
  .obj [("id", .str m.id), ("ticket_id", .str m.ticketId), ("sender_peer_id", .str m.senderPeerId), ("body", .str m.body),
    ("created_at", jsonTime m.createdAt), ("delivery_state", .str m.deliveryState)]

def AttachmentRecord.toJson (a : AttachmentRecord) : Json :=
  .obj [("id", .str a.id), ("ticket_id", .str a.ticketId), ("sender_peer_id", .str a.senderPeerId),
    ("filename", .str a.filename), ("size_bytes", .num a.sizeBytes.toNat), ("sha256", .str a.sha256),
    ("local_path", .str a.localPath), ("created_at", jsonTime a.createdAt), ("state", .str a.state)]

def ShellSessionRecord.toJson (s : ShellSessionRecord) : Json :=
  .obj [("id", .str s.id), ("ticket_id", .str s.ticketId), ("operator_peer_id", .str s.operatorPeerId),
    ("started_at", jsonTime s.startedAt), ("ended_at", jsonOption jsonTime s.endedAt), ("transport", .str s.transport),
    ("result", jsonOption .str s.result)]

def TicketEventRecord.toJson (e : TicketEventRecord) : Json :=
  .obj [("id", .str e.id), ("ticket_id", .str e.ticketId), ("kind", .str e.kind), ("actor_peer_id", .str e.actorPeerId),
    ("timestamp", jsonTime e.timestamp), ("metadata", jsonOption .str e.metadata)]

def TicketDetail.toJson (d : TicketDetail) : Json :=
  .obj [("ticket", d.ticket.toJson), ("messages", .arr (d.messages.map ChatMessage.toJson)),
    ("attachments", .arr (d.attachments.map AttachmentRecord.toJson)),
    ("shell_sessions", .arr (d.shellSessions.map ShellSessionRecord.toJson)),
    ("events", .arr (d.events.map TicketEventRecord.toJson))]

def PeerSummary.toJson (p : PeerSummary) : Json :=
  .obj [("peer_id", .str p.peerId), ("hostname", .str p.hostname), ("os", .str p.os), ("transport", .str p.transport),
    ("status", .str p.status), ("relay", .bool p.relay), ("rendezvous", .bool p.rendezvous)]

def Ticket.toJson (t : Ticket) : Json := .obj [("id", .str t.id), ("state", .str t.state.asStr)]

def DaemonStatus.toJson (s : DaemonStatus) : Json :=
  .obj [("product", .str s.product), ("version", .str s.version), ("peer_id", .str s.peerId),
    ("agent_state", .str s.agentState), ("active_ticket", jsonOption Ticket.toJson s.activeTicket),
    ("listen_addresses", .arr (s.listenAddresses.map .str)), ("is_operator_unlocked", .bool s.isOperatorUnlocked)]

def OperatorSessionStatus.toJson (s : OperatorSessionStatus) : Json :=
  .obj [("is_unlocked", .bool s.isUnlocked), ("owner_id", jsonOption .str s.ownerId),
    ("expires_at", jsonOption jsonTime s.expiresAt), ("capabilities", .arr (s.capabilities.map .str))]

def IpcRequest.toJson : IpcRequest → Json
  | getStatus => tagged "GetStatus" none
  | listPeers => tagged "ListPeers" none
  | listTickets stateFilter =>
    tagged "ListTickets" (some (.obj [("state_filter", jsonOption (fun s => .str s.asStr) stateFilter)]))
  | getTicket ticketId => tagged "GetTicket" (some (.obj [("ticket_id", .str ticketId)]))
  | createTicket title description priority =>
    tagged "CreateTicket" (some (.obj [("title", .str title), ("description", .str description),
      ("priority", .str priority.asStr)]))
  | updateTicketStatus ticketId state =>
    tagged "UpdateTicketStatus" (some (.obj [("ticket_id", .str ticketId), ("state", .str state.asStr)]))
  | sendChatMessage ticketId body => tagged "SendChatMessage" (some (.obj [("ticket_id", .str ticketId), ("body", .str body)]))
  | listMessages ticketId => tagged "ListMessages" (some (.obj [("ticket_id", .str ticketId)]))
  | sendFile ticketId stagedPath =>
    tagged "SendFile" (some (.obj [("ticket_id", .str ticketId), ("staged_path", .str stagedPath)]))
  | listAttachments ticketId => tagged "ListAttachments" (some (.obj [("ticket_id", .str ticketId)]))
  | listShellSessions ticketId => tagged "ListShellSessions" (some (.obj [("ticket_id", .str ticketId)]))
  | unlockOperator mnemonic => tagged "UnlockOperator" (some (.obj [("mnemonic", .str mnemonic)]))
  | lockOperator => tagged "LockOperator" none
  | getOperatorStatus => tagged "GetOperatorStatus" none

def IpcResponse.toJson : IpcResponse → Json
  | status s => tagged "Status" (some s.toJson)
  | peers ps => tagged "Peers" (some (.arr (ps.map PeerSummary.toJson)))
  | tickets ts => tagged "Tickets" (some (.arr (ts.map TicketRecord.toJson)))
  | ticketDetail d => tagged "TicketDetail" (some (jsonOption TicketDetail.toJson d))
  | ticketCreated t => tagged "TicketCreated" (some t.toJson)
  | ticketUpdated t => tagged "TicketUpdated" (some (jsonOption TicketRecord.toJson t))
  | messages ms => tagged "Messages" (some (.arr (ms.map ChatMessage.toJson)))
  | messageSent m => tagged "MessageSent" (some m.toJson)
  | attachments as => tagged "Attachments" (some (.arr (as.map AttachmentRecord.toJson)))
  | fileSent a => tagged "FileSent" (some a.toJson)
  | shellSessions ss => tagged "ShellSessions" (some (.arr (ss.map ShellSessionRecord.toJson)))
  | operatorStatus s => tagged "OperatorStatus" (some s.toJson)
  | success => tagged "Success" none
  | error text => tagged "Error" (some (.str text))

end ToJson

/-! ## Lines -/

def maxIpcLineBytes : Nat := 64 * 1024

/-- `serde_json::to_vec` and the line end after it. -/
def jsonLine (json : Json) : List UInt8 := utf8 (String.ofList json.print) ++ [10]

/-- `serde_json::from_str`, or the text of its error. -/
structure SerdeJson where
  request : String → Except String IpcRequest
  response : String → Except String IpcResponse

def fromUtf8 (bytes : List UInt8) : Option String := String.fromUTF8? ⟨bytes.toArray⟩

/-- `str::trim`. -/
def trim (text : String) : String := String.ofList ((text.toList.dropWhile isWhitespace).rdropWhile isWhitespace)

/-- The bytes `read_line` takes from a connection through `take(MAX_IPC_LINE_BYTES + 1)`. -/
def readLimited (input : List UInt8) : List UInt8 := firstLine 10 (input.take (maxIpcLineBytes + 1))

section Server

variable (serde : SerdeJson) (env : IpcEnv)

/-- `handle_client`: the lines of one connection, with a turn for each, to its end or to a line it refuses. The bytes it
writes, and the state it leaves. -/
def handleClient : List RequestTurn → IpcState → List UInt8 → List UInt8 × IpcState
  | [], s, _ => ([], s)
  | turn :: turns, s, input =>
    let line := readLimited input
    if line = [] then ([], s)
    else
      match fromUtf8 line with
      -- `read_line` fails, and the connection ends
      | none => ([], s)
      | some text =>
        if line.length > maxIpcLineBytes then
          (jsonLine (IpcResponse.error "Request exceeds maximum size limit (64 KB)").toJson, s)
        else if trim text = "" then handleClient turns s (input.drop line.length)
        else
          match serde.request (trim text) with
          | .ok request =>
            let outcome := s.processRequest env turn request
            let (later, s') := handleClient turns outcome.state (input.drop line.length)
            (jsonLine outcome.response.toJson ++ later, s')
          | .error err =>
            let (later, s') := handleClient turns s (input.drop line.length)
            (jsonLine (IpcResponse.error ("Malformed IPC request: " ++ err)).toJson ++ later, s')

end Server

/-! ## Clients -/

/-- How the line of a response fails to be read. -/
inductive LineFault where
  | invalidUtf8
  | closed
  | tooLarge
deriving DecidableEq, Repr

/-- The text of the line that answers a request, as both clients read it. -/
def readResponse (input : List UInt8) : Except LineFault String :=
  let line := readLimited input
  match fromUtf8 line with
  | none => .error .invalidUtf8
  | some text =>
    if line.length = 0 then .error .closed
    else if line.length > maxIpcLineBytes then .error .tooLarge
    else .ok (trim text)

section Clients

variable (serde : SerdeJson)

/-- `send_command` of the command line client on a connection: `serve` is what the service writes for what is written
to it. -/
def sendCommand (serve : List UInt8 → List UInt8) (request : IpcRequest) : Result IpcResponse :=
  match readResponse (serve (jsonLine request.toJson)) with
  | .error .invalidUtf8 => .error (.msg "stream did not contain valid UTF-8")
  | .error .closed => .error (.msg "FORTIQ service closed the IPC connection unexpectedly")
  | .error .tooLarge => .error (.msg "IPC response exceeded maximum limit (64 KB)")
  | .ok text =>
    Result.context ("Failed to parse daemon IPC response: " ++ text) ((serde.response text).mapError .msg)

inductive IpcClientError where
  | connectionClosed
  | responseTooLarge
  | serialization (text : String)
  | daemonError (text : String)
  | io (text : String)
deriving DecidableEq, Repr

/-- `send_request` of the desktop client. -/
def sendRequest (serve : List UInt8 → List UInt8) (request : IpcRequest) : Except IpcClientError IpcResponse :=
  match readResponse (serve (jsonLine request.toJson)) with
  | .error .invalidUtf8 => .error (.io "stream did not contain valid UTF-8")
  | .error .closed => .error .connectionClosed
  | .error .tooLarge => .error .responseTooLarge
  | .ok text =>
    match serde.response text with
    | .error err => .error (.serialization err)
    | .ok (.error text) => .error (.daemonError text)
    | .ok response => .ok response

end Clients

/-! ## What comes through -/

theorem utf8_append (s t : String) : utf8 (s ++ t) = utf8 s ++ utf8 t := by
  show (s ++ t).toByteArray.data.toList = _
  rw [String.toByteArray_append, ByteArray.data_append, Array.toList_append]
  rfl

theorem fromUtf8_utf8 (s : String) : fromUtf8 (utf8 s) = some s := by
  have h : (⟨(utf8 s).toArray⟩ : ByteArray) = s.toByteArray := by simp [utf8]
  rw [fromUtf8, h, String.fromUTF8?, dif_pos s.isValidUTF8]
  rfl

theorem length_jsonLine (json : Json) : (jsonLine json).length = Json.byteLength json.print + 1 := by
  simp [jsonLine, utf8_ofList, Json.byteLength]

/-- The text of an object has no white space around it. -/
theorem trim_print (fields : List (String × Json)) :
    trim (String.ofList (Json.obj fields).print ++ "\n") = String.ofList (Json.obj fields).print := by
  have hopen : isWhitespace '\x7b' = false := by decide
  have hclose : isWhitespace '\x7d' = false := by decide
  have hend : isWhitespace '\n' = true := by decide
  have hlist : (String.ofList (Json.obj fields).print ++ "\n").toList = (Json.obj fields).print ++ ['\n'] := by
    rw [String.toList_append, String.toList_ofList]
    rfl
  rw [trim, hlist, Json.print, List.cons_append, List.cons_append, List.dropWhile_cons_of_neg (by simp [hopen]),
    ← List.cons_append, List.rdropWhile_concat_pos _ _ _ hend, ← List.cons_append,
    List.rdropWhile_concat_neg _ _ _ (by simp [hclose])]

variable {json : Json}

theorem newline_not_mem_text (json : Json) : (10 : UInt8) ∉ utf8 (String.ofList json.print) := by
  rw [utf8_ofList]
  exact json.newline_not_mem_print

/-- A line within the limit is read whole. -/
theorem readLimited_jsonLine (h : (jsonLine json).length ≤ maxIpcLineBytes) (rest : List UInt8) :
    readLimited (jsonLine json ++ rest) = jsonLine json := by
  rw [jsonLine, List.length_append, List.length_singleton] at h
  rw [readLimited, jsonLine, List.append_assoc]
  exact firstLine_take (newline_not_mem_text json) rest _ (by omega)

/-- A longer line is cut one byte over the limit. -/
theorem length_readLimited (h : maxIpcLineBytes < (jsonLine json).length) (rest : List UInt8) :
    (readLimited (jsonLine json ++ rest)).length = maxIpcLineBytes + 1 := by
  rw [jsonLine, List.length_append, List.length_singleton] at h
  rcases Nat.lt_or_ge maxIpcLineBytes (utf8 (String.ofList json.print)).length with hlong | hshort
  · rw [readLimited, jsonLine, List.append_assoc]
    have hcut := firstLine_take_of_le (newline_not_mem_text json) rest _ hlong
    rw [List.singleton_append, hcut, List.length_take]
    omega
  · rw [readLimited, jsonLine, List.append_assoc]
    have hwhole := firstLine_take (newline_not_mem_text json) rest (maxIpcLineBytes + 1) (by omega)
    rw [List.singleton_append, hwhole, List.length_append, List.length_singleton]
    omega

theorem fromUtf8_jsonLine (json : Json) : fromUtf8 (jsonLine json) = some (String.ofList json.print ++ "\n") := by
  rw [← fromUtf8_utf8, utf8_append]
  rfl

theorem jsonLine_ne_nil (json : Json) : jsonLine json ≠ [] := by simp [jsonLine]

/-- The line of an object within the limit is read to its end, and trimmed to the text of the object. -/
theorem line_read {fields : List (String × Json)} (hobj : json = .obj fields)
    (hfit : (jsonLine json).length ≤ maxIpcLineBytes) :
    readLimited (jsonLine json) = jsonLine json ∧
    trim (String.ofList json.print ++ "\n") = String.ofList json.print := by
  have hread := readLimited_jsonLine hfit []
  rw [List.append_nil] at hread
  subst hobj
  exact ⟨hread, trim_print fields⟩

/-- Requests and responses are objects. -/
theorem IpcRequest.toJson_obj (request : IpcRequest) : ∃ fields, request.toJson = .obj fields := by
  cases request <;> exact ⟨_, rfl⟩

theorem IpcResponse.toJson_obj (response : IpcResponse) : ∃ fields, response.toJson = .obj fields := by
  cases response <;> exact ⟨_, rfl⟩

section Exchange

variable {serde : SerdeJson} {env : IpcEnv} {turn : RequestTurn} {s : IpcState} {request : IpcRequest}
  {response : IpcResponse} {serve : List UInt8 → List UInt8}

/-- The service answers a request within the limit by the line of its response. -/
theorem handleClient_request (hfit : (jsonLine request.toJson).length ≤ maxIpcLineBytes)
    (hserde : serde.request (String.ofList request.toJson.print) = .ok request) :
    (handleClient serde env [turn] s (jsonLine request.toJson)).1 =
      jsonLine (s.processRequest env turn request).response.toJson := by
  obtain ⟨fields, hobj⟩ := request.toJson_obj
  obtain ⟨hread, htext⟩ := line_read hobj hfit
  have hne : String.ofList request.toJson.print ≠ "" := by
    rw [hobj, Json.print]
    exact fun h => by simpa using congrArg String.toList h
  simp only [handleClient, hread, if_neg (jsonLine_ne_nil _), fromUtf8_jsonLine, if_neg (not_lt.2 hfit), htext,
    if_neg hne, hserde, List.append_nil]

/-- The line of a response is read exactly if it is within the limit. -/
theorem readResponse_fits (hfit : (jsonLine response.toJson).length ≤ maxIpcLineBytes) :
    readResponse (jsonLine response.toJson) = .ok (String.ofList response.toJson.print) := by
  obtain ⟨fields, hobj⟩ := response.toJson_obj
  obtain ⟨hread, htext⟩ := line_read hobj hfit
  have hlen : (jsonLine response.toJson).length ≠ 0 := by simp [jsonLine]
  simp only [readResponse, hread, fromUtf8_jsonLine, if_neg hlen, if_neg (not_lt.2 hfit), htext]

theorem readResponse_long (hlong : maxIpcLineBytes < (jsonLine response.toJson).length) :
    ∃ fault, readResponse (jsonLine response.toJson) = .error fault := by
  have hlen := length_readLimited hlong []
  rw [List.append_nil] at hlen
  cases htext : fromUtf8 (readLimited (jsonLine response.toJson)) with
  | none => exact ⟨.invalidUtf8, by simp only [readResponse, htext]⟩
  | some text =>
    have hne : (readLimited (jsonLine response.toJson)).length ≠ 0 := by omega
    have hgt : (readLimited (jsonLine response.toJson)).length > maxIpcLineBytes := by omega
    exact ⟨.tooLarge, by simp only [readResponse, htext, if_neg hne, if_pos hgt]⟩

/-- Neither client returns anything for a line over the limit. -/
theorem client_long (hserve : serve (jsonLine request.toJson) = jsonLine response.toJson)
    (hlong : maxIpcLineBytes < (jsonLine response.toJson).length) (r : IpcResponse) :
    sendCommand serde serve request ≠ .ok r ∧ sendRequest serde serve request ≠ .ok r := by
  obtain ⟨fault, hfault⟩ := readResponse_long hlong
  unfold sendCommand sendRequest
  rw [hserve, hfault]
  cases fault <;> exact ⟨nofun, nofun⟩

/-- IPC responses are readable by the clients: whatever the service answers to a request, the command line client
returns it exactly if its line is within the limit, and the desktop client exactly if moreover it is no error. -/
theorem response_read_iff (hfit : (jsonLine request.toJson).length ≤ maxIpcLineBytes)
    (hrequest : serde.request (String.ofList request.toJson.print) = .ok request)
    (hresponse : serde.response (String.ofList (s.processRequest env turn request).response.toJson.print) =
      .ok (s.processRequest env turn request).response) :
    (sendCommand serde (fun input => (handleClient serde env [turn] s input).1) request =
        .ok (s.processRequest env turn request).response ↔
      (jsonLine (s.processRequest env turn request).response.toJson).length ≤ maxIpcLineBytes) ∧
    (sendRequest serde (fun input => (handleClient serde env [turn] s input).1) request =
        .ok (s.processRequest env turn request).response ↔
      (jsonLine (s.processRequest env turn request).response.toJson).length ≤ maxIpcLineBytes ∧
        ∀ text, (s.processRequest env turn request).response ≠ .error text) := by
  have hserve : (fun input => (handleClient serde env [turn] s input).1) (jsonLine request.toJson) =
      jsonLine (s.processRequest env turn request).response.toJson := handleClient_request hfit hrequest
  generalize (fun input => (handleClient serde env [turn] s input).1) = serve at *
  generalize (s.processRequest env turn request).response = response at *
  rcases Nat.lt_or_ge maxIpcLineBytes (jsonLine response.toJson).length with hlong | hshort
  · obtain ⟨hcommand, hdesktop⟩ := @client_long serde request response serve hserve hlong response
    exact ⟨iff_of_false hcommand (by omega), iff_of_false hdesktop (by omega)⟩
  · have hread := readResponse_fits hshort
    refine ⟨iff_of_true ?_ hshort, ?_⟩
    · simp only [sendCommand, hserve, hread, hresponse]
      rfl
    · simp only [sendRequest, hserve, hread, hresponse]
      cases response <;> simp [hshort]

end Exchange

namespace LineSample

open TicketEngine

/-- The creation of a ticket of the client, with any description. -/
def created (description : String) : TicketEvent := .created "T-aaaaaaaa" "printer" description .high "client"

def record (description : String) : TicketRecord where
  id := "T-aaaaaaaa"
  title := "printer"
  description := description
  state := .«open»
  priority := .high
  clientPeerId := "client"
  revision := 1
  createdAt := 10
  updatedAt := 10
  closedAt := none

def body (description : String) : EventBody := ⟨[], 10, 1, .ticket (created description)⟩

/-- The environment of the ticket samples, on the one body. -/
def lineEnv (description : String) : IpcEnv where
  toEnv := Env.ofTable [body description]
  peerToString := IpcSample.deskEnv.peerToString
  certificateFromCbor := IpcSample.deskEnv.certificateFromCbor
  parsePeerId := IpcSample.deskEnv.parsePeerId
  version := "0.1.0"
  listenAddresses := []
  mnemonic := SessionSample.host.mnemonic
  certificateToCbor := fun _ => .error "unused"

/-- A service at its first start. -/
def service : IpcState where
  bootstrapPeer := none
  peerId := ⟨utf8 "client"⟩
  ticketStore := fresh alice ⟨none⟩
  p2p := false
  operator := OperatorState.new
  genesis := none

def turn : RequestTurn where
  toIpcTurn := { IpcSample.ipcTurn with uuid := "aaaaaaaa", timestamp := 10 }
  auditUuid := ""
  nonce := Vector.replicate 16 0
  sessionId := Vector.replicate 16 0
  peers := .timeout
  ack := .timeout
  imported := .error ""
  file := .timeout

def object : SignedObject := SignedObject.sign tagCrypto alice [] 10

def event (description : String) : Event := Event.ofBody object.id object.author (body description)

theorem draft_created (d : String) :
    draft (lineEnv d).toEnv (created d) 10 (fresh alice ⟨none⟩) = .ok (event d, object) := by
  have h : (lineEnv d).intoWriter ⟨[], 10, 1, .ticket (created d)⟩ = some [] := by
    show (Env.ofTable [body d]).intoWriter (body d) = some []
    simp [Env.ofTable, List.idxOf?, List.findIdx?_cons]
  show Event.new _ [] 10 1 _ alice = _
  simp only [Event.new, h]
  rfl

/-- The first ticket of the service is created, whatever its description. -/
theorem append_created (d : String) : ∃ engine,
    appendTicketEvent (lineEnv d).toEnv (created d) 10 diskOk (fresh alice ⟨none⟩) = (.ok (event d, object), engine) ∧
      engine.state.getTicket "T-aaaaaaaa" = some (record d) := by
  have hput : ((fresh alice ⟨none⟩).store.put tagCrypto diskOk object).1.isOk = true := by decide +kernel
  have hinsert : ((fresh alice ⟨none⟩).graph.insert (event d)).1 = .ok () := rfl
  have happly : (TicketReducer.applyEvent (lineEnv d).toEnv TicketStateStore.new (event d)).1 = .ok () := rfl
  have hget : (TicketReducer.step (lineEnv d).toEnv TicketStateStore.new (event d)).getTicket "T-aaaaaaaa" =
      some (record d) := rfl
  rcases append_cases (lineEnv d).toEnv (created d) 10 diskOk (fresh alice ⟨none⟩) with
    ⟨err, hd, -⟩ | ⟨e, obj, hd, hstage⟩
  · rw [draft_created] at hd
    cases hd
  · rw [draft_created] at hd
    cases hd
    rcases hstage with ⟨err, hp, -⟩ | ⟨store, -, ⟨err, hi, -⟩ | ⟨graph, -, he⟩⟩
    · have hp : (fresh alice ⟨none⟩).store.put tagCrypto diskOk object = _ := hp
      rw [hp] at hput
      cases hput
    · rw [hi] at hinsert
      cases hinsert
    · have hstate : (fresh alice ⟨none⟩).state = TicketStateStore.new := rfl
      rw [hstate, happly] at he
      exact ⟨_, he, hget⟩

def request (description : String) : IpcRequest := .createTicket "printer" description .high

theorem response_created (d : String) :
    (service.processRequest (lineEnv d) turn (request d)).response = .ticketCreated (record d) := by
  obtain ⟨engine, happend, hget⟩ := append_created d
  have hrun : (Call.createTicket diskOk "aaaaaaaa" 10 "printer" d .high "client").run (exec (lineEnv d).toEnv)
      (fresh alice ⟨none⟩) = (.ok (record d), engine) := by
    show (Call.appendTicketEvent (created d) 10 diskOk >>= fun _ => Call.getTicket "T-aaaaaaaa" >>=
      Prog.ofOption _).run _ _ = _
    rw [Prog.run_bind, run_appendTicketEvent, happend, Prog.andThen_ok, Prog.run_bind, run_getTicket, hget]
    rfl
  have hlocal : service.localPeerId (lineEnv d).toServiceEnv = "client" := by
    show IpcSample.deskEnv.peerToString ⟨utf8 "client"⟩ = "client"
    decide +kernel
  show (service.createTicket (lineEnv d).toServiceEnv turn.toIpcTurn "printer" d .high).response = _
  have hrun' : (Call.createTicket turn.disk turn.uuid turn.timestamp "printer" d .high "client").run
      (exec (lineEnv d).toEnv) service.ticketStore = (.ok (record d), engine) := hrun
  unfold IpcState.createTicket
  rw [hlocal, hrun']

/-- What the request says of the ticket. -/
def requestFields (d : String) : List (String × Json) :=
  [("title", .str "printer")] ++ ("description", .str d) :: [("priority", .str "HIGH")]

/-- What the response says of it. -/
def responseFields (d : String) : List (String × Json) :=
  [("id", .str "T-aaaaaaaa"), ("title", .str "printer")] ++ ("description", .str d) ::
    [("state", .str "OPEN"), ("priority", .str "HIGH"), ("client_peer_id", .str "client"), ("revision", .num 1),
      ("created_at", .num 10), ("updated_at", .num 10), ("closed_at", .null)]

/-- A tagged object is longer by the description than one without it. -/
theorem length_tagged {variant : String} {fields : String → List (String × Json)} {before after : List (String × Json)}
    (hfields : ∀ d, fields d = before ++ ("description", .str d) :: after) {n : Nat}
    (hn : Json.byteLength (tagged variant (some (.obj (fields "")))).print = n + 1) (d : String) :
    (jsonLine (tagged variant (some (.obj (fields d))))).length = n + Json.byteLength (Json.quoted d) := by
  have hempty : Json.byteLength (Json.quoted "") = 2 := by decide +kernel
  have hpayload := Json.byteLength_replace before after "description" (.str d) (.str "")
  have htagged := Json.byteLength_replace [("type", .str variant)] [] "payload" (.obj (fields d)) (.obj (fields ""))
  rw [← hfields, ← hfields, Json.print, Json.print] at hpayload
  have hn : Json.byteLength (Json.obj ([("type", .str variant)] ++ [("payload", .obj (fields ""))])).print = n + 1 := hn
  rw [length_jsonLine]
  show Json.byteLength (Json.obj ([("type", .str variant)] ++ [("payload", .obj (fields d))])).print + 1 = _
  omega

theorem length_request (d : String) : (jsonLine (request d).toJson).length = 87 + Json.byteLength (Json.quoted d) := by
  have hfields : ∀ d, requestFields d = _ ++ ("description", .str d) :: _ := fun _ => rfl
  exact length_tagged hfields (by decide +kernel) d

theorem length_response (d : String) :
    (jsonLine (IpcResponse.ticketCreated (record d)).toJson).length = 209 + Json.byteLength (Json.quoted d) := by
  have hfields : ∀ d, responseFields d = _ ++ ("description", .str d) :: _ := fun _ => rfl
  exact length_tagged hfields (by decide +kernel) d

/-- A description of a given length. -/
def description (n : Nat) : String := String.ofList (List.replicate n 'x')

theorem byteLength_description (n : Nat) : Json.byteLength (Json.quoted (description n)) = n + 2 := by
  have hx : Json.byteLength (Json.escape 'x') = 1 := by decide
  have hq : Char.utf8Size '\x22' = 1 := by decide
  have hbody : Json.byteLength ((List.replicate n 'x').flatMap Json.escape) = n := by
    induction n with
    | zero => rfl
    | succ n ih => rw [List.replicate_succ, List.flatMap_cons, Json.byteLength_append, hx, ih, Nat.add_comm]
  rw [Json.quoted, description, String.toList_ofList, List.cons_append, Json.byteLength_cons, Json.byteLength_append,
    Json.byteLength_cons, hbody, hq]
  show 1 + (n + (1 + 0)) = n + 2
  omega

/-- A client creates a ticket with a description of 65400 bytes. The line of its request is within the limit and the
ticket is created, but the line of the response is over the limit for both clients. -/
theorem created_ticket_unread :
    (serviceMachine (lineEnv (description 65400))).Reachable service ∧
    (jsonLine (request (description 65400)).toJson).length ≤ maxIpcLineBytes ∧
    (service.processRequest (lineEnv (description 65400)) turn (request (description 65400))).response =
      .ticketCreated (record (description 65400)) ∧
    ∀ serde : SerdeJson,
      serde.request (String.ofList (request (description 65400)).toJson.print) = .ok (request (description 65400)) →
      ∀ r,
        sendCommand serde (fun input => (handleClient serde (lineEnv (description 65400)) [turn] service input).1)
          (request (description 65400)) ≠ .ok r ∧
        sendRequest serde (fun input => (handleClient serde (lineEnv (description 65400)) [turn] service input).1)
          (request (description 65400)) ≠ .ok r := by
  have hreach : (serviceMachine (lineEnv (description 65400))).Reachable service := .of_start ⟨⟨alice, ⟨none⟩, rfl⟩, rfl⟩
  generalize hd : description 65400 = d at *
  have hlen : Json.byteLength (Json.quoted d) = 65402 := hd ▸ byteLength_description 65400
  have hfit : (jsonLine (request d).toJson).length ≤ maxIpcLineBytes := by
    rw [length_request, hlen]
    decide
  have hlong : maxIpcLineBytes < (jsonLine (IpcResponse.ticketCreated (record d)).toJson).length := by
    rw [length_response, hlen]
    decide
  refine ⟨hreach, hfit, response_created d, fun serde hserde r => client_long ?_ hlong r⟩
  rw [← response_created d]
  exact handleClient_request hfit hserde

/-- Parsers that know one request and its response. -/
def shortSerde : SerdeJson where
  request := fun _ => .ok (request "on fire")
  response := fun _ => .ok (.ticketCreated (record "on fire"))

/-- The theorem at a short description. -/
theorem response_read_iff_short :
    sendCommand shortSerde (fun input => (handleClient shortSerde (lineEnv "on fire") [turn] service input).1)
      (request "on fire") = .ok (.ticketCreated (record "on fire")) := by
  have hlen : Json.byteLength (Json.quoted "on fire") = 9 := by decide +kernel
  have hrequest : (jsonLine (request "on fire").toJson).length ≤ maxIpcLineBytes := by
    rw [length_request, hlen]
    decide
  have hcreated := response_created "on fire"
  have hserde : shortSerde.response (String.ofList
      (service.processRequest (lineEnv "on fire") turn (request "on fire")).response.toJson.print) =
      .ok (service.processRequest (lineEnv "on fire") turn (request "on fire")).response := by
    rw [hcreated]
    rfl
  have hread := (response_read_iff hrequest rfl hserde).1.2
  rw [hcreated] at hread
  refine hread ?_
  rw [length_response, hlen]
  decide

end LineSample

end Fortiq
