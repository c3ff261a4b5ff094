import FocusGuard.Lib.JsonPrefix
import FocusGuard.Service.ClientConnection
import FocusGuard.Service.PlainReplies

/-!
# Calls over the socket

`send_command` of `focusguard/cli/client.py` against `_handle_client` of
`focusguard/service/ipc_server.py`. Any number of connections are open at once, bytes move on them
in chunks of any size, and between any two moves the heartbeat may tick or the daemon be restarted.

## Main definitions

* `sendCommandResult`: what a call returns or raises.
* `WireStep`, `IpcStep`: what happens on one connection, and to the daemon with all of them.

## Main results

* `CallWaits.step`, `CallAnswered.step`: what a step on its connection does to a call.
* `remote_call_linearizes`: a call takes effect at one moment, and returns the reply of that moment.
-/

namespace FocusGuard

open IPCServer ClientConnection

variable (rt : Runtime) (fl : Floats)

/-! ## The client -/

/-- What an operation on a socket raises. -/
inductive SocketError where
  | timeout
  | osError

/-- How `send_command` fails. -/
inductive CallError where
  | daemonError (message : Json)
  | serviceNotRunning (message : Text)
  | socketError (e : SocketError)
  | attributeError
  /-- `UnicodeDecodeError` or `JSONDecodeError`. -/
  | undecodable

/-- The members of the request. -/
def callRequest (action : Text) (params : Json) : List (Text × Json) :=
  [("action", .str action), ("params", if params.truthy then params else .obj [])]

/-- What is sent for a call. -/
def callBytes (action : Text) (params : Json) : Bytes :=
  jsonLine fl (.obj (callRequest action params))

/-- How the socket of a call fares: which addresses accept it, and what is raised. -/
structure SocketEnv where
  hasUnix : Bool := true
  pathExists : Bool := true
  pathConnects : Bool := true
  userExists : Bool := false
  userConnects : Bool := false
  loopbackConnects : Bool := false
  sendError : Option SocketError := none
  /-- What `recv` raises where no chunk comes any more; `none` where the connection is closed. -/
  recvError : Option SocketError := none

def notRunning : CallError :=
  .serviceNotRunning (("Cannot connect to FocusGuard service.\n" : Text) ++
    ("Ensure the daemon is running:\n" : Text) ++
    ("  Linux (DietPi): sudo systemctl status focusguard\n" : Text) ++
    ("  Development:    focusguardd" : Text))

namespace SocketEnv

/-- `_connect()`: the socket path, the socket in the home directory, and the loopback port. -/
def connects (socket : SocketEnv) : Bool :=
  (socket.hasUnix && socket.pathExists && socket.pathConnects) ||
    (socket.hasUnix && socket.userExists && socket.userConnects) || socket.loopbackConnects

/-- The request can be sent. -/
def Works (socket : SocketEnv) : Prop := socket.connects = true ∧ socket.sendError = none

/-- What is raised by the socket itself. -/
def Raises (socket : SocketEnv) (e : CallError) : Prop :=
  (socket.connects = false ∧ e = notRunning) ∨
    ∃ x, e = .socketError x ∧ (socket.sendError = some x ∨ socket.recvError = some x)

end SocketEnv

/-- The buffer after the loop that receives the response, from what `recv` returns and how it
ends. -/
def recvResponse (recvError : Option SocketError) : List Bytes → Bytes → Except CallError Bytes
  | [], buffer =>
    match recvError with
    | none => .ok buffer
    | some e => .error (.socketError e)
  | chunk :: chunks, buffer =>
    if chunk = [] then .ok buffer
    else if newline ∈ buffer ++ chunk then .ok (buffer ++ chunk)
    else recvResponse recvError chunks (buffer ++ chunk)

/-- What a call makes of the reply. -/
def resultOf : Json → Except CallError Json
  | .obj reply =>
    if ((Json.lookup reply "ok").getD .null).truthy then
      .ok ((Json.lookup reply "result").getD .null)
    else .error (.daemonError ((Json.lookup reply "error").getD (.str "Unknown error")))
  | _ => .error .attributeError

def closedWithoutResponse : CallError :=
  .daemonError (.str "Daemon closed connection without returning response.")

def readResponse (buffer : Bytes) : Except CallError Json :=
  if buffer = [] then .error closedWithoutResponse
  else
    match (Bytes.decode (buffer.takeWhile (· ≠ newline))).bind (Json.loads fl) with
    | none => .error .undecodable
    | some reply => resultOf reply

/-- The result of `send_command`, from the chunks that `recv` returns. -/
def sendCommandResult (socket : SocketEnv) (chunks : List Bytes) : Except CallError Json :=
  if ¬ socket.connects then .error notRunning
  else
    match socket.sendError with
    | some e => .error (.socketError e)
    | none => do
      let buffer ← recvResponse socket.recvError chunks []
      readResponse fl buffer

section

variable {fl} {socket : SocketEnv} {recvError : Option SocketError} {chunks : List Bytes}
  {buffer later : Bytes} {reply : List (Text × Json)}

/-- What stands behind a line break is not in the first line. -/
theorem takeWhile_append_of_newline {data : Bytes} (h : newline ∈ data) (more : Bytes) :
    (data ++ more).takeWhile (· ≠ newline) = data.takeWhile (· ≠ newline) := by
  rw [List.takeWhile_append, if_neg]
  intro hlen
  have hall := List.takeWhile_eq_self_iff.mp ((List.takeWhile_prefix _).eq_of_length hlen)
  exact absurd (hall newline h) (by decide)

/-- The loop may stop early, but it has the whole line then; or it raises, and has no line yet. -/
theorem recvResponse_cases (recvError : Option SocketError)
    (hchunks : ∀ chunk ∈ chunks, chunk ≠ []) (hbuffer : newline ∉ buffer) :
    (∃ data, recvResponse recvError chunks buffer = .ok data ∧
      (data = [] ↔ buffer = [] ∧ chunks = []) ∧
      data.takeWhile (· ≠ newline) = (buffer ++ chunks.flatten).takeWhile (· ≠ newline)) ∨
    ∃ e, recvError = some e ∧ recvResponse recvError chunks buffer = .error (.socketError e) ∧
      newline ∉ buffer ++ chunks.flatten := by
  induction chunks generalizing buffer with
  | nil =>
    rw [List.flatten_nil, List.append_nil]
    cases recvError with
    | none => exact .inl ⟨buffer, rfl, by simp, rfl⟩
    | some e => exact .inr ⟨e, rfl, rfl, hbuffer⟩
  | cons chunk chunks ih =>
    obtain ⟨hchunk, hrest⟩ := List.forall_mem_cons.mp hchunks
    rw [recvResponse, if_neg hchunk, List.flatten_cons, ← List.append_assoc]
    split
    · next hline =>
      exact .inl ⟨_, rfl, by simp [hchunk], (takeWhile_append_of_newline hline _).symm⟩
    · next hline =>
      refine (ih hrest hline).imp_left fun ⟨data, hdata, hnil, htake⟩ =>
        ⟨data, hdata, hnil.trans ?_, htake⟩
      simp [hchunk]

/-- A call fails by its socket, before the line is there, or it reads the line as far as it came. -/
theorem sendCommandResult_cases (fl : Floats) (socket : SocketEnv)
    (hchunks : ∀ chunk ∈ chunks, chunk ≠ []) :
    ((∃ e, socket.Raises e ∧ sendCommandResult fl socket chunks = .error e) ∧
      (socket.Works → newline ∉ chunks.flatten)) ∨
    ∃ data, sendCommandResult fl socket chunks = readResponse fl data ∧ (data = [] ↔ chunks = []) ∧
      data.takeWhile (· ≠ newline) = chunks.flatten.takeWhile (· ≠ newline) := by
  unfold sendCommandResult
  cases hconnects : socket.connects with
  | false =>
    rw [if_pos Bool.false_ne_true]
    exact .inl ⟨⟨_, .inl ⟨hconnects, rfl⟩, rfl⟩,
      fun hworks => absurd (hconnects.symm.trans hworks.1) Bool.false_ne_true⟩
  | true =>
    rw [if_neg (not_not.mpr rfl)]
    cases hsend : socket.sendError with
    | some e =>
      refine .inl ⟨⟨_, .inr ⟨e, rfl, .inl hsend⟩, rfl⟩, fun hworks => ?_⟩
      cases hsend.symm.trans hworks.2
    | none =>
      rcases recvResponse_cases socket.recvError hchunks
          (List.not_mem_nil (a := newline)) with
        ⟨data, hdata, hnil, htake⟩ | ⟨e, hraises, hdata, hline⟩
      · exact .inr ⟨data, by rw [hdata]; rfl, by simpa using hnil, htake⟩
      · exact .inl ⟨⟨_, .inr ⟨e, rfl, .inr hraises⟩, by rw [hdata]; rfl⟩, fun _ => hline⟩

/-- How a call that gets no response, or a part of one, may fail. -/
def FailsOnWire (socket : SocketEnv) (result : Except CallError Json) : Prop :=
  result = .error closedWithoutResponse ∨ ∃ e, socket.Raises e ∧ result = .error e

theorem FailsOnWire.error {result : Except CallError Json} (h : FailsOnWire socket result) :
    ∃ e, result = .error e := by
  rcases h with h | ⟨e, -, h⟩
  · exact ⟨_, h⟩
  · exact ⟨e, h⟩

/-- From a reply that may have been cut off, a call makes what the reply says, or it fails. -/
theorem sendCommandResult_of_reply (socket : SocketEnv) (hplain : (Json.obj reply).Plain)
    (hchunks : ∀ chunk ∈ chunks, chunk ≠ [])
    (hreply : chunks.flatten ++ later = jsonLine fl (.obj reply)) :
    sendCommandResult fl socket chunks = resultOf (.obj reply) ∨
      (socket.Works → newline ∉ chunks.flatten) ∧
        (FailsOnWire socket (sendCommandResult fl socket chunks) ∨
          sendCommandResult fl socket chunks = .error .undecodable) := by
  have hbody := newline_notMem_dumps fl (.obj reply)
  rcases sendCommandResult_cases fl socket hchunks with
    ⟨hraises, hline⟩ | ⟨data, hdata, hnil, hline⟩
  · exact .inr ⟨hline, .inl (.inr hraises)⟩
  by_cases hempty : chunks = []
  · subst hempty
    obtain rfl := hnil.mpr rfl
    exact .inr ⟨fun _ => List.not_mem_nil, .inl (.inl hdata)⟩
  have hresult : sendCommandResult fl socket chunks =
      match (Bytes.decode (chunks.flatten.takeWhile (· ≠ newline))).bind (Json.loads fl) with
      | none => .error .undecodable
      | some reply => resultOf reply := by
    rw [hdata, readResponse, if_neg (mt hnil.mp hempty), hline]
  have hwhole : chunks.flatten.takeWhile (· ≠ newline) = (Json.dumps fl (.obj reply)).encode →
      sendCommandResult fl socket chunks = resultOf (.obj reply) := by
    intro htake
    rw [hresult, htake, Bytes.decode_encode, Option.bind_some, Json.loads_dumps fl hplain]
  have hfree : ∀ {data : Bytes}, newline ∉ data → data.takeWhile (· ≠ newline) = data := by
    intro data hdata
    refine List.takeWhile_eq_self_iff.mpr fun b hb => ?_
    simpa using ne_of_mem_of_not_mem hb hdata
  rcases List.append_eq_append_iff.mp hreply with ⟨cut, hcut, -⟩ | ⟨cut, hcut, hlater⟩
  · have hnone : newline ∉ chunks.flatten := by
      rw [hcut] at hbody
      exact fun h => hbody (List.mem_append_left cut h)
    by_cases hend : cut = []
    · rw [hend, List.append_nil] at hcut
      exact .inl (hwhole ((hfree hnone).trans hcut.symm))
    · refine .inr ⟨fun _ => hnone, .inr ?_⟩
      rw [hresult, hfree hnone, Json.decode_of_cut hplain hcut hend]
  · refine .inl (hwhole ?_)
    have hrest : cut.takeWhile (· ≠ newline) = [] := by
      rcases List.append_eq_singleton_iff.mp hlater.symm with ⟨rfl, -⟩ | ⟨rfl, -⟩
      · rfl
      · rfl
    rw [hcut, List.takeWhile_append, hfree hbody, if_pos rfl, hrest, List.append_nil]

end

/-! ## Connections -/

inductive WireMode where
  | unconnected
  | serving
  | streaming
  | closed
  deriving DecidableEq

/-- A connection: what is on its way, what the server has not read, and what the server does. -/
structure Wire where
  toServer : Bytes := []
  /-- The client has closed its side. -/
  ended : Bool := false
  unread : Bytes := []
  toClient : Bytes := []
  mode : WireMode := .unconnected

namespace Wire

/-- `await reader.readline()`, and what stays unread: a line, or what stands before the end. -/
def readline (w : Wire) : Option (Bytes × Bytes) :=
  match Lines.takeLine newline w.unread with
  | some (line, rest) => some (line ++ [newline], rest)
  | none => if w.ended ∧ w.toServer = [] ∧ w.unread ≠ [] then some (w.unread, []) else none

/-- What is left of a connection when the server is restarted. -/
def lost (w : Wire) : Wire :=
  if w.mode = .unconnected then w else { w with toServer := [], unread := [], mode := .closed }

end Wire

inductive WireEvent where
  | connects
  | sends (data : Bytes)
  | ends
  | arrives (chunk : Bytes)
  | serves (env : RequestEnv) (request : Json)
  | refuses (message : Text)
  | streams
  /-- The handler of a stream writes. -/
  | writes (data : Bytes)
  /-- The loop is left: the client is gone, the line is too long, or something is raised. -/
  | hangsUp
  | delivers (chunk : Bytes)

/-- The request is for a stream. -/
def StreamAction (action : Option Text) : Prop :=
  action = some "monitor".toList ∨ action = some "packet_monitor".toList

instance : DecidablePred StreamAction := fun _ => inferInstanceAs (Decidable (_ ∨ _))

/-- One step on a connection, with the daemon; `loads` is that of the server. -/
inductive WireStep (loads : Bytes → Except Text Json) :
    Daemon × Wire → WireEvent → Daemon × Wire → Prop where
  | connects {d : Daemon} {w : Wire} : w.mode = .unconnected →
      WireStep loads (d, w) .connects (d, { w with mode := .serving })
  | sends {d : Daemon} {w : Wire} {data : Bytes} : w.mode ≠ .unconnected → w.ended = false →
      WireStep loads (d, w) (.sends data) (d, { w with toServer := w.toServer ++ data })
  | ends {d : Daemon} {w : Wire} : WireStep loads (d, w) .ends (d, { w with ended := true })
  | arrives {d : Daemon} {w : Wire} {chunk rest : Bytes} : w.toServer = chunk ++ rest →
      WireStep loads (d, w) (.arrives chunk)
        (d, { w with toServer := rest, unread := w.unread ++ chunk })
  | serves {d d' : Daemon} {w : Wire} {line rest : Bytes} {request : List (Text × Json)}
      {env : RequestEnv} {reply : Json} : w.mode = .serving → w.readline = some (line, rest) →
      loads line = .ok (.obj request) → ¬ StreamAction (actionOf request) →
      handleRequest rt env (.obj request) d = (.ok reply, d') →
      WireStep loads (d, w) (.serves env (.obj request))
        (d', { w with unread := rest, toClient := w.toClient ++ jsonLine fl reply })
  | refuses {d : Daemon} {w : Wire} {line rest : Bytes} {message : Text} : w.mode = .serving →
      w.readline = some (line, rest) → loads line = .error message →
      WireStep loads (d, w) (.refuses message)
        (d, { w with unread := rest, toClient := w.toClient ++ jsonLine fl (invalidJson message) })
  | streams {d : Daemon} {w : Wire} {line rest : Bytes} {request : List (Text × Json)} :
      w.mode = .serving → w.readline = some (line, rest) →
      loads line = .ok (.obj request) → StreamAction (actionOf request) →
      WireStep loads (d, w) .streams (d, { w with unread := rest, mode := .streaming })
  | writes {d : Daemon} {w : Wire} {data : Bytes} : w.mode = .streaming →
      WireStep loads (d, w) (.writes data) (d, { w with toClient := w.toClient ++ data })
  | hangsUp {d : Daemon} {w : Wire} : w.mode ≠ .unconnected →
      WireStep loads (d, w) .hangsUp (d, { w with mode := .closed })
  | delivers {d : Daemon} {w : Wire} {chunk rest : Bytes} : chunk ≠ [] →
      w.toClient = chunk ++ rest →
      WireStep loads (d, w) (.delivers chunk) (d, { w with toClient := rest })

/-- The daemon and the connections of its clients. -/
structure IpcSystem (C : Type) where
  daemon : Daemon
  wires : C → Wire

inductive IpcEvent (C : Type) where
  | onWire (c : C) (ev : WireEvent)
  | tick (env : CallEnv)
  | restart (env : CallEnv)

section

variable {C : Type} [DecidableEq C]

inductive IpcStep (loads : Bytes → Except Text Json) :
    IpcSystem C → IpcEvent C → IpcSystem C → Prop where
  | onWire {s : IpcSystem C} {c : C} {ev : WireEvent} {d : Daemon} {w : Wire} :
      WireStep rt fl loads (s.daemon, s.wires c) ev (d, w) →
      IpcStep loads s (.onWire c ev) ⟨d, Function.update s.wires c w⟩
  | tick {s : IpcSystem C} {env : CallEnv} {d : Daemon} :
      Daemon.Step rt s.daemon (.tick env) d → IpcStep loads s (.tick env) ⟨d, s.wires⟩
  | restart {s : IpcSystem C} {env : CallEnv} {d : Daemon} :
      Daemon.Step rt s.daemon (.restart env) d →
      IpcStep loads s (.restart env) ⟨d, fun c => (s.wires c).lost⟩

/-- What happens on one connection. -/
def IpcEvent.on? (c : C) : IpcEvent C → Option WireEvent
  | .onWire c' ev => if c' = c then some ev else none
  | _ => none

def eventsOn (c : C) (es : List (IpcEvent C)) : List WireEvent := es.filterMap (IpcEvent.on? c)

end

/-! ## What has happened on a connection -/

namespace WireEvent

def sent? : WireEvent → Option Bytes
  | .sends data => some data
  | _ => none

def served? : WireEvent → Option (RequestEnv × Json)
  | .serves env request => some (env, request)
  | _ => none

def delivered? : WireEvent → Option Bytes
  | .delivers chunk => some chunk
  | _ => none

end WireEvent

def requestsSent (ws : List WireEvent) : List Bytes := ws.filterMap WireEvent.sent?

def requestsServed (ws : List WireEvent) : List (RequestEnv × Json) :=
  ws.filterMap WireEvent.served?

def chunksReceived (ws : List WireEvent) : List Bytes := ws.filterMap WireEvent.delivered?

/-- What the standard library decodes, the server decodes. -/
def FaithfulLoads (loads : Bytes → Except Text Json) : Prop :=
  ∀ line value, (Bytes.decode line).bind (Json.loads fl) = some value → loads line = .ok value

variable {rt fl} {loads : Bytes → Except Text Json} {d d' : Daemon} {w w' : Wire}
  {ws : List WireEvent} {ev : WireEvent} {line rest body : Bytes} {reply : Json}

/-! ## The loop of a connection -/

/-- A request for a stream leaves the loop, and nothing is written. -/
theorem serveRequest_stream (env : ServerEnv) {request : List (Text × Json)}
    (h : StreamAction (actionOf request)) (c : ClientConnection) :
    ∃ exit, serveRequest env (.obj request) c = (.error exit, c) := by
  rcases h with h | h
  · refine ⟨.monitor ((Json.lookup request "params").getD (.obj [])), ?_⟩
    rw [serveRequest, if_pos h]
    rfl
  · have hmonitor : actionOf request ≠ some "monitor".toList := by
      rw [h]
      decide
    refine ⟨.packetMonitor ((Json.lookup request "params").getD (.obj [])), ?_⟩
    rw [serveRequest, if_neg hmonitor, if_pos h]
    rfl

/-- The server does on a line what `serveLine` does: it writes a reply, turns to a stream, or leaves
the loop. -/
theorem wireStep_of_serveLine (env : ServerEnv) (c : ClientConnection) (hmode : w.mode = .serving)
    (hread : w.readline = some (line ++ [newline], rest)) : ∃ ev w' written,
      WireStep env.rt env.floats env.loads (env.meanwhile c.linesRead c.daemon, w) ev
        ((serveLine env line c).2.daemon, w') ∧
      w'.toClient = w.toClient ++ written ∧
      (serveLine env line c).2.written = c.written ++ written ∧
      (w'.mode = .serving ↔ (serveLine env line c).1 = .ok ()) := by
  let c₀ : ClientConnection :=
    { c with daemon := env.meanwhile c.linesRead c.daemon, linesRead := c.linesRead + 1 }
  have hleft : ∀ exit, (.error exit : Except LoopExit Unit) ≠ .ok () := by
    intro exit h
    cases h
  cases hload : env.loads (line ++ [newline]) with
  | error message =>
    have hserve : serveLine env line c = write env (invalidJson message) c₀ := by
      rw [serveLine, hload]
      rfl
    rw [hserve]
    exact ⟨_, _, _, .refuses hmode hread hload, rfl, rfl, fun _ => rfl, fun _ => hmode⟩
  | ok value =>
    have hserve : serveLine env line c = serveRequest env value c₀ := by
      rw [serveLine, hload]
      rfl
    rw [hserve]
    cases value with
    | obj request =>
      by_cases hstream : StreamAction (actionOf request)
      · obtain ⟨exit, hexit⟩ := serveRequest_stream env hstream c₀
        have hmodes : WireMode.streaming ≠ .serving := by decide
        rw [hexit]
        exact ⟨_, _, [], .streams hmode hread hload hstream, (List.append_nil _).symm,
          (List.append_nil _).symm, iff_of_false hmodes (hleft _)⟩
      · obtain ⟨hmonitor, hpackets⟩ := not_or.mp hstream
        obtain ⟨reply, d', hreply, -⟩ :=
          handleRequest_hasOk env.rt (env.request c₀.linesRead) request c₀.daemon
        have hanswer : answer env (.obj request) c₀ = (.ok reply, { c₀ with daemon := d' }) := by
          simp only [answer, hreply]
        rw [serveRequest, if_neg hmonitor, if_neg hpackets, Exec.bind_of_ok hanswer]
        exact ⟨_, _, _, .serves hmode hread hload hstream hreply, rfl, rfl, fun _ => rfl,
          fun _ => hmode⟩
    | _ =>
      have hmodes : WireMode.closed ≠ .serving := by decide
      exact ⟨_, _, [], .hangsUp (by simp [hmode]), (List.append_nil _).symm,
        (List.append_nil _).symm, iff_of_false hmodes (hleft _)⟩

/-! ## Lines -/

namespace Wire

theorem readline_nil (h : w.unread ++ w.toServer = []) : w.readline = none := by
  have hunread := (List.append_eq_nil_iff.mp h).1
  simp [readline, hunread, Lines.takeLine]

/-- Where one line is on its way, that line is read, and nothing stays behind. -/
theorem readline_line (h : w.unread ++ w.toServer = body ++ [newline]) (hbody : newline ∉ body)
    (hread : w.readline = some (line, rest)) :
    line = body ++ [newline] ∧ rest = [] ∧ w.toServer = [] := by
  have hline : Lines.takeLine newline (body ++ newline :: []) = some (body, []) :=
    Lines.takeLine_of_line hbody
  unfold readline at hread
  split at hread
  · next line' rest' htake =>
    obtain ⟨rfl, rfl⟩ := Prod.mk.inj (Option.some.inj hread)
    obtain ⟨hunread, hline'⟩ := Lines.eq_of_takeLine htake
    rw [← h, hunread, List.append_assoc, List.cons_append, Lines.takeLine_of_line hline'] at hline
    obtain ⟨rfl, hrest⟩ := Prod.mk.inj (Option.some.inj hline)
    obtain ⟨hrest, hserver⟩ := List.append_eq_nil_iff.mp hrest
    exact ⟨rfl, hrest, hserver⟩
  · next htake =>
    split at hread
    · next hend =>
      rw [hend.2.1, List.append_nil] at h
      rw [h, hline] at htake
      cases htake
    · cases hread

end Wire

/-! ## A call -/

/-- The call has not been served; what was sent is not read yet, or never will be. -/
structure CallWaits (ws : List WireEvent) (w : Wire) : Prop where
  unserved : requestsServed ws = []
  unreceived : chunksReceived ws = []
  unanswered : w.toClient = []
  notStreaming : w.mode ≠ .streaming
  asked : w.mode = .closed ∨ w.unread ++ w.toServer = (requestsSent ws).flatten

/-- The call was served before the events `ws`; the reply is on its way or has come. -/
structure CallAnswered (fl : Floats) (reply : Json) (ws : List WireEvent) (w : Wire) : Prop where
  unserved : requestsServed ws = []
  chunks : ∀ chunk ∈ chunksReceived ws, chunk ≠ []
  answered : (chunksReceived ws).flatten ++ w.toClient = jsonLine fl reply
  notStreaming : w.mode ≠ .streaming
  idle : w.mode = .closed ∨ w.unread ++ w.toServer = []

theorem CallWaits.fresh : CallWaits [] {} := ⟨rfl, rfl, rfl, by decide, .inr rfl⟩

theorem CallWaits.lost (h : CallWaits ws w) : CallWaits ws w.lost := by
  unfold Wire.lost
  split
  · exact h
  · exact ⟨h.unserved, h.unreceived, h.unanswered, by simp, .inl rfl⟩

theorem CallAnswered.lost (h : CallAnswered fl reply ws w) : CallAnswered fl reply ws w.lost := by
  unfold Wire.lost
  split
  · exact h
  · exact ⟨h.unserved, h.chunks, h.answered, by simp, .inl rfl⟩

section

variable (hserved : ev.served? = none) (hreceived : ev.delivered? = none)
include hserved hreceived

/-- An event that neither serves nor delivers. -/
theorem events_of_quiet (ws : List WireEvent) : requestsServed (ws ++ [ev]) = requestsServed ws ∧
    chunksReceived (ws ++ [ev]) = chunksReceived ws := by
  constructor
  · rw [requestsServed, List.filterMap_append, List.filterMap_cons_none hserved, List.filterMap_nil,
      List.append_nil]
    rfl
  · rw [chunksReceived, List.filterMap_append, List.filterMap_cons_none hreceived,
      List.filterMap_nil, List.append_nil]
    rfl

theorem CallAnswered.of_quiet (h : CallAnswered fl reply ws w) (hclient : w'.toClient = w.toClient)
    (hmode : w'.mode ≠ .streaming) (hidle : w'.mode = .closed ∨ w'.unread ++ w'.toServer = []) :
    CallAnswered fl reply (ws ++ [ev]) w' := by
  obtain ⟨hs, hr⟩ := events_of_quiet hserved hreceived ws
  exact ⟨hs.trans h.unserved, hr ▸ h.chunks, by rw [hr, hclient, h.answered], hmode, hidle⟩

theorem CallWaits.of_quiet (h : CallWaits ws w) (hclient : w'.toClient = w.toClient)
    (hmode : w'.mode ≠ .streaming)
    (hasked : w'.mode = .closed ∨ w'.unread ++ w'.toServer = (requestsSent (ws ++ [ev])).flatten) :
    CallWaits (ws ++ [ev]) w' := by
  obtain ⟨hs, hr⟩ := events_of_quiet hserved hreceived ws
  exact ⟨hs.trans h.unserved, hr.trans h.unreceived, hclient.trans h.unanswered, hmode, hasked⟩

end

theorem CallAnswered.not_serving (h : CallAnswered fl reply ws w) (hmode : w.mode = .serving) :
    w.readline = none :=
  Wire.readline_nil (h.idle.resolve_left (by simp [hmode]))

/-- Once it is answered, a call only receives. -/
theorem CallAnswered.step (h : CallAnswered fl reply ws w)
    (hsilent : requestsSent (ws ++ [ev]) = []) (hstep : WireStep rt fl loads (d, w) ev (d', w')) :
    CallAnswered fl reply (ws ++ [ev]) w' := by
  cases hstep with
  | connects hmode =>
    exact h.of_quiet rfl rfl rfl (by simp) (.inr (h.idle.resolve_left (by simp [hmode])))
  | sends => simp [requestsSent, WireEvent.sent?] at hsilent
  | ends => exact h.of_quiet rfl rfl rfl h.notStreaming h.idle
  | @arrives _ _ chunk rest harrives =>
    refine h.of_quiet rfl rfl rfl h.notStreaming (h.idle.imp_right fun hidle => ?_)
    rw [harrives, ← List.append_assoc] at hidle
    exact hidle
  | serves hmode hread => exact absurd hread (by simp [h.not_serving hmode])
  | refuses hmode hread => exact absurd hread (by simp [h.not_serving hmode])
  | streams hmode hread => exact absurd hread (by simp [h.not_serving hmode])
  | writes hmode => exact absurd hmode h.notStreaming
  | hangsUp => exact h.of_quiet rfl rfl rfl (by simp) (.inl rfl)
  | @delivers _ _ chunk rest hchunk hclient =>
    have hreceived : chunksReceived (ws ++ [.delivers chunk]) = chunksReceived ws ++ [chunk] :=
      List.filterMap_append
    have hserved : requestsServed (ws ++ [.delivers chunk]) = requestsServed ws := by
      simp [requestsServed, WireEvent.served?]
    refine ⟨hserved.trans h.unserved, ?_, ?_, h.notStreaming, h.idle⟩
    · intro a ha
      rw [hreceived] at ha
      rcases List.mem_append.mp ha with ha | ha
      · exact h.chunks a ha
      · exact List.mem_singleton.mp ha ▸ hchunk
    · rw [hreceived, List.flatten_append, List.flatten_singleton, List.append_assoc, ← hclient,
        h.answered]

variable {action : Text} {params : Json}

/-- What is read of a call that waits is its request. -/
theorem CallWaits.reads (h : CallWaits ws w)
    (hsent : requestsSent ws <+: [callBytes fl action params]) (hmode : w.mode = .serving)
    (hread : w.readline = some (line, rest)) :
    requestsSent ws = [callBytes fl action params] ∧ line = callBytes fl action params ∧
      rest = [] ∧ w.toServer = [] := by
  have hasked := h.asked.resolve_left (by simp [hmode])
  cases hws : requestsSent ws with
  | nil =>
    rw [hws, List.flatten_nil] at hasked
    rw [Wire.readline_nil hasked] at hread
    cases hread
  | cons data more =>
    rw [hws] at hsent hasked
    obtain ⟨rfl, hmore⟩ := List.cons_prefix_cons.mp hsent
    obtain rfl := List.prefix_nil.mp hmore
    rw [List.flatten_singleton] at hasked
    exact ⟨rfl, Wire.readline_line hasked (newline_notMem_dumps _ _) hread⟩

theorem plain_callRequest (hparams : params.Plain) :
    (Json.obj (callRequest action params)).Plain := by
  refine ⟨(by decide : (["action", "params"] : List Text).Nodup), trivial, ?_, trivial⟩
  split
  · exact hparams
  · exact ⟨List.nodup_nil, trivial⟩

/-- A call that waits goes on waiting, or it is served: its request is handled as it was sent. -/
theorem CallWaits.step (hloads : FaithfulLoads fl loads) (hparams : params.Plain)
    (haction : ¬ StreamAction (some action)) (h : CallWaits ws w)
    (hsent : requestsSent (ws ++ [ev]) <+: [callBytes fl action params])
    (hstep : WireStep rt fl loads (d, w) ev (d', w')) :
    CallWaits (ws ++ [ev]) w' ∨ ∃ env reply, ev = .serves env (.obj (callRequest action params)) ∧
      requestsSent ws = [callBytes fl action params] ∧
      handleRequest rt env (.obj (callRequest action params)) d = (.ok reply, d') ∧
      CallAnswered fl reply [] w' := by
  have happend : requestsSent (ws ++ [ev]) = requestsSent ws ++ requestsSent [ev] :=
    List.filterMap_append
  have hsent' : requestsSent ws <+: [callBytes fl action params] := by
    rw [happend] at hsent
    exact (List.prefix_append _ _).trans hsent
  have hload : loads (callBytes fl action params) = .ok (.obj (callRequest action params)) :=
    hloads _ _ (decode_jsonLine fl (plain_callRequest hparams))
  cases hstep with
  | connects hmode =>
    refine .inl (h.of_quiet rfl rfl rfl (by simp) (.inr ?_))
    rw [happend]
    exact (h.asked.resolve_left (by simp [hmode])).trans (by simp [requestsSent, WireEvent.sent?])
  | @sends _ _ data =>
    refine .inl (h.of_quiet rfl rfl rfl h.notStreaming (h.asked.imp_right fun hasked => ?_))
    rw [happend, List.flatten_append, ← hasked]
    simp [requestsSent, WireEvent.sent?]
  | ends =>
    refine .inl (h.of_quiet rfl rfl rfl h.notStreaming (h.asked.imp_right fun hasked => ?_))
    rw [happend]
    exact hasked.trans (by simp [requestsSent, WireEvent.sent?])
  | @arrives _ _ chunk rest harrives =>
    refine .inl (h.of_quiet rfl rfl rfl h.notStreaming (h.asked.imp_right fun hasked => ?_))
    rw [happend, List.flatten_append, ← hasked, harrives]
    simp [requestsSent, WireEvent.sent?]
  | serves hmode hread hrequest _ hreply =>
    obtain ⟨hws, rfl, rfl, hserver⟩ := h.reads hsent' hmode hread
    obtain rfl := Json.obj.inj (Except.ok.inj (hload.symm.trans hrequest))
    refine .inr ⟨_, _, rfl, hws, hreply, rfl, nofun, ?_, h.notStreaming, .inr hserver⟩
    show [] ++ (w.toClient ++ _) = _
    rw [h.unanswered]
    rfl
  | refuses hmode hread hrefused =>
    obtain ⟨-, rfl, -⟩ := h.reads hsent' hmode hread
    exact absurd (hload.symm.trans hrefused) nofun
  | streams hmode hread hrequest hstream =>
    obtain ⟨-, rfl, -⟩ := h.reads hsent' hmode hread
    obtain rfl := Json.obj.inj (Except.ok.inj (hload.symm.trans hrequest))
    exact absurd hstream haction
  | writes hmode => exact absurd hmode h.notStreaming
  | hangsUp => exact .inl (h.of_quiet rfl rfl rfl (by simp) (.inl rfl))
  | delivers hchunk hclient =>
    rw [h.unanswered] at hclient
    exact absurd (List.append_eq_nil_iff.mp hclient.symm).1 hchunk

/-! ## All connections -/

variable {C : Type} [DecidableEq C] {s₀ s s' : IpcSystem C} {es : List (IpcEvent C)}
  {e : IpcEvent C} {c : C}

theorem eventsOn_concat (c : C) (es : List (IpcEvent C)) (e : IpcEvent C) :
    eventsOn c (es ++ [e]) = eventsOn c es ++ (e.on? c).toList := by
  rw [eventsOn, List.filterMap_append]
  cases h : e.on? c <;> simp [h, eventsOn]

theorem eventsOn_cut (c : C) (es₁ es₂ : List (IpcEvent C)) (ev : WireEvent) :
    eventsOn c (es₁ ++ .onWire c ev :: es₂) = eventsOn c es₁ ++ ev :: eventsOn c es₂ := by
  have hon : IpcEvent.on? c (.onWire c ev) = some ev := if_pos rfl
  rw [eventsOn, List.filterMap_append, List.filterMap_cons_some hon]
  rfl

/-- A step is one on the connection, or the connection stays or is lost. -/
theorem IpcStep.on (h : IpcStep rt fl loads s e s') (c : C) :
    (∃ ev, e = .onWire c ev ∧
      WireStep rt fl loads (s.daemon, s.wires c) ev (s'.daemon, s'.wires c)) ∨
    e.on? c = none ∧ (s'.wires c = s.wires c ∨ s'.wires c = (s.wires c).lost) := by
  cases h with
  | @onWire c' ev d w hstep =>
    by_cases hc : c' = c
    · subst hc
      refine .inl ⟨ev, rfl, ?_⟩
      simpa using hstep
    · exact .inr ⟨if_neg hc, .inl (Function.update_of_ne (Ne.symm hc) _ _)⟩
  | tick => exact .inr ⟨rfl, .inl rfl⟩
  | restart => exact .inr ⟨rfl, .inr rfl⟩

variable (rt fl loads action params s₀ c) in
/-- Where the call of a client stands after a run from `s₀`. -/
inductive CallPhase : List (IpcEvent C) → IpcSystem C → Prop where
  | waits {es : List (IpcEvent C)} {s : IpcSystem C} : CallWaits (eventsOn c es) (s.wires c) →
      CallPhase es s
  | answered {es₁ es₂ : List (IpcEvent C)} {s₁ s₂ s : IpcSystem C} {env : RequestEnv}
      {reply : Json} : Run (IpcStep rt fl loads) s₀ es₁ s₁ → Run (IpcStep rt fl loads) s₂ es₂ s →
      CallWaits (eventsOn c es₁) (s₁.wires c) →
      requestsSent (eventsOn c es₁) = [callBytes fl action params] →
      handleRequest rt env (.obj (callRequest action params)) s₁.daemon = (.ok reply, s₂.daemon) →
      CallAnswered fl reply (eventsOn c es₂) (s.wires c) →
      CallPhase (es₁ ++ .onWire c (.serves env (.obj (callRequest action params))) :: es₂) s

theorem CallPhase.step (hloads : FaithfulLoads fl loads) (hparams : params.Plain)
    (haction : ¬ StreamAction (some action)) (h : CallPhase rt fl loads action params s₀ c es s)
    (hrun : Run (IpcStep rt fl loads) s₀ es s) (hstep : IpcStep rt fl loads s e s')
    (hsent : requestsSent (eventsOn c (es ++ [e])) <+: [callBytes fl action params]) :
    CallPhase rt fl loads action params s₀ c (es ++ [e]) s' := by
  rcases hstep.on c with ⟨ev, rfl, hwire⟩ | ⟨hnone, hwire⟩
  · have hevents : eventsOn c (es ++ [.onWire c ev]) = eventsOn c es ++ [ev] := by
      rw [eventsOn_concat, IpcEvent.on?, if_pos rfl, Option.toList_some]
    rw [hevents] at hsent
    cases h with
    | waits hwaits =>
      rcases hwaits.step hloads hparams haction hsent hwire with
        hwaits' | ⟨env, reply, rfl, hasked, hreply, hanswered⟩
      · exact .waits (hevents ▸ hwaits')
      · exact .answered hrun (.nil s') hwaits hasked hreply hanswered
    | @answered es₁ es₂ s₁ s₂ _ env reply hrun₁ hrun₂ hwaits hasked hreply hanswered =>
      have hevents₂ : eventsOn c (es₂ ++ [.onWire c ev]) = eventsOn c es₂ ++ [ev] := by
        rw [eventsOn_concat, IpcEvent.on?, if_pos rfl, Option.toList_some]
      have hsilent : requestsSent (eventsOn c es₂ ++ [ev]) = [] := by
        have hsplit : ∀ ws ws' : List WireEvent,
            requestsSent (ws ++ ws') = requestsSent ws ++ requestsSent ws' :=
          fun _ _ => List.filterMap_append
        rw [eventsOn_cut, List.append_assoc, hsplit, hasked] at hsent
        have hlen := hsent.length_le
        rw [List.length_append] at hlen
        exact List.eq_nil_of_length_eq_zero (Nat.le_zero.mp (Nat.le_of_add_le_add_left hlen))
      rw [List.append_assoc, List.cons_append]
      exact .answered hrun₁ (hrun₂.append (.single hstep)) hwaits hasked hreply
        (hevents₂ ▸ hanswered.step hsilent hwire)
  · have hevents : ∀ es, eventsOn c (es ++ [e]) = eventsOn c es := by
      intro es
      rw [eventsOn_concat, hnone, Option.toList_none, List.append_nil]
    cases h with
    | waits hwaits =>
      refine .waits ?_
      rw [hevents]
      rcases hwire with hwire | hwire
      · exact hwire ▸ hwaits
      · exact hwire ▸ hwaits.lost
    | @answered es₁ es₂ s₁ s₂ _ env reply hrun₁ hrun₂ hwaits hasked hreply hanswered =>
      rw [List.append_assoc, List.cons_append]
      refine .answered hrun₁ (hrun₂.append (.single hstep)) hwaits hasked hreply ?_
      rw [hevents]
      rcases hwire with hwire | hwire
      · exact hwire ▸ hanswered
      · exact hwire ▸ hanswered.lost

/-- Every run leads a call from its connection to one of its phases. -/
theorem callPhase_of_run (hloads : FaithfulLoads fl loads) (hparams : params.Plain)
    (haction : ¬ StreamAction (some action)) (hfresh : s₀.wires c = {})
    (hrun : Run (IpcStep rt fl loads) s₀ es s)
    (hsent : requestsSent (eventsOn c es) <+: [callBytes fl action params]) :
    CallPhase rt fl loads action params s₀ c es s := by
  let I : List (IpcEvent C) → IpcSystem C → Prop := fun es s =>
    Run (IpcStep rt fl loads) s₀ es s ∧
      (requestsSent (eventsOn c es) <+: [callBytes fl action params] →
        CallPhase rt fl loads action params s₀ c es s)
  have hstep : ∀ es s e t, I es s → IpcStep rt fl loads s e t → I (es ++ [e]) t := by
    rintro es s e t ⟨hrun, hphase⟩ hstep
    refine ⟨hrun.append (.single hstep), fun hsent => ?_⟩
    have hbefore : requestsSent (eventsOn c es) <+: requestsSent (eventsOn c (es ++ [e])) := by
      rw [eventsOn_concat]
      simp only [requestsSent, List.filterMap_append]
      exact List.prefix_append _ _
    exact (hphase (hbefore.trans hsent)).step hloads hparams haction hrun hstep hsent
  have hinit : I [] s₀ := ⟨.nil s₀, fun _ => .waits (hfresh ▸ .fresh)⟩
  exact (hrun.history hstep hinit).2 hsent

variable (rt fl loads action params s₀ c) in
/-- A call takes effect between two parts of a run, and at no other moment. It has been sent then,
and nothing has been received. -/
structure TakesEffect (es₁ : List (IpcEvent C)) (s₁ : IpcSystem C) (env : RequestEnv) (reply : Json)
    (s₂ : IpcSystem C) (es₂ : List (IpcEvent C)) (s : IpcSystem C) : Prop where
  before : Run (IpcStep rt fl loads) s₀ es₁ s₁
  after : Run (IpcStep rt fl loads) s₂ es₂ s
  asked : requestsSent (eventsOn c es₁) = [callBytes fl action params]
  unreceived : chunksReceived (eventsOn c es₁) = []
  once : requestsServed (eventsOn c es₁) = [] ∧ requestsServed (eventsOn c es₂) = []
  handled : handleRequest rt env (.obj (callRequest action params)) s₁.daemon =
    (.ok reply, s₂.daemon)

theorem hasOk_of_handleRequest {env : RequestEnv} {request : List (Text × Json)}
    (h : handleRequest rt env (.obj request) d = (.ok reply, d')) : HasOk reply := by
  obtain ⟨reply', d'', hreply, hok⟩ := handleRequest_hasOk rt env request d
  obtain rfl : reply = reply' := Except.ok.inj (congrArg Prod.fst (h.symm.trans hreply))
  exact hok

/-- Where nothing was received before, all chunks come behind. -/
theorem chunksReceived_cut {es₁ es₂ : List (IpcEvent C)} {env : RequestEnv} {request : Json}
    (h : chunksReceived (eventsOn c es₁) = []) :
    chunksReceived (eventsOn c (es₁ ++ .onWire c (.serves env request) :: es₂)) =
      chunksReceived (eventsOn c es₂) := by
  rw [chunksReceived] at h
  rw [eventsOn_cut, chunksReceived, List.filterMap_append, h, List.nil_append,
    List.filterMap_cons_none rfl]
  rfl

/-- What has been received says what the reply says, or it is not enough. -/
theorem CallAnswered.result (h : CallAnswered fl reply ws w) (hplain : reply.Plain)
    (hok : HasOk reply) (socket : SocketEnv) :
    (socket.Works → newline ∈ (chunksReceived ws).flatten →
        sendCommandResult fl socket (chunksReceived ws) = resultOf reply) ∧
      (sendCommandResult fl socket (chunksReceived ws) = resultOf reply ∨
        FailsOnWire socket (sendCommandResult fl socket (chunksReceived ws)) ∨
        sendCommandResult fl socket (chunksReceived ws) = .error .undecodable) := by
  obtain ⟨m, b, rfl, -⟩ := hok
  have hresult := sendCommandResult_of_reply socket hplain h.chunks h.answered
  exact ⟨fun hworks hline => hresult.resolve_right fun hcut => hcut.1 hworks hline,
    hresult.imp_right And.right⟩

/-- Nothing has been received of a call that waits, and it fails. -/
theorem CallWaits.fails (h : CallWaits ws w) (fl : Floats) (socket : SocketEnv) :
    FailsOnWire socket (sendCommandResult fl socket (chunksReceived ws)) := by
  rw [h.unreceived]
  have hnone : ∀ chunk ∈ ([] : List Bytes), chunk ≠ [] := by simp
  rcases sendCommandResult_cases fl socket hnone with
    ⟨hraises, -⟩ | ⟨data, hdata, hnil, -⟩
  · exact .inr hraises
  · obtain rfl := hnil.mpr rfl
    exact .inl hdata

/-- Whatever other clients send, however the bytes are cut into chunks, whenever the daemon is
restarted, and whatever becomes of the socket: a call is never served, and it fails, or it is served
exactly once, between its sending and the first byte of its response. Then it returns what the
daemon replied at that moment, or it fails because its socket raised or the response was cut
off. -/
theorem remote_call_linearizes (hloads : FaithfulLoads fl loads) (hparams : params.Plain)
    (haction : ¬ StreamAction (some action)) (hfresh : s₀.wires c = {})
    (hrun : Run (IpcStep rt fl loads) s₀ es s)
    (hsent : requestsSent (eventsOn c es) <+: [callBytes fl action params]) (socket : SocketEnv) :
    let result := sendCommandResult fl socket (chunksReceived (eventsOn c es))
    (requestsServed (eventsOn c es) = [] ∧ FailsOnWire socket result) ∨
    ∃ es₁ s₁ env reply s₂ es₂,
      es = es₁ ++ .onWire c (.serves env (.obj (callRequest action params))) :: es₂ ∧
      TakesEffect rt fl loads action params s₀ c es₁ s₁ env reply s₂ es₂ s ∧
      ((∀ a, Action.ofText action = some a → ¬ a.Reports) → reply.Plain) ∧
      (reply.Plain →
        (socket.Works → newline ∈ (chunksReceived (eventsOn c es)).flatten →
          result = resultOf reply) ∧
        (result = resultOf reply ∨ FailsOnWire socket result ∨ result = .error .undecodable)) := by
  intro result
  have hphase := callPhase_of_run hloads hparams haction hfresh hrun hsent
  cases hphase with
  | waits hwaits => exact .inl ⟨hwaits.unserved, hwaits.fails fl socket⟩
  | @answered es₁ es₂ s₁ s₂ _ env reply hrun₁ hrun₂ hwaits hasked hreply hanswered =>
    refine .inr ⟨es₁, s₁, env, reply, s₂, es₂, rfl, ⟨hrun₁, hrun₂, hasked, hwaits.unreceived,
      ⟨hwaits.unserved, hanswered.unserved⟩, hreply⟩, fun hreports => ?_, fun hplain => ?_⟩
    · have hreports : ∀ a, requestedAction (callRequest action params) = some a → ¬ a.Reports :=
        hreports
      exact handleRequest_plain rt env hreports s₁.daemon reply (by rw [hreply])
    · have hresult := hanswered.result hplain (hasOk_of_handleRequest hreply) socket
      rwa [← chunksReceived_cut hwaits.unreceived] at hresult

/-! ## An undisturbed call -/

variable (fl) in
/-- The only client calls, and receives the reply. -/
def callEvents (env : RequestEnv) (action : Text) (params reply : Json) : List (IpcEvent Unit) :=
  [.onWire () .connects, .onWire () (.sends (callBytes fl action params)),
    .onWire () (.arrives (callBytes fl action params)),
    .onWire () (.serves env (.obj (callRequest action params))),
    .onWire () (.delivers (jsonLine fl reply))]

/-- A step of the only connection. -/
theorem IpcStep.only {ev : WireEvent} (h : WireStep rt fl loads (d, w) ev (d', w')) :
    IpcStep rt fl loads (⟨d, fun _ => w⟩ : IpcSystem Unit) (.onWire () ev) ⟨d', fun _ => w'⟩ := by
  have hupdate : Function.update (fun _ : Unit => w) () w' = fun _ => w' :=
    funext fun _ => Function.update_self _ _ _
  rw [← hupdate]
  exact .onWire h

theorem callRun (hloads : FaithfulLoads fl loads) (hparams : params.Plain)
    (haction : ¬ StreamAction (some action)) {env : RequestEnv}
    (hreply : handleRequest rt env (.obj (callRequest action params)) d = (.ok reply, d')) :
    Run (IpcStep rt fl loads) ⟨d, fun _ => {}⟩ (callEvents fl env action params reply)
      ⟨d', fun _ => { mode := .serving }⟩ := by
  have hread : ∀ w : Wire, w.unread = callBytes fl action params →
      w.readline = some (callBytes fl action params, []) := by
    intro w hw
    have hbody := newline_notMem_dumps fl (.obj (callRequest action params))
    rw [Wire.readline, hw, callBytes, jsonLine, Lines.takeLine_of_line hbody]
  have hload : loads (callBytes fl action params) = .ok (.obj (callRequest action params)) :=
    hloads _ _ (decode_jsonLine fl (plain_callRequest hparams))
  have hline : jsonLine fl reply ≠ [] :=
    List.append_ne_nil_of_right_ne_nil _ (List.cons_ne_nil _ _)
  exact .cons (.only (.connects rfl)) (.cons (.only (.sends (by simp) rfl)) (.cons
    (.only (.arrives (List.append_nil _).symm)) (.cons
      (.only (.serves rfl (hread _ rfl) hload haction hreply))
      (.single (.only (.delivers hline (List.append_nil _).symm))))))

section Example

theorem faithfulLoads_morningServer : FaithfulLoads plainFloats morningServer.loads := by
  intro line value h
  simp only [morningServer, h]

/-- A ping takes effect and returns, and one whose response did not come in time has taken effect
all the same. -/
theorem remote_call_linearizes_ping : ∃ (d : Daemon) (s : IpcSystem Unit)
    (es : List (IpcEvent Unit)),
    Run (IpcStep asciiRuntime plainFloats morningServer.loads) ⟨d, fun _ => {}⟩ es s ∧
    sendCommandResult plainFloats {} (chunksReceived (eventsOn () es)) = .ok (.str "pong") ∧
    ∃ es' s', Run (IpcStep asciiRuntime plainFloats morningServer.loads) ⟨d, fun _ => {}⟩ es' s' ∧
      (requestsServed (eventsOn () es')).length = 1 ∧
      sendCommandResult plainFloats { recvError := some .timeout }
        (chunksReceived (eventsOn () es')) = .error (.socketError .timeout) := by
  obtain ⟨d, -⟩ := exists_morning_daemon asciiRuntime
  have hplain : (Json.obj []).Plain := ⟨List.nodup_nil, trivial⟩
  have haction : ¬ StreamAction (some "ping".toList) := by decide
  have hreply : handleRequest asciiRuntime (requestAt ten) (.obj (callRequest "ping" (.obj []))) d =
      (.ok (okReply (.str "pong")), d) := rfl
  have hrun := callRun faithfulLoads_morningServer hplain haction hreply
  have hcut := hrun
  rw [← List.take_append_drop 4 (callEvents plainFloats _ _ _ _)] at hcut
  obtain ⟨s', hrun', -⟩ := hcut.split
  refine ⟨d, _, _, hrun, ?_, _, s', hrun', rfl, rfl⟩
  rcases remote_call_linearizes faithfulLoads_morningServer hplain haction rfl hrun
      (List.prefix_refl _) {} with
    ⟨hunserved, -⟩ | ⟨es₁, s₁, env, reply, s₂, es₂, -, htakes, -, hresult⟩
  · cases hunserved
  · obtain rfl : okReply (.str "pong") = reply :=
      Except.ok.inj (congrArg Prod.fst htakes.handled)
    refine (hresult (plain_okReply trivial)).1 ⟨rfl, rfl⟩ ?_
    show newline ∈ [jsonLine plainFloats (okReply (.str "pong"))].flatten
    simp [jsonLine]

end Example

end FocusGuard
