import FocusGuard.Lib.Lines
import FocusGuard.Service.LockSafety
import FocusGuard.Service.StreamMessages

/-!
# The loop of a connection

`_handle_client` of `focusguard/service/ipc_server.py`: a line is read, decoded and dispatched, and
the reply is written before the next line is read. The handler of a stream takes the connection
over.

## Main results

* `handleRequest_hasOk`: every reply of the dispatcher says whether the request succeeded.
* `one_response_per_request`: when every line gets one reply.
-/

namespace FocusGuard

open IPCServer

/-- What the loop runs in. Other tasks have the daemon while a line is awaited. -/
structure ServerEnv where
  rt : Runtime
  floats : Floats
  /-- `json.loads(line.decode("utf-8"))`, or the text of what that raises. -/
  loads : Bytes → Except Text Json
  request : Nat → RequestEnv
  meanwhile : Nat → Daemon → Daemon

structure ClientConnection where
  daemon : Daemon
  linesRead : Nat := 0
  written : Bytes := []
  isOpen : Bool := true

/-- How the loop is left: by an exception, or for a stream. -/
inductive LoopExit where
  | raised (e : PyError)
  | monitor (params : Json)
  | packetMonitor (params : Json)

variable (env : ServerEnv)

namespace ClientConnection

/-- `await reader.readline()`, when a line has come. -/
def awaitLine : Exec LoopExit ClientConnection Unit :=
  Exec.modify fun c =>
    { c with daemon := env.meanwhile c.linesRead c.daemon, linesRead := c.linesRead + 1 }

def write (value : Json) : Exec LoopExit ClientConnection Unit :=
  Exec.modify fun c => { c with written := c.written ++ jsonLine env.floats value }

/-- `await self.handle_request(request)`. -/
def answer (request : Json) : Exec LoopExit ClientConnection Json := fun c =>
  match handleRequest env.rt (env.request c.linesRead) request c.daemon with
  | (.ok reply, d) => (.ok reply, { c with daemon := d })
  | (.error e, d) => (.error (.raised e), { c with daemon := d })

/-- The reply to a line that cannot be decoded. -/
def invalidJson (message : Text) : Json :=
  .obj [("ok", .bool false), ("error", .str ("Invalid JSON: ".toList ++ message))]

def actionOf (request : List (Text × Json)) : Option Text :=
  ((Json.lookup request "action").getD (.str [])).text?

/-- A request is streamed or answered; only a dictionary has `get`. -/
def serveRequest : Json → Exec LoopExit ClientConnection Unit
  | .obj request =>
    let params := (Json.lookup request "params").getD (.obj [])
    if actionOf request = some "monitor".toList then Exec.throw (.monitor params)
    else if actionOf request = some "packet_monitor".toList then
      Exec.throw (.packetMonitor params)
    else do
      let response ← answer env (.obj request)
      write env response
  | _ => Exec.throw (.raised .attributeError)

/-- One round of the loop. -/
def serveLine (line : Bytes) : Exec LoopExit ClientConnection Unit := do
  awaitLine env
  match env.loads (line ++ [newline]) with
  | .error message => write env (invalidJson message)
  | .ok request => serveRequest env request

/-- `_handle_client(reader, writer)` on what the client has sent so far. The result is the line that
is not complete yet; an exception closes the connection. -/
def handleClient (input : Bytes) : Exec LoopExit ClientConnection Bytes := fun c =>
  match Lines.drain newline (serveLine env) input c with
  | (.error (.raised e), c) => (.error (.raised e), { c with isOpen := false })
  | r => r

end ClientConnection

/-! ## Replies -/

/-- An object with a boolean `ok`. -/
def HasOk (reply : Json) : Prop :=
  ∃ m b, reply = .obj m ∧ Json.lookup m "ok" = some (.bool b)

theorem hasOk_okReply (result : Json) : HasOk (okReply result) := ⟨_, true, rfl, rfl⟩

theorem hasOk_gatewayReply (r : Bool × Text) : HasOk (gatewayReply r) := ⟨_, r.1, rfl, rfl⟩

theorem hasOk_gatewayMissing : HasOk gatewayMissing := ⟨_, false, rfl, rfl⟩

theorem hasOk_errorReply (rt : Runtime) (e : PyError) : HasOk (errorReply rt e) := by
  cases e <;> exact ⟨_, false, rfl, rfl⟩

theorem hasOk_invalidJson (message : Text) : HasOk (ClientConnection.invalidJson message) :=
  ⟨_, false, rfl, rfl⟩

/-- What a branch returns has a boolean `ok`. -/
theorem dispatch_hasOk (rt : Runtime) (env : RequestEnv) (params : Json) (a : Action) :
    Exec.Ensures HasOk (dispatch rt env params a) := by
  cases a with
  | ping => exact .pure (hasOk_okReply _)
  | status => exact .seq fun _ => .seq fun _ => .pure (hasOk_okReply _)
  | add => exact .seq fun _ => .seq fun _ => .seq fun _ => .pure (hasOk_okReply _)
  | remove => exact .seq fun _ => .seq fun _ => .pure (hasOk_okReply _)
  | list => exact .seq fun _ => .seq fun _ => .pure (hasOk_okReply _)
  | start =>
    exact .seq fun _ => .seq fun _ => .seq fun _ => .seq fun _ => .seq fun _ => .seq fun _ =>
      .pure (hasOk_okReply _)
  | stop => exact .seq fun _ => .pure (hasOk_okReply _)
  | session => exact .seq fun _ => .seq fun _ => .pure (hasOk_okReply _)
  | servicesList => exact .seq fun _ => .pure (hasOk_okReply _)
  | serviceBlock => exact .seq fun _ => .seq fun _ => .pure (hasOk_okReply _)
  | serviceUnblock => exact .seq fun _ => .seq fun _ => .pure (hasOk_okReply _)
  | gatewayEnable =>
    exact .ite (.seq fun _ => .pure (hasOk_gatewayReply _)) (.pure hasOk_gatewayMissing)
  | gatewayDisable =>
    exact .seq fun _ => .ite (.seq fun _ => .pure (hasOk_gatewayReply _))
      (.pure hasOk_gatewayMissing)
  | _ => exact .seq fun _ => .pure (hasOk_okReply _)

/-- Every dictionary gets a reply. -/
theorem handleRequest_hasOk (rt : Runtime) (env : RequestEnv) (request : List (Text × Json))
    (d : Daemon) : ∃ reply d', handleRequest rt env (.obj request) d = (.ok reply, d') ∧
      HasOk reply := by
  simp only [handleRequest]
  split
  · exact ⟨_, _, rfl, _, false, rfl, rfl⟩
  · next a ha =>
    have hensures := dispatch_hasOk rt env ((Json.lookup request "params").getD (.obj [])) a d
    generalize dispatch rt env ((Json.lookup request "params").getD (.obj [])) a d = r at hensures ⊢
    obtain ⟨e | reply, d'⟩ := r
    · exact ⟨_, _, rfl, hasOk_errorReply rt e⟩
    · exact ⟨_, _, rfl, hensures reply rfl⟩

/-! ## Requests -/

namespace ClientConnection

/-- The line asks for a monitor stream. -/
def AsksForStream (line : Bytes) : Prop :=
  ∃ request, env.loads (line ++ [newline]) = .ok (.obj request) ∧
    (actionOf request = some "monitor".toList ∨ actionOf request = some "packet_monitor".toList)

/-- The line is not JSON, or it is an object. -/
def Answerable (line : Bytes) : Prop :=
  ∀ value, env.loads (line ++ [newline]) = .ok value → ∃ request, value = .obj request

/-- From one state to the other, every line has got one reply before the next was read: one line of
bytes, an object with a boolean `ok`. -/
inductive Answered : List Bytes → ClientConnection → ClientConnection → Prop where
  | nil {c : ClientConnection} : Answered [] c c
  | cons {line : Bytes} {lines : List Bytes} {reply : Json} {c c₁ c₂ : ClientConnection} :
      serveLine env line c = (.ok (), c₁) → HasOk reply →
      newline ∉ (Json.dumps env.floats reply).encode →
      c₁.written = c.written ++ ((Json.dumps env.floats reply).encode ++ [newline]) →
      c₁.isOpen = c.isOpen → Answered lines c₁ c₂ → Answered (line :: lines) c c₂

variable {env} {line : Bytes} {lines : List Bytes} {c c' : ClientConnection}

/-- A line that asks for no stream gets one reply, unless it is JSON of another shape. -/
theorem serveLine_answers (hstream : ¬ AsksForStream env line) (h : Answerable env line)
    (c : ClientConnection) : ∃ reply c₁, serveLine env line c = (.ok (), c₁) ∧ HasOk reply ∧
      c₁.written = c.written ++ jsonLine env.floats reply ∧ c₁.isOpen = c.isOpen := by
  unfold serveLine
  cases hload : env.loads (line ++ [newline]) with
  | error message => exact ⟨_, _, rfl, hasOk_invalidJson message, rfl, rfl⟩
  | ok value =>
    obtain ⟨request, rfl⟩ := h value hload
    have hmonitor : actionOf request ≠ some "monitor".toList :=
      fun ha => hstream ⟨request, hload, .inl ha⟩
    have hpackets : actionOf request ≠ some "packet_monitor".toList :=
      fun ha => hstream ⟨request, hload, .inr ha⟩
    let c₀ : ClientConnection :=
      { c with daemon := env.meanwhile c.linesRead c.daemon, linesRead := c.linesRead + 1 }
    obtain ⟨reply, d', hreply, hok⟩ :=
      handleRequest_hasOk env.rt (env.request c₀.linesRead) request c₀.daemon
    have hanswer : answer env (.obj request) c₀ = (.ok reply, { c₀ with daemon := d' }) := by
      simp only [answer, hreply]
    have hawait : awaitLine env c = (.ok (), c₀) := rfl
    refine ⟨reply, { c₀ with daemon := d', written := c.written ++ jsonLine env.floats reply }, ?_,
      hok, rfl, rfl⟩
    rw [Exec.bind_of_ok hawait]
    simp only [serveRequest, if_neg hmonitor, if_neg hpackets]
    rw [Exec.bind_of_ok hanswer]
    rfl

/-- JSON of another shape ends the loop without a reply. -/
theorem serveLine_raises {value : Json} (hload : env.loads (line ++ [newline]) = .ok value)
    (h : ∀ request, value ≠ .obj request) (c : ClientConnection) :
    ∃ c₁, serveLine env line c = (.error (.raised .attributeError), c₁) ∧
      c₁.written = c.written := by
  unfold serveLine
  refine ⟨{ c with daemon := env.meanwhile c.linesRead c.daemon, linesRead := c.linesRead + 1 },
    ?_, rfl⟩
  rw [hload]
  cases value with
  | obj request => exact absurd rfl (h request)
  | _ => rfl

/-- The bytes of lines. -/
def ofLines (lines : List Bytes) : Bytes := lines.flatMap (· ++ [newline])

theorem drain_ofLines (h : ∀ line ∈ lines, newline ∉ line ∧ ¬ AsksForStream env line ∧
      Answerable env line) (c : ClientConnection) :
    ∃ c', Lines.drain newline (serveLine env) (ofLines lines) c = (.ok [], c') ∧
      Answered env lines c c' ∧ c'.isOpen = c.isOpen := by
  induction lines generalizing c with
  | nil =>
    refine ⟨c, ?_, .nil, rfl⟩
    rw [ofLines, List.flatMap_nil, Lines.drain_of_notMem List.not_mem_nil]
    rfl
  | cons line lines ih =>
    obtain ⟨⟨hline, hstream, hanswerable⟩, hrest⟩ := List.forall_mem_cons.mp h
    obtain ⟨reply, c₁, hserve, hok, hwritten, hopen⟩ := serveLine_answers hstream hanswerable c
    obtain ⟨c', hdrain, hanswered, hopen'⟩ := ih hrest c₁
    refine ⟨c', ?_, .cons hserve hok (newline_notMem_dumps _ _) hwritten hopen hanswered,
      hopen'.trans hopen⟩
    have hcons : ofLines (line :: lines) = line ++ newline :: ofLines lines := by
      simp [ofLines]
    rw [hcons, Lines.drain_of_line hline, Exec.bind_of_ok hserve, hdrain]

theorem Answered.answerable (h : Answered env lines c c') :
    ∀ line ∈ lines, Answerable env line := by
  induction h with
  | nil => exact nofun
  | @cons line lines reply c c₁ c₂ hserve _ _ _ _ _ ih =>
    refine List.forall_mem_cons.mpr ⟨fun value hload => ?_, ih⟩
    by_contra hshape
    obtain ⟨c₂, hraise, -⟩ := serveLine_raises hload (fun r hr => hshape ⟨r, hr⟩) c
    rw [hserve] at hraise
    cases hraise

/-- Whatever bytes a client sends in whole lines, none of which asks for a stream: every line gets
one reply, in order, and the connection stays open, exactly when no line is JSON of another shape
than an object. -/
theorem one_response_per_request (env : ServerEnv) {lines : List Bytes}
    (hlines : ∀ line ∈ lines, newline ∉ line ∧ ¬ AsksForStream env line) (c : ClientConnection) :
    (∃ c', handleClient env (ofLines lines) c = (.ok [], c') ∧ Answered env lines c c' ∧
        c'.isOpen = c.isOpen) ↔
      ∀ line ∈ lines, Answerable env line := by
  constructor
  · rintro ⟨c', -, hanswered, -⟩
    exact hanswered.answerable
  · intro h
    obtain ⟨c', hdrain, hanswered, hopen⟩ :=
      drain_ofLines (fun line hl => ⟨(hlines line hl).1, (hlines line hl).2, h line hl⟩) c
    refine ⟨c', ?_, hanswered, hopen⟩
    rw [handleClient, hdrain]

section Example

def plainFloats : Floats := default

/-- A server that decodes with the standard library, and is left alone by other tasks. -/
def morningServer : ServerEnv where
  rt := asciiRuntime
  floats := plainFloats
  loads line :=
    match (Bytes.decode line).bind (Json.loads plainFloats) with
    | some value => .ok value
    | none => .error "Expecting value"
  request _ := requestAt ten
  meanwhile _ d := d

/-- The line of a value, without its line break. -/
def lineOf (value : Json) : Bytes := (Json.dumps plainFloats value).encode

theorem loads_lineOf (value : Json) (h : value.Plain) :
    morningServer.loads (lineOf value ++ [newline]) = .ok value := by
  have hline : lineOf value ++ [newline] = jsonLine plainFloats value := rfl
  rw [hline]
  simp only [morningServer, decode_jsonLine plainFloats h]

theorem not_asksForStream_of_loads {value : Json}
    (hload : env.loads (line ++ [newline]) = .ok value)
    (h : ∀ request, value = .obj request → actionOf request = some "ping".toList) :
    ¬ AsksForStream env line := by
  rintro ⟨request, hrequest, haction⟩
  have hping := h request (Except.ok.inj (hload.symm.trans hrequest))
  rw [hping] at haction
  exact absurd haction (by decide)

theorem plain_ping : (request "ping").Plain := ⟨List.nodup_singleton _, trivial, trivial⟩

/-- Two pings are answered. -/
theorem one_response_per_request_pings : ∃ c c' : ClientConnection,
    handleClient morningServer (ofLines (List.replicate 2 (lineOf (request "ping")))) c =
        (.ok [], c') ∧
      Answered morningServer (List.replicate 2 (lineOf (request "ping"))) c c' ∧
      c'.isOpen = c.isOpen := by
  obtain ⟨d, -⟩ := exists_morning_daemon asciiRuntime
  have hnot : ¬ AsksForStream morningServer (lineOf (request "ping")) := by
    refine not_asksForStream_of_loads (loads_lineOf _ plain_ping) fun request hrequest => ?_
    cases hrequest
    rfl
  have hanswerable : Answerable morningServer (lineOf (request "ping")) := fun value hvalue =>
    ⟨_, Except.ok.inj (hvalue.symm.trans (loads_lineOf _ plain_ping))⟩
  refine ⟨⟨d, 0, [], true⟩, (one_response_per_request morningServer ?_ _).mpr ?_⟩
  · intro line hline
    obtain rfl : line = lineOf (request "ping") := List.eq_of_mem_replicate hline
    exact ⟨newline_notMem_dumps _ _, hnot⟩
  · intro line hline
    obtain rfl : line = lineOf (request "ping") := List.eq_of_mem_replicate hline
    exact hanswerable

/-- An array is JSON, and it asks for no stream. The client gets no reply, and the connection is
closed. -/
theorem array_unanswered : ∃ c : ClientConnection, Daemon.Reached asciiRuntime c.daemon ∧
    c.isOpen = true ∧ newline ∉ lineOf (.arr []) ∧
    ¬ AsksForStream morningServer (lineOf (.arr [])) ∧
    handleClient morningServer (ofLines [lineOf (.arr [])]) c =
      (.error (.raised .attributeError), { c with linesRead := c.linesRead + 1, isOpen := false }) ∧
    ¬ ∃ c', handleClient morningServer (ofLines [lineOf (.arr [])]) c = (.ok [], c') ∧
        Answered morningServer [lineOf (.arr [])] c c' ∧ c'.isOpen = c.isOpen := by
  obtain ⟨d, hd, -⟩ := exists_morning_daemon asciiRuntime
  have hnot : ¬ AsksForStream morningServer (lineOf (.arr [])) :=
    not_asksForStream_of_loads (loads_lineOf (.arr []) trivial) nofun
  have hline : newline ∉ lineOf (.arr []) := newline_notMem_dumps _ _
  have hend : handleClient morningServer (ofLines [lineOf (.arr [])]) ⟨d, 0, [], true⟩ =
      (.error (.raised .attributeError), ⟨d, 1, [], false⟩) := by
    have hserve : serveLine morningServer (lineOf (.arr [])) ⟨d, 0, [], true⟩ =
        (.error (.raised .attributeError), ⟨d, 1, [], true⟩) := by
      unfold serveLine
      rw [(loads_lineOf (.arr []) trivial)]
      rfl
    have hbytes : ofLines [lineOf (.arr [])] = lineOf (.arr []) ++ newline :: [] := rfl
    rw [handleClient, hbytes, Lines.drain_of_line hline, Exec.bind_of_error hserve]
  refine ⟨⟨d, 0, [], true⟩, hd, rfl, hline, hnot, hend, ?_⟩
  rintro ⟨c', hdone, -⟩
  rw [hend] at hdone
  cases hdone

end Example

end ClientConnection

end FocusGuard
