import FocusGuard.Dns.Server
import FocusGuard.Lib.LengthPrefix
import FocusGuard.Lib.Runs

/-!
# DNS over TCP

`DNSServer._handle_tcp_client` of `focusguard/dns/server.py`: messages come behind their length, and
each is answered before the next one is read. Bytes arrive at any time, in chunks of any size, while
the rest of the server goes on; a reply may take the state of the server at any later time. Behind
each reply the loop waits until the client has taken enough of what was written.

## Main definitions

* `TcpStep`: what happens on a connection.

## Main results

* `tcp_answers_in_order`: which messages have been answered, and what the client reads.
* `tcp_settles`: the loop stops only when nothing is left to answer, or at a client that does not
  take its replies.
-/

namespace FocusGuard

open LengthPrefix

/-- How the loop ends. -/
inductive TcpEnd where
  /-- A message of no bytes has been read. -/
  | emptyMessage
  /-- `IncompleteReadError`, `ConnectionResetError` or `BrokenPipeError`. -/
  | disconnected
  /-- The task dies of an exception that is not caught. -/
  | raised (e : PyError)

inductive TcpTask where
  | reading
  | answering (query : Bytes)
  /-- In `writer.drain()`. -/
  | draining
  | ended (how : TcpEnd)

/-- Both directions of a connection. -/
structure TcpClient where
  unread : Bytes := []
  eof : Bool := false
  task : TcpTask := .reading
  written : Bytes := []
  /-- How many of the bytes written the client has taken. -/
  taken : Nat := 0
  /-- The transport has paused the writer. -/
  paused : Bool := false

/-- A transport pauses its writer above this mark, -/
def highWater : Nat := 65536

/-- and lets it go on at this one. -/
def lowWater : Nat := 16384

namespace TcpClient

/-- The bytes that wait for the client. -/
def buffered (c : TcpClient) : Nat := c.written.length - c.taken

/-- `readexactly(2)`, and as many bytes as they say; `none` when more bytes have to come. -/
def read (c : TcpClient) : Option TcpClient :=
  match take c.unread with
  | some ([], rest) => some { c with unread := rest, task := .ended .emptyMessage }
  | some (query, rest) => some { c with unread := rest, task := .answering query }
  | none => if c.eof then some { c with task := .ended .disconnected } else none

/-- `writer.write(data)`: up to `sent` bytes go out at once, if nothing waits before them. -/
def write (c : TcpClient) (data : Bytes) (sent : Nat) : TcpClient :=
  let taken := if c.buffered = 0 then c.taken + min sent data.length else c.taken
  let written := c.written ++ data
  { c with
    written := written
    taken := taken
    paused := c.paused ∨ highWater < written.length - taken }

/-- The client takes the next `n` bytes. -/
def deliver (c : TcpClient) (n : Nat) : TcpClient :=
  { c with
    taken := c.taken + n
    paused := c.paused ∧ lowWater < c.buffered - n }

/-- What is done with the result of `handle_query`: a reply is written behind its length, if that
fits into two bytes. -/
def reply (c : TcpClient) (sent : Nat) : Except PyError (Option Bytes) → TcpClient
  | .error e => { c with task := .ended (.raised e) }
  | .ok none => { c with task := .reading }
  | .ok (some response) =>
    if response = [] then { c with task := .reading }
    else if response.length < 65536 then
      { c.write (frame response) sent with task := .draining }
    else { c with task := .ended (.raised .structError) }

end TcpClient

inductive TcpEvent where
  | received (chunk : Bytes)
  | eof
  | reads
  | answers (result : Except PyError (Option Bytes))
  | drains
  | delivers (n : Nat)
  /-- Reading or writing fails. -/
  | reset

/-- What `handle_query` returns or raises for the query, in some state of the server. -/
def Answers (rt : Runtime) (query : Bytes) (result : Except PyError (Option Bytes)) : Prop :=
  ∃ s net r, (handleQuery rt s query net r).1 = result

inductive TcpStep (rt : Runtime) : TcpClient → TcpEvent → TcpClient → Prop where
  | received {c : TcpClient} {chunk : Bytes} : c.eof = false →
      TcpStep rt c (.received chunk) { c with unread := c.unread ++ chunk }
  | eof {c : TcpClient} : TcpStep rt c .eof { c with eof := true }
  | reads {c c' : TcpClient} : c.task = .reading → c.read = some c' → TcpStep rt c .reads c'
  | answers {c : TcpClient} {query : Bytes} {result : Except PyError (Option Bytes)} {sent : Nat} :
      c.task = .answering query → Answers rt query result →
      TcpStep rt c (.answers result) (c.reply sent result)
  | drains {c : TcpClient} : c.task = .draining → c.paused = false →
      TcpStep rt c .drains { c with task := .reading }
  | delivers {c : TcpClient} {n : Nat} : n ≤ c.buffered → TcpStep rt c (.delivers n) (c.deliver n)
  | reset {c : TcpClient} : (∀ how, c.task ≠ .ended how) →
      TcpStep rt c .reset { c with task := .ended .disconnected }

namespace TcpEvent

def chunk : TcpEvent → Bytes
  | received chunk => chunk
  | _ => []

def result? : TcpEvent → Option (Except PyError (Option Bytes))
  | answers result => some result
  | _ => none

/-- The task takes a step. -/
def isOwn : TcpEvent → Bool
  | reads => true
  | answers _ => true
  | drains => true
  | _ => false

end TcpEvent

def receivedBytes (es : List TcpEvent) : Bytes := es.flatMap TcpEvent.chunk

def tcpResults (es : List TcpEvent) : List (Except PyError (Option Bytes)) :=
  es.filterMap TcpEvent.result?

/-- The response that is written for a result. -/
def writtenReply : Except PyError (Option Bytes) → Option Bytes
  | .ok (some response) => if response ≠ [] ∧ response.length < 65536 then some response else none
  | _ => none

/-- A result that ends the loop. -/
def Kills (result : Except PyError (Option Bytes)) (e : PyError) : Prop :=
  result = .error e ∨ ∃ response, result = .ok (some response) ∧ 65536 ≤ response.length ∧
    e = .structError

variable {rt : Runtime} {c c' : TcpClient} {es : List TcpEvent} {ev : TcpEvent}

/-! ## The invariant -/

/-- What has been read and not answered, by what the task does. -/
def Abandoned (results : List (Except PyError (Option Bytes))) : TcpTask → List Bytes → Prop
  | .reading, dropped => dropped = []
  | .answering query, dropped => dropped = [query] ∧ query ≠ []
  | .draining, dropped => dropped = []
  | .ended .emptyMessage, dropped => dropped = [[]]
  | .ended .disconnected, dropped => dropped.length ≤ 1
  | .ended (.raised e), dropped =>
    dropped = [] ∧ ∃ front result, results = front ++ [result] ∧ Kills result e

/-- The bytes received are the messages answered, the one that is not, and what is unread. -/
structure TcpInvariant (rt : Runtime) (es : List TcpEvent) (c : TcpClient)
    (queries dropped : List Bytes) : Prop where
  answered : List.Forall₂ (Answers rt) queries (tcpResults es)
  nonempty : [] ∉ queries
  short : ∀ query ∈ queries ++ dropped, query.length < 65536
  received : receivedBytes es = (queries ++ dropped).flatMap frame ++ c.unread
  unanswered : Abandoned (tcpResults es) c.task dropped
  written : c.written = ((tcpResults es).filterMap writtenReply).flatMap frame

theorem receivedBytes_append : receivedBytes (es ++ [ev]) = receivedBytes es ++ ev.chunk := by
  simp [receivedBytes]

theorem tcpResults_append : tcpResults (es ++ [ev]) = tcpResults es ++ ev.result?.toList := by
  cases h : ev.result? <;> simp [tcpResults, h]

/-- The three ways to go on from reading. -/
theorem TcpClient.read_eq_some (h : c.read = some c') :
    (∃ query rest, take c.unread = some (query, rest) ∧ query ≠ [] ∧
        c' = { c with unread := rest, task := .answering query }) ∨
      (∃ rest, take c.unread = some ([], rest) ∧
        c' = { c with unread := rest, task := .ended .emptyMessage }) ∨
      take c.unread = none ∧ c.eof = true ∧ c' = { c with task := .ended .disconnected } := by
  unfold read at h
  split at h
  · next rest htake => exact .inr (.inl ⟨rest, htake, (Option.some.inj h).symm⟩)
  · next query rest hne htake =>
    exact .inl ⟨query, rest, htake, hne, (Option.some.inj h).symm⟩
  · next htake =>
    split at h
    · next heof => exact .inr (.inr ⟨htake, heof, (Option.some.inj h).symm⟩)
    · cases h

/-- What a result does to the connection. -/
theorem TcpClient.reply_spec (c : TcpClient) (sent : Nat)
    (result : Except PyError (Option Bytes)) :
    (c.reply sent result).unread = c.unread ∧ (c.reply sent result).eof = c.eof ∧
      (c.reply sent result).written = c.written ++ (writtenReply result).toList.flatMap frame ∧
      ((c.reply sent result).task = .reading ∨ (c.reply sent result).task = .draining ∨
        ∃ e, (c.reply sent result).task = .ended (.raised e) ∧ Kills result e) := by
  match result with
  | .error e => exact ⟨rfl, rfl, by simp [reply, writtenReply], .inr (.inr ⟨e, rfl, .inl rfl⟩)⟩
  | .ok none => exact ⟨rfl, rfl, by simp [reply, writtenReply], .inl rfl⟩
  | .ok (some response) =>
    unfold reply writtenReply
    by_cases hempty : response = []
    · simp [hempty]
    · by_cases hlen : response.length < 65536
      · simp [hempty, hlen, write]
      · have hkills : Kills (.ok (some response)) .structError :=
          .inr ⟨response, rfl, not_lt.mp hlen, rfl⟩
        simp [hempty, hlen, hkills]

namespace TcpInvariant

variable {queries dropped : List Bytes}

theorem init : TcpInvariant rt [] {} [] [] where
  answered := .nil
  nonempty := List.not_mem_nil
  short := by simp
  received := rfl
  unanswered := rfl
  written := rfl

/-- A message is read. -/
theorem taken (h : TcpInvariant rt es c queries []) {query rest : Bytes}
    (htake : take c.unread = some (query, rest)) :
    (∀ q ∈ queries ++ [query], q.length < 65536) ∧
      receivedBytes es = (queries ++ [query]).flatMap frame ++ rest := by
  obtain ⟨hunread, hlen⟩ := eq_of_take htake
  refine ⟨fun q hq => ?_, ?_⟩
  · rcases List.mem_append.mp hq with hq | hq
    · exact h.short q (by simpa using hq)
    · exact List.mem_singleton.mp hq ▸ hlen
  · rw [h.received, hunread]
    simp

theorem step (h : TcpInvariant rt es c queries dropped) (hstep : TcpStep rt c ev c') :
    ∃ queries' dropped', TcpInvariant rt (es ++ [ev]) c' queries' dropped' := by
  have hsame : ev.result? = none → tcpResults (es ++ [ev]) = tcpResults es := fun hnone => by
    rw [tcpResults_append, hnone, Option.toList_none, List.append_nil]
  have hbytes : ev.chunk = [] → receivedBytes (es ++ [ev]) = receivedBytes es := fun hnil => by
    rw [receivedBytes_append, hnil, List.append_nil]
  cases hstep with
  | @received _ heof =>
    refine ⟨queries, dropped, ?_⟩
    refine ⟨?_, h.nonempty, h.short, ?_, ?_, ?_⟩
    · exact hsame rfl ▸ h.answered
    · rw [receivedBytes_append, h.received, List.append_assoc]
      rfl
    · exact hsame rfl ▸ h.unanswered
    · exact hsame rfl ▸ h.written
  | eof =>
    refine ⟨queries, dropped, ?_, h.nonempty, h.short, ?_, ?_, ?_⟩
    · exact hsame rfl ▸ h.answered
    · exact (hbytes rfl).trans h.received
    · exact hsame rfl ▸ h.unanswered
    · exact hsame rfl ▸ h.written
  | reads htask hread =>
    obtain rfl : dropped = [] := by
      have hunanswered := h.unanswered
      rwa [htask] at hunanswered
    rcases TcpClient.read_eq_some hread with ⟨query, rest, htake, hne, rfl⟩ | ⟨rest, htake, rfl⟩ |
      ⟨-, -, rfl⟩
    · obtain ⟨hshort, hreceived⟩ := h.taken htake
      exact ⟨queries, [query], hsame rfl ▸ h.answered, h.nonempty, hshort,
        (hbytes rfl).trans hreceived, ⟨rfl, hne⟩, hsame rfl ▸ h.written⟩
    · obtain ⟨hshort, hreceived⟩ := h.taken htake
      exact ⟨queries, [[]], hsame rfl ▸ h.answered, h.nonempty, hshort,
        (hbytes rfl).trans hreceived, rfl, hsame rfl ▸ h.written⟩
    · exact ⟨queries, [], hsame rfl ▸ h.answered, h.nonempty, h.short,
        (hbytes rfl).trans h.received, Nat.zero_le 1, hsame rfl ▸ h.written⟩
  | @answers query result sent htask hanswers =>
    obtain ⟨rfl, hne⟩ : dropped = [query] ∧ query ≠ [] := by
      have hunanswered := h.unanswered
      rwa [htask] at hunanswered
    obtain ⟨hunread, -, hwritten, hnext⟩ := c.reply_spec sent result
    have hresults : tcpResults (es ++ [.answers result]) = tcpResults es ++ [result] :=
      tcpResults_append
    refine ⟨queries ++ [query], [], ?_, ?_, ?_, ?_, ?_, ?_⟩
    · rw [hresults]
      exact List.rel_append h.answered (.cons hanswers .nil)
    · simp [h.nonempty, hne.symm]
    · simpa using h.short
    · rw [hbytes rfl, h.received, hunread, List.append_nil]
    · rw [hresults]
      rcases hnext with hreading | hdraining | ⟨e, hraised, hkills⟩
      · rw [hreading]
        rfl
      · rw [hdraining]
        rfl
      · rw [hraised]
        exact ⟨rfl, tcpResults es, result, rfl, hkills⟩
    · rw [hresults, hwritten, h.written, List.filterMap_append, List.flatMap_append]
      cases hreply : writtenReply result <;> simp [hreply]
  | drains htask _ =>
    obtain rfl : dropped = [] := by
      have hunanswered := h.unanswered
      rwa [htask] at hunanswered
    exact ⟨queries, [], hsame rfl ▸ h.answered, h.nonempty, h.short, (hbytes rfl).trans h.received,
      rfl, hsame rfl ▸ h.written⟩
  | delivers _ =>
    exact ⟨queries, dropped, hsame rfl ▸ h.answered, h.nonempty, h.short,
      (hbytes rfl).trans h.received, hsame rfl ▸ h.unanswered, hsame rfl ▸ h.written⟩
  | reset hopen =>
    refine ⟨queries, dropped, hsame rfl ▸ h.answered, h.nonempty, h.short,
      (hbytes rfl).trans h.received, ?_, hsame rfl ▸ h.written⟩
    have hunanswered := h.unanswered
    match htask : c.task with
    | .reading =>
      rw [htask] at hunanswered
      obtain rfl : dropped = [] := hunanswered
      exact Nat.zero_le 1
    | .answering query =>
      rw [htask] at hunanswered
      obtain ⟨rfl, -⟩ := hunanswered
      exact Nat.le_refl 1
    | .draining =>
      rw [htask] at hunanswered
      obtain rfl : dropped = [] := hunanswered
      exact Nat.zero_le 1
    | .ended how => exact absurd htask (hopen how)

theorem of_run (hrun : Run (TcpStep rt) {} es c) :
    ∃ queries dropped, TcpInvariant rt es c queries dropped := by
  refine hrun.history (I := fun es c => ∃ queries dropped, TcpInvariant rt es c queries dropped)
    ?_ ⟨[], [], init⟩
  rintro es c ev c' ⟨queries, dropped, h⟩ hstep
  exact h.step hstep

/-- The complete messages of what has been received. -/
theorem split_received (h : TcpInvariant rt es c queries dropped) :
    (split (receivedBytes es)).1 = queries ++ dropped ++ (split c.unread).1 := by
  rw [h.received, split_flatMap_append h.short]

end TcpInvariant

/-- After any events on a connection, the messages that have been answered are the first of those
received, in their order and each once, and all of them but those that the loop has not come to, or
has read when it ended; and the client reads the replies that fit into a message, in this order,
each from a result for its query, and nothing else. -/
theorem tcp_answers_in_order (hrun : Run (TcpStep rt) {} es c) :
    ∃ queries dropped, List.Forall₂ (Answers rt) queries (tcpResults es) ∧ [] ∉ queries ∧
      (split (receivedBytes es)).1 = queries ++ dropped ++ (split c.unread).1 ∧
      Abandoned (tcpResults es) c.task dropped ∧
      split c.written = ((tcpResults es).filterMap writtenReply, []) := by
  obtain ⟨queries, dropped, h⟩ := TcpInvariant.of_run hrun
  refine ⟨queries, dropped, h.answered, h.nonempty, h.split_received, h.unanswered, ?_⟩
  rw [h.written]
  refine split_flatMap fun response hresponse => ?_
  obtain ⟨result, -, hreply⟩ := List.mem_filterMap.mp hresponse
  unfold writtenReply at hreply
  split at hreply
  · split at hreply
    · next hlen => exact Option.some.inj hreply ▸ hlen.2
    · cases hreply
  · cases hreply

section Example

/-- The reply to two bytes. -/
def shortReply : Bytes := [7, 7, 129, 1, 0, 0, 0, 0, 0, 0, 0, 0]

/-- A message that comes in two chunks, and half of the next one. -/
def chunkedEvents : List TcpEvent :=
  [.received [0], .received [2, 7, 7, 0], .reads, .answers (.ok (some shortReply))]

def idleSinkhole : DomainSinkhole where
  blockDoh := false
  blockedTrees := ∅
  allowedTrees := ∅
  allowlistMode := false

def idleNetwork : Network where
  now := 0
  later := 0
  queryUdp _ _ _ := .timeout

theorem answers_short : Answers asciiRuntime [7, 7] (.ok (some shortReply)) :=
  ⟨idleSinkhole, idleNetwork, .init [] true, rfl⟩

/-- The connection behind its first reply, of which nothing has gone out yet. -/
def repliedClient : TcpClient where
  unread := [0]
  task := .draining
  written := frame shortReply

theorem chunkedEvents_run : Run (TcpStep asciiRuntime) {} chunkedEvents repliedClient := by
  let c₀ : TcpClient := { unread := [0, 2, 7, 7, 0] }
  let c : TcpClient := { unread := [0], task := .answering [7, 7] }
  have hreceived : Run (TcpStep asciiRuntime) {} [.received [0], .received [2, 7, 7, 0]] c₀ :=
    .cons (.received rfl) (.single (.received rfl))
  have hread : TcpStep asciiRuntime c₀ .reads c := .reads rfl (by
    have hshort : ([7, 7] : Bytes).length < 65536 := by simp
    have htake : take c₀.unread = some ([7, 7], [0]) := take_frame hshort [0]
    unfold TcpClient.read
    rw [htake])
  have hreply : TcpStep asciiRuntime c (.answers (.ok (some shortReply)))
      (c.reply 0 (.ok (some shortReply))) := .answers rfl answers_short
  exact hreceived.append (.cons hread (.single hreply))

/-- The client reads one reply. -/
theorem tcp_answers_in_order_chunks : ∃ c, Run (TcpStep asciiRuntime) {} chunkedEvents c ∧
    split c.written = ([shortReply], []) := by
  obtain ⟨-, -, -, -, -, -, hwritten⟩ := tcp_answers_in_order chunkedEvents_run
  exact ⟨_, chunkedEvents_run, hwritten⟩

end Example

/-! ## The writer -/

/-- A writer is paused only while more waits for the client than the lower mark. -/
structure TcpClient.Flows (c : TcpClient) : Prop where
  taken : c.taken ≤ c.written.length
  paused : c.paused = true → lowWater < c.buffered

namespace TcpClient.Flows

theorem init : ({} : TcpClient).Flows where
  taken := le_rfl
  paused := nofun

/-- What goes out at once is not more than there is. -/
theorem taken_write (c : TcpClient) (data : Bytes) (sent : Nat) :
    c.taken ≤ (c.write data sent).taken ∧ (c.write data sent).taken ≤ c.taken + data.length ∧
      (0 < c.buffered → (c.write data sent).taken = c.taken) := by
  unfold TcpClient.write
  by_cases hempty : c.buffered = 0
  · rw [if_pos hempty]
    refine ⟨Nat.le_add_right _ _, Nat.add_le_add_left (Nat.min_le_right _ _) _, fun hpos => ?_⟩
    exact absurd hempty hpos.ne'
  · rw [if_neg hempty]
    exact ⟨le_rfl, Nat.le_add_right _ _, fun _ => rfl⟩

theorem write (h : c.Flows) (data : Bytes) (sent : Nat) : (c.write data sent).Flows := by
  obtain ⟨-, hle, hsame⟩ := taken_write c data sent
  have hlength : (c.write data sent).written.length = c.written.length + data.length :=
    List.length_append
  refine ⟨hlength ▸ hle.trans (Nat.add_le_add_right h.taken _), fun hpaused => ?_⟩
  rcases of_decide_eq_true hpaused with hpaused | hfull
  · have hlow := h.paused hpaused
    unfold buffered at hlow ⊢
    rw [hlength, hsame (Nat.zero_lt_of_lt hlow)]
    omega
  · exact (by decide : lowWater < highWater).trans hfull

theorem deliver (h : c.Flows) {n : Nat} (hn : n ≤ c.buffered) : (c.deliver n).Flows := by
  have htaken := h.taken
  unfold buffered at hn
  refine ⟨?_, fun hpaused => ?_⟩
  · simp only [TcpClient.deliver]
    omega
  · have hlow := (of_decide_eq_true hpaused).2
    unfold buffered at hlow ⊢
    simp only [TcpClient.deliver]
    omega

theorem reply (h : c.Flows) (sent : Nat) (result : Except PyError (Option Bytes)) :
    (c.reply sent result).Flows := by
  unfold TcpClient.reply
  split
  · exact ⟨h.taken, h.paused⟩
  · exact ⟨h.taken, h.paused⟩
  · next response =>
    split
    · exact ⟨h.taken, h.paused⟩
    · split
      · exact ⟨(h.write _ sent).taken, (h.write _ sent).paused⟩
      · exact ⟨h.taken, h.paused⟩

theorem step (h : c.Flows) (hstep : TcpStep rt c ev c') : c'.Flows := by
  cases hstep with
  | reads _ hread =>
    rcases TcpClient.read_eq_some hread with ⟨_, _, -, -, rfl⟩ | ⟨_, -, rfl⟩ | ⟨-, -, rfl⟩
    all_goals exact ⟨h.taken, h.paused⟩
  | answers => exact h.reply _ _
  | delivers hn => exact h.deliver hn
  | received | eof | drains | reset => exact ⟨h.taken, h.paused⟩

theorem of_run (hrun : Run (TcpStep rt) {} es c) : c.Flows :=
  hrun.preserves (fun _ _ _ h hstep => h.step hstep) init

end TcpClient.Flows

/-! ## The loop goes on -/

/-- A bound on the steps that the task can take by itself. -/
def TcpClient.fuel (c : TcpClient) : Nat :=
  c.unread.length +
    match c.task with
    | .reading => 1
    | .answering _ => 3
    | .draining => 2
    | .ended _ => 0

theorem TcpClient.fuel_le (c : TcpClient) : c.fuel ≤ c.unread.length + 3 := by
  unfold fuel
  split <;> omega

theorem length_of_take_query {query rest : Bytes} (h : take c.unread = some (query, rest)) :
    rest.length + query.length + 2 = c.unread.length := by
  rw [(eq_of_take h).1]
  simp only [frame, List.length_append, Bytes.length_word16]
  omega

/-- Every step of the task takes fuel, and only what the client sends adds to it. -/
theorem fuel_step (hstep : TcpStep rt c ev c') :
    c'.fuel + (if ev.isOwn then 1 else 0) ≤ c.fuel + ev.chunk.length := by
  cases hstep with
  | received =>
    simp only [TcpClient.fuel, TcpEvent.chunk, TcpEvent.isOwn, List.length_append,
      Bool.false_eq_true, if_false]
    omega
  | reads htask hread =>
    rcases TcpClient.read_eq_some hread with ⟨query, rest, htake, hne, rfl⟩ | ⟨rest, htake, rfl⟩ |
      ⟨-, -, rfl⟩
    · have hlen := length_of_take_query htake
      have hpos := List.length_pos_iff.mpr hne
      simp only [TcpClient.fuel, TcpEvent.chunk, TcpEvent.isOwn, htask, if_true, List.length_nil]
      omega
    · have hlen := length_of_take_query htake
      simp only [TcpClient.fuel, TcpEvent.chunk, TcpEvent.isOwn, htask, if_true, List.length_nil]
        at hlen ⊢
      omega
    · simp [TcpClient.fuel, TcpEvent.chunk, TcpEvent.isOwn, htask]
  | @answers query result sent htask _ =>
    obtain ⟨hunread, -, -, hnext⟩ := c.reply_spec sent result
    rcases hnext with hreading | hdraining | ⟨e, hraised, -⟩
    · simp [TcpClient.fuel, TcpEvent.chunk, TcpEvent.isOwn, htask, hunread, hreading]
    · simp [TcpClient.fuel, TcpEvent.chunk, TcpEvent.isOwn, htask, hunread, hdraining]
    · simp [TcpClient.fuel, TcpEvent.chunk, TcpEvent.isOwn, htask, hunread, hraised]
  | drains htask _ => simp [TcpClient.fuel, TcpEvent.chunk, TcpEvent.isOwn, htask]
  | eof => simp [TcpClient.fuel, TcpEvent.chunk, TcpEvent.isOwn]
  | delivers => simp [TcpClient.fuel, TcpClient.deliver, TcpEvent.chunk, TcpEvent.isOwn]
  | reset => simp [TcpClient.fuel, TcpEvent.chunk, TcpEvent.isOwn]

theorem fuel_run (hrun : Run (TcpStep rt) c es c') :
    c'.fuel + es.countP TcpEvent.isOwn ≤ c.fuel + (receivedBytes es).length := by
  induction hrun with
  | nil => simp [receivedBytes]
  | cons hstep _ ih =>
    have hfirst := fuel_step hstep
    rw [List.countP_cons, receivedBytes, List.flatMap_cons, List.length_append]
    rw [receivedBytes] at ih
    omega

/-- The task takes a step by itself, and a query gets the result that is picked for it. -/
def Picked (pick : Bytes → Except PyError (Option Bytes)) (ev : TcpEvent) : Prop :=
  ev = .reads ∨ ev = .drains ∨ ∃ query, ev = .answers (pick query)

theorem Picked.isOwn {pick : Bytes → Except PyError (Option Bytes)} (h : Picked pick ev) :
    ev.isOwn = true := by
  rcases h with rfl | rfl | ⟨query, rfl⟩ <;> rfl

/-- The task is done, or it waits for bytes and all messages have been answered. -/
def Rests (rt : Runtime) (es : List TcpEvent) (c : TcpClient) : Prop :=
  (∃ how, c.task = .ended how) ∨
    c.task = .reading ∧ c.eof = false ∧
      List.Forall₂ (Answers rt) (split (receivedBytes es)).1 (tcpResults es)

/-- The task waits for the client to take what has been written. -/
def TcpClient.Waits (c : TcpClient) : Prop := c.task = .draining ∧ lowWater < c.buffered

/-- Where the task reads and there is no message, all have been answered. -/
theorem TcpInvariant.rests {queries dropped : List Bytes} (h : TcpInvariant rt es c queries dropped)
    (htask : c.task = .reading) (hread : c.read = none) : Rests rt es c := by
  have hunanswered := h.unanswered
  rw [htask] at hunanswered
  obtain rfl : dropped = [] := hunanswered
  unfold TcpClient.read at hread
  split at hread
  · cases hread
  · cases hread
  · next htake =>
    split at hread
    · cases hread
    · next heof =>
      refine .inr ⟨htask, by simpa using heof, ?_⟩
      rw [h.split_received, split_of_none htake, List.append_nil, List.append_nil]
      exact h.answered

/-- The task goes on, or it rests, or it waits for the client. -/
theorem goes_on (hrun : Run (TcpStep rt) {} es c) {pick : Bytes → Except PyError (Option Bytes)}
    (hpick : ∀ query, Answers rt query (pick query)) :
    (∃ ev c', TcpStep rt c ev c' ∧ Picked pick ev) ∨ Rests rt es c ∨ c.Waits := by
  obtain ⟨queries, dropped, h⟩ := TcpInvariant.of_run hrun
  match htask : c.task with
  | .ended how => exact .inr (.inl (.inl ⟨how, htask⟩))
  | .answering query =>
    exact .inl ⟨_, c.reply 0 _, .answers htask (hpick query), .inr (.inr ⟨query, rfl⟩)⟩
  | .draining =>
    cases hpaused : c.paused with
    | false => exact .inl ⟨_, _, .drains htask hpaused, .inr (.inl rfl)⟩
    | true => exact .inr (.inr ⟨htask, (TcpClient.Flows.of_run hrun).paused hpaused⟩)
  | .reading =>
    cases hread : c.read with
    | some c' => exact .inl ⟨_, c', .reads htask hread, .inl rfl⟩
    | none => exact .inr (.inl (h.rests htask hread))

/-- A client that takes all that waits for it lets the task go on. -/
theorem drains_of_waits (rt : Runtime) (hwaits : c.Waits) : ∃ c',
    Run (TcpStep rt) c [.delivers c.buffered, .drains] c' ∧ c'.fuel < c.fuel := by
  have hdelivers : TcpStep rt c (.delivers c.buffered) (c.deliver c.buffered) := .delivers le_rfl
  have hdrains : TcpStep rt (c.deliver c.buffered) .drains
      { c.deliver c.buffered with task := .reading } :=
    .drains hwaits.1 (by simp [TcpClient.deliver])
  refine ⟨_, .cons hdelivers (.single hdrains), ?_⟩
  simp [TcpClient.fuel, TcpClient.deliver, hwaits.1]

theorem settles {pick : Bytes → Except PyError (Option Bytes)}
    (hpick : ∀ query, Answers rt query (pick query)) (hrun : Run (TcpStep rt) {} es c) :
    ∃ es' c', Run (TcpStep rt) c es' c' ∧
      (∀ ev ∈ es', Picked pick ev ∨ ∃ n, ev = .delivers n) ∧ Rests rt (es ++ es') c' := by
  induction hn : c.fuel using Nat.strongRecOn generalizing c es with
  | _ n ih =>
    subst hn
    have hgo : ∀ {es₁ c₁}, Run (TcpStep rt) c es₁ c₁ → c₁.fuel < c.fuel →
        (∀ ev ∈ es₁, Picked pick ev ∨ ∃ n, ev = .delivers n) →
        ∃ es' c', Run (TcpStep rt) c es' c' ∧
          (∀ ev ∈ es', Picked pick ev ∨ ∃ n, ev = .delivers n) ∧ Rests rt (es ++ es') c' := by
      intro es₁ c₁ hrun₁ hlt hes₁
      obtain ⟨es₂, c₂, hrun₂, hes₂, hrests⟩ := ih _ hlt (hrun.append hrun₁) rfl
      refine ⟨es₁ ++ es₂, c₂, hrun₁.append hrun₂, List.forall_mem_append.mpr ⟨hes₁, hes₂⟩, ?_⟩
      rwa [← List.append_assoc]
    rcases goes_on hrun hpick with ⟨ev, c', hstep, hpicked⟩ | hrests | hwaits
    · refine hgo (.single hstep) ?_ fun ev' hev' => .inl (List.mem_singleton.mp hev' ▸ hpicked)
      have hfuel := fuel_step hstep
      have hchunk : ev.chunk = [] := by rcases hpicked with rfl | rfl | ⟨query, rfl⟩ <;> rfl
      rw [hpicked.isOwn, hchunk] at hfuel
      simpa [Nat.succ_le_iff] using hfuel
    · exact ⟨[], c, .nil c, by simp, by rwa [List.append_nil]⟩
    · obtain ⟨c', hdrained, hlt⟩ := drains_of_waits rt hwaits
      refine hgo hdrained hlt ?_
      simp [Picked]

/-- The loop does not stall: from every state of a connection and whatever else happens, the task
takes no more steps by itself than there are bytes unread or still to come, and three; whatever the
server answers, it can go on wherever it neither rests nor waits for the client; and if the client
takes what is written it comes to rest, and has ended or answered all messages received. -/
theorem tcp_settles (hrun : Run (TcpStep rt) {} es c)
    {pick : Bytes → Except PyError (Option Bytes)}
    (hpick : ∀ query, Answers rt query (pick query)) :
    (∀ es' c', Run (TcpStep rt) c es' c' →
      es'.countP TcpEvent.isOwn ≤ c.unread.length + (receivedBytes es').length + 3) ∧
    ((∃ ev c', TcpStep rt c ev c' ∧ Picked pick ev) ∨ Rests rt es c ∨ c.Waits) ∧
    ∃ es' c', Run (TcpStep rt) c es' c' ∧
      (∀ ev ∈ es', Picked pick ev ∨ ∃ n, ev = .delivers n) ∧ Rests rt (es ++ es') c' := by
  refine ⟨fun es' c' hrun' => ?_, goes_on hrun hpick, settles hpick hrun⟩
  have hfuel := fuel_run hrun'
  have hbound := c.fuel_le
  omega

/-- Behind the first reply the loop goes on, and it stops at the half of a message. -/
theorem tcp_settles_chunks :
    (∀ es' c', Run (TcpStep asciiRuntime) repliedClient es' c' →
      es'.countP TcpEvent.isOwn ≤ (receivedBytes es').length + 4) ∧
    (∃ ev c', TcpStep asciiRuntime repliedClient ev c' ∧ ev.isOwn = true) ∧
    ∃ es' c', Run (TcpStep asciiRuntime) repliedClient es' c' ∧
      Rests asciiRuntime (chunkedEvents ++ es') c' := by
  have hpick : ∀ query, Answers asciiRuntime query
      (handleQuery asciiRuntime idleSinkhole query idleNetwork (.init [] true)).1 :=
    fun _ => ⟨idleSinkhole, idleNetwork, .init [] true, rfl⟩
  obtain ⟨hbound, hgoes, es', c', hrun, -, hrests⟩ := tcp_settles chunkedEvents_run hpick
  refine ⟨fun es' c' hrun' => ?_, ?_, es', c', hrun, hrests⟩
  · have hcount := hbound es' c' hrun'
    have hunread : repliedClient.unread.length = 1 := rfl
    omega
  · rcases hgoes with ⟨ev, c', hstep, hpicked⟩ | (⟨how, hended⟩ | ⟨hreading, -⟩) | ⟨-, hwaits⟩
    · exact ⟨ev, c', hstep, hpicked.isOwn⟩
    · cases hended
    · cases hreading
    · exact absurd hwaits (by decide)

end FocusGuard
