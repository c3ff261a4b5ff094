import FocusGuard.Lib.Lines
import FocusGuard.Service.StreamMessages
import FocusGuard.Runtime

/-!
# Monitor streams in the client

`stream_monitor` and `stream_packet_monitor` of `focusguard/cli/client.py`, which differ in the
action they ask for and in the key under which they find what they yield. The chunks are what
`recv` returns one after the other.

## Main results

* `drain_wire`: a buffer is decoded line by line.
* `stream_chunk_independent`: what is yielded does not depend on the chunks.
-/

namespace FocusGuard

variable (fl : Floats)

structure MonitorClient where
  /-- The bytes written to the socket. -/
  sent : Bytes := []
  yielded : List Json := []

namespace MonitorClient

def send (data : Bytes) : Exec PyError MonitorClient Unit :=
  Exec.modify fun c => { c with sent := c.sent ++ data }

def yield (value : Json) : Exec PyError MonitorClient Unit :=
  Exec.modify fun c => { c with yielded := c.yielded ++ [value] }

end MonitorClient

/-- The request; `params or {}`. -/
def monitorRequest (action : Text) (params : Json) : Bytes :=
  jsonLine fl (.obj [
    ("action", .str action), ("params", if params.truthy then params else .obj [])])

/-- What an object has for the caller: nothing if it is a heartbeat. -/
def delivered (key : Text) (data : List (Text × Json)) : Option Json :=
  if ((Json.lookup data "heartbeat").getD .null).truthy then none else Json.lookup data key

/-- The body of the inner loop. A line that cannot be decoded is skipped; a value that is no object
has no `get`. -/
def handleLine (key : Text) (line : Bytes) : Exec PyError MonitorClient Unit :=
  if line = [] then pure ()
  else
    match (Bytes.decode line).bind (Json.loads fl) with
    | none => pure ()
    | some (.obj data) =>
      match delivered key data with
      | none => pure ()
      | some value => MonitorClient.yield value
    | some _ => Exec.throw .attributeError

/-- Ask for a stream, and yield what comes under a key. -/
def streamUnder (action key : Text) (params : Json) (chunks : List Bytes) :
    Exec PyError MonitorClient Unit := do
  MonitorClient.send (monitorRequest fl action params)
  let _ ← Lines.receive newline (handleLine fl key) chunks []
  pure ()

/-- `stream_monitor(params)`. -/
def streamMonitor (params : Json) (chunks : List Bytes) : Exec PyError MonitorClient Unit :=
  streamUnder fl "monitor" "event" params chunks

/-- `stream_packet_monitor(params)`. -/
def streamPacketMonitor (params : Json) (chunks : List Bytes) : Exec PyError MonitorClient Unit :=
  streamUnder fl "packet_monitor" "packet" params chunks

/-! ## Lines -/

variable {fl} {key : Text} {ms : List StreamMessage} {rest : Bytes}

theorem encode_dumps_ne_nil {v : Json} (h : v.Plain) : (Json.dumps fl v).encode ≠ [] := by
  intro hnil
  have hread : Bytes.decode ([] : Bytes) = some (Json.dumps fl v) := by
    rw [← hnil, Bytes.decode_encode]
  obtain ⟨c, t, hc, -⟩ := Json.dumps_cons fl h
  rw [hc] at hread
  cases hread

/-- The line of an object yields what the object has. -/
theorem handleLine_dumps {data : List (Text × Json)} (h : (Json.obj data).Plain)
    (c : MonitorClient) : handleLine fl key (Json.dumps fl (.obj data)).encode c =
      (.ok (), { c with yielded := c.yielded ++ (delivered key data).toList }) := by
  have hread : (Bytes.decode (Json.dumps fl (.obj data)).encode).bind (Json.loads fl) =
      some (.obj data) := by
    rw [Bytes.decode_encode, Option.bind_some, Json.loads_dumps fl h]
  rw [handleLine, if_neg (encode_dumps_ne_nil h)]
  simp only [hread]
  cases delivered key data with
  | none => simp
  | some value => rfl

/-- Whole messages are handled one by one, and what is behind them stays in the buffer. -/
theorem drain_wire (hrest : newline ∉ rest) (c : MonitorClient) :
    Lines.drain newline (handleLine fl key) (wire fl ms ++ rest) c = (.ok rest,
      { c with yielded := c.yielded ++ ms.filterMap fun m => delivered key m.members }) := by
  induction ms generalizing c with
  | nil => simp [wire, Lines.drain_of_notMem hrest]
  | cons m ms ih =>
    have hline : wire fl (m :: ms) ++ rest =
        (Json.dumps fl (.obj m.members)).encode ++ newline :: (wire fl ms ++ rest) := by
      simp [wire, StreamMessage.line_eq, jsonLine]
    rw [hline, Lines.drain_of_line (newline_notMem_dumps fl _),
      Exec.bind_of_ok (handleLine_dumps m.plain c), ih]
    cases h : delivered key m.members with
    | none => simp [h]
    | some value => simp [h]

/-! ## The streams -/

theorem streamUnder_wire {action : Text} {params : Json} {chunks : List Bytes}
    (hchunks : ∀ chunk ∈ chunks, chunk ≠ []) (hrest : newline ∉ rest)
    (hcut : chunks.flatten = wire fl ms ++ rest) :
    streamUnder fl action key params chunks {} = (.ok (),
      ⟨monitorRequest fl action params, ms.filterMap fun m => delivered key m.members⟩) := by
  have hsend : MonitorClient.send (monitorRequest fl action params) {} =
      (.ok (), ⟨monitorRequest fl action params, []⟩) := rfl
  rw [streamUnder, Exec.bind_of_ok hsend, Lines.receive_eq_drain hchunks, hcut,
    Exec.bind_of_ok (drain_wire hrest _)]
  rfl

namespace StreamMessage

/-- The event of a message. -/
def event? : StreamMessage → Option Json
  | .event e => some e.toDict
  | _ => none

def packet? : StreamMessage → Option Json
  | .packet pkt => some pkt.toDict
  | _ => none

theorem delivered_event (m : StreamMessage) : delivered "event" m.members = m.event? := by
  cases m <;> rfl

theorem delivered_packet (m : StreamMessage) : delivered "packet" m.members = m.packet? := by
  cases m <;> rfl

end StreamMessage

/-- Live stream decoding does not depend on chunking: whatever messages the daemon has written, and
however their bytes are cut into chunks, `stream_monitor` has yielded the events and
`stream_packet_monitor` the packets of the messages that are complete, in order and once each. -/
theorem stream_chunk_independent (fl : Floats) (params : Json) {ms : List StreamMessage}
    {rest : Bytes} {chunks : List Bytes} (hchunks : ∀ chunk ∈ chunks, chunk ≠ [])
    (hrest : newline ∉ rest) (hcut : chunks.flatten = wire fl ms ++ rest) :
    streamMonitor fl params chunks {} =
        (.ok (), ⟨monitorRequest fl "monitor" params, ms.filterMap StreamMessage.event?⟩) ∧
      streamPacketMonitor fl params chunks {} =
        (.ok (), ⟨monitorRequest fl "packet_monitor" params,
          ms.filterMap StreamMessage.packet?⟩) := by
  have hevents : (fun m : StreamMessage => delivered "event" m.members) = StreamMessage.event? :=
    funext StreamMessage.delivered_event
  have hpackets : (fun m : StreamMessage => delivered "packet" m.members) =
      StreamMessage.packet? := funext StreamMessage.delivered_packet
  constructor
  · rw [streamMonitor, streamUnder_wire hchunks hrest hcut, hevents]
  · rw [streamPacketMonitor, streamUnder_wire hchunks hrest hcut, hpackets]

section Example

/-- A confirmation, a heartbeat and an event, and the beginning of another heartbeat. -/
def eventStream (fl : Floats) : Bytes :=
  wire fl [.confirmation, .heartbeat, .event blockedEvent] ++ [123, 34]

/-- The stream comes in byte by byte. -/
theorem stream_chunk_independent_bytewise : ∃ fl : Floats,
    streamMonitor fl .null ((eventStream fl).map fun b => [b]) {} =
      (.ok (), ⟨monitorRequest fl "monitor" .null, [blockedEvent.toDict]⟩) := by
  have hcut : ∀ fl : Floats, ((eventStream fl).map fun b => [b]).flatten =
      wire fl [.confirmation, .heartbeat, .event blockedEvent] ++ [123, 34] := by
    intro fl
    rw [← List.flatMap_def, List.flatMap_singleton']
    rfl
  have hrest : newline ∉ ([123, 34] : Bytes) := by decide
  refine ⟨default, (stream_chunk_independent _ _ ?_ hrest (hcut _)).1⟩
  intro chunk hchunk
  obtain ⟨b, -, rfl⟩ := List.mem_map.mp hchunk
  exact List.cons_ne_nil b []

end Example

end FocusGuard
