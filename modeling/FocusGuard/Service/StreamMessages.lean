import FocusGuard.Lib.JsonRoundTrip
import FocusGuard.Network.Packets

/-!
# What a monitor connection carries

The lines that `_stream_monitor` and `_stream_packet_monitor` of `focusguard/service/ipc_server.py`
write: a confirmation or a refusal, heartbeats, and events or packets.

## Main results

* `StreamMessage.plain`: every message is read back as it was written.
* `StreamMessage.line_eq`: a message is one line.
-/

namespace FocusGuard

/-- `FlowEvent` of `focusguard/service/event_bus.py`. -/
structure FlowEvent where
  timestamp : Text
  clientIp : Text
  domain : Text
  qtype : Int
  action : Text
  reason : Text
  sessionActive : Bool := false
  service : Option Text := none
  bypassType : Option Text := none

/-- A query that was blocked. -/
def blockedEvent : FlowEvent where
  timestamp := "2024-01-01T12:00:00"
  clientIp := "192.168.1.23"
  domain := "youtube.com"
  qtype := 1
  action := "BLOCKED"
  reason := "session"
  sessionActive := true
  service := some "youtube"

def FlowEvent.toDict (e : FlowEvent) : Json := .obj [
  ("timestamp", .str e.timestamp), ("client_ip", .str e.clientIp), ("domain", .str e.domain),
  ("qtype", .int e.qtype), ("action", .str e.action), ("reason", .str e.reason),
  ("session_active", .bool e.sessionActive), ("service", .ofOptText e.service),
  ("bypass_type", .ofOptText e.bypassType)]

inductive StreamMessage where
  | confirmation
  | notInitialized
  | heartbeat
  | event (e : FlowEvent)
  | packet (pkt : PacketMetadata)

/-- `b"\n"`. -/
def newline : UInt8 := 10

variable (fl : Floats)

/-- `json.dumps(value).encode("utf-8") + b"\n"`. -/
def jsonLine (value : Json) : Bytes := (Json.dumps fl value).encode ++ [newline]

/-- The line of a value has no other line break. -/
theorem newline_notMem_dumps (v : Json) : newline ∉ (Json.dumps fl v).encode := by
  intro hmem
  exact absurd (Json.mem_encode_dumps fl hmem).1 (by decide)

/-- The line of a value is decoded to the value. -/
theorem decode_jsonLine {v : Json} (h : v.Plain) :
    (Bytes.decode (jsonLine fl v)).bind (Json.loads fl) = some v := by
  have hnewline : [newline] = Text.encode ['\n'] := by decide +kernel
  have hwhite : ∀ c ∈ (['\n'] : Text), Json.isWhite c = true := by decide
  rw [jsonLine, hnewline, ← Text.encode_append, Bytes.decode_encode, Option.bind_some,
    Json.loads_dumps_append fl h hwhite]

namespace StreamMessage

/-- The members of the object that a message is. -/
def members : StreamMessage → List (Text × Json)
  | .confirmation => [("ok", .bool true), ("streaming", .bool true)]
  | .notInitialized => [("ok", .bool false), ("error", .str "Packet monitor not initialized.")]
  | .heartbeat => [("heartbeat", .bool true)]
  | .event e => [("event", e.toDict)]
  | .packet pkt => [("packet", pkt.toDict)]

/-- The bytes written for a message; those of a heartbeat are spelled out in the source. -/
def line : StreamMessage → Bytes
  | .heartbeat => Text.encode "\x7b\"heartbeat\": true\x7d\n"
  | m => jsonLine fl (.obj m.members)

theorem line_eq (m : StreamMessage) : m.line fl = jsonLine fl (.obj m.members) := by
  cases m with
  | heartbeat => rfl
  | confirmation => rfl
  | notInitialized => rfl
  | event e => rfl
  | packet pkt => rfl

end StreamMessage

/-- The bytes of a sequence of messages. -/
def wire (ms : List StreamMessage) : Bytes := ms.flatMap (StreamMessage.line fl)

/-! ## Messages are read back -/

theorem FlowEvent.plain (e : FlowEvent) : e.toDict.Plain := by
  have hkeys : (["timestamp", "client_ip", "domain", "qtype", "action", "reason", "session_active",
    "service", "bypass_type"] : List Text).Nodup := by decide
  exact ⟨hkeys, trivial, trivial, trivial, trivial, trivial, trivial, trivial,
    Json.plain_ofOptText _, Json.plain_ofOptText _, trivial⟩

theorem PacketMetadata.plain (pkt : PacketMetadata) : pkt.toDict.Plain := by
  have hkeys : (["id", "timestamp", "interface", "direction", "ip_version", "src_ip", "dst_ip",
    "protocol", "src_port", "dst_port", "length", "ttl", "tcp_flags", "device_name", "policy_match",
    "policy_action", "raw_preview"] : List Text).Nodup := by decide
  exact ⟨hkeys, trivial, trivial, trivial, trivial, trivial, trivial, trivial, trivial,
    Json.plain_optInt _, Json.plain_optInt _, trivial, Json.plain_optInt _, Json.plain_ofTexts _,
    Json.plain_ofOptText _, Json.plain_ofOptText _, trivial, Json.plain_ofOptText _, trivial⟩

theorem StreamMessage.plain (m : StreamMessage) : (Json.obj m.members).Plain := by
  cases m with
  | confirmation => exact ⟨by decide, trivial, trivial, trivial⟩
  | notInitialized => exact ⟨by decide, trivial, trivial, trivial⟩
  | heartbeat => exact ⟨List.nodup_singleton _, trivial, trivial⟩
  | event e => exact ⟨List.nodup_singleton _, e.plain, trivial⟩
  | packet pkt => exact ⟨List.nodup_singleton _, pkt.plain, trivial⟩

end FocusGuard
