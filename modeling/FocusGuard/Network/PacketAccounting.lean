import FocusGuard.Lib.Runs
import FocusGuard.Lib.Tickets
import FocusGuard.Network.Monitor

/-!
# The accounts of the packet monitor

However the calls of several threads are interleaved, the totals are those of the packets that have
been recorded, and the buffer holds the last of them.

## Main results

* `Recorded.step`: what one step does to the identifiers and to the buffer.
* `Accounted.step`: what it does to the totals.
* `packet_accounts`: what holds after every run.
-/

namespace FocusGuard

variable {net : Addresses} {T : Type} [DecidableEq T]

/-- The identifiers handed out, in their order. -/
def numbered (es : List (IngestEvent T)) : List Nat :=
  es.filterMap fun
    | .number _ _ pktId => some pktId
    | _ => none

/-- The packets that have finished, in the order in which they did. -/
def finished (es : List (IngestEvent T)) : List PacketMetadata :=
  es.filterMap fun
    | .record _ pkt => some pkt
    | _ => none

/-- The identifier of the packet that a call is working on. -/
def IngestPhase.pktId? : IngestPhase → Option Nat
  | .idle => none
  | .numbered _ pktId => some pktId
  | .built _ pkt => some pkt.id
  | .tracked _ pkt => some pkt.id

/-- The totals are those of the packets `done`. -/
structure PacketMonitorEngine.Totals (e : PacketMonitorEngine) (done : List PacketMetadata) :
    Prop where
  packets : e.totalPackets = done.length
  protocols : e.tcpPackets + e.udpPackets + e.icmpPackets + e.otherPackets = done.length
  bytes : e.totalBytes = (done.map PacketMetadata.length).sum
  directions : e.inboundBytes + e.outboundBytes = (done.map PacketMetadata.length).sum

/-- The identifiers and the buffer, where the packets `base` were there before the events. -/
structure Recorded (maxBufferSize : Nat) (base : List PacketMetadata) (es : List (IngestEvent T))
    (s : Monitoring T) : Prop where
  size : s.engine.maxBufferSize = maxBufferSize
  buffer : s.engine.buffer = (base ++ finished es).rtake maxBufferSize
  tickets : Tickets (fun thread => (s.phase thread).pktId?) (List.range' 1 s.engine.packetIdSeq)
    ((base ++ finished es).map PacketMetadata.id)

/-- What holds between the events and the state they lead to from an engine without packets. -/
structure Accounted (maxBufferSize : Nat) (es : List (IngestEvent T)) (s : Monitoring T) :
    Prop where
  recorded : Recorded maxBufferSize [] es s
  totals : s.engine.Totals (finished es)
  ids : numbered es = List.range' 1 s.engine.packetIdSeq

variable {e : PacketMonitorEngine} {env : IngestEnv} {call : Ingestion} {pktId : Nat}
  {pkt : PacketMetadata}

theorem nameDevice_id (devices : Option (List Device)) : (nameDevice devices pkt).id = pkt.id := by
  unfold nameDevice
  split
  · rfl
  · split
    · rfl
    · rfl

theorem correlatePolicy_id : (correlatePolicy pkt).id = pkt.id := by
  unfold correlatePolicy
  split
  · rfl
  · rfl

/-- A call builds a packet with the identifier it has taken. -/
theorem build_id (h : e.build net env pktId call = .ok (some pkt)) : pkt.id = pktId := by
  cases call with
  | processRawFrame rawData interface hasEthernet =>
    unfold PacketMonitorEngine.build at h
    dsimp only at h
    cases hparse : PacketParser.parse net pktId env.timestamp interface env.localIps rawData
      hasEthernet with
    | error x =>
      rw [hparse] at h
      cases h
    | ok result =>
      rw [hparse] at h
      obtain ⟨p, rfl, hp⟩ := Option.map_eq_some_iff.mp (Except.ok.inj h)
      rw [← hp, correlatePolicy_id, nameDevice_id]
      exact PacketParser.parse_identified _ hparse p rfl
  | ingestDnsEvent clientIp serverIp dstPort protocol qname isBlocked =>
    obtain rfl := Option.some.inj (Except.ok.inj h)
    exact nameDevice_id _

theorem countFrame_eq (e : PacketMonitorEngine) (pkt : PacketMetadata) : ∃ tcp udp icmp other,
    tcp + udp + icmp + other = e.tcpPackets + e.udpPackets + e.icmpPackets + e.otherPackets + 1 ∧
      e.countFrame pkt = { e with
        tcpPackets := tcp, udpPackets := udp, icmpPackets := icmp, otherPackets := other } := by
  unfold PacketMonitorEngine.countFrame
  split
  · exact ⟨_, _, _, _, by omega, rfl⟩
  split
  · exact ⟨_, _, _, _, by omega, rfl⟩
  split
  · exact ⟨_, _, _, _, by omega, rfl⟩
  · exact ⟨_, _, _, _, by omega, rfl⟩

theorem countFrameBytes_eq (e : PacketMonitorEngine) (pkt : PacketMetadata) : ∃ inbound outbound,
    inbound + outbound = e.inboundBytes + e.outboundBytes + pkt.length ∧
      e.countFrameBytes pkt = { e with inboundBytes := inbound, outboundBytes := outbound } := by
  unfold PacketMonitorEngine.countFrameBytes
  split
  · exact ⟨_, _, by omega, rfl⟩
  · exact ⟨_, _, by omega, rfl⟩

/-- The last block of a call adds the packet to one protocol and to one direction. -/
theorem record_eq (e : PacketMonitorEngine) (pkt : PacketMetadata) (call : Ingestion) :
    ∃ tcp udp icmp other inbound outbound,
      tcp + udp + icmp + other =
        e.tcpPackets + e.udpPackets + e.icmpPackets + e.otherPackets + 1 ∧
      inbound + outbound = e.inboundBytes + e.outboundBytes + pkt.length ∧
      e.record pkt call = { e.append pkt with
        tcpPackets := tcp, udpPackets := udp, icmpPackets := icmp, otherPackets := other,
        inboundBytes := inbound, outboundBytes := outbound } := by
  cases call with
  | processRawFrame rawData interface hasEthernet =>
    obtain ⟨tcp, udp, icmp, other, hsum, hcount⟩ := countFrame_eq (e.append pkt) pkt
    obtain ⟨inbound, outbound, hbytes, hdirection⟩ :=
      countFrameBytes_eq ((e.append pkt).countFrame pkt) pkt
    rw [hcount] at hbytes hdirection
    refine ⟨tcp, udp, icmp, other, inbound, outbound, hsum, hbytes, ?_⟩
    unfold PacketMonitorEngine.record
    rw [hcount]
    exact hdirection
  | ingestDnsEvent clientIp serverIp dstPort protocol qname isBlocked =>
    unfold PacketMonitorEngine.record PacketMonitorEngine.countDnsEvent
    dsimp only
    split
    · exact ⟨e.tcpPackets, e.udpPackets + 1, e.icmpPackets, e.otherPackets, e.inboundBytes,
        e.outboundBytes + pkt.length, by omega, by omega, rfl⟩
    · exact ⟨e.tcpPackets + 1, e.udpPackets, e.icmpPackets, e.otherPackets, e.inboundBytes,
        e.outboundBytes + pkt.length, by omega, by omega, rfl⟩

theorem rtake_rtake_append {α : Type} (l : List α) (a : α) (n : Nat) :
    (l.rtake n ++ [a]).rtake n = (l ++ [a]).rtake n := by
  cases n with
  | zero => simp
  | succ n =>
    rw [List.rtake_concat_succ, List.rtake_concat_succ]
    congr 1
    simp only [List.rtake_eq_reverse_take_reverse, List.reverse_reverse, List.take_take]
    rw [Nat.min_eq_left (Nat.le_succ n)]

/-- Recording a packet counts it once in every total. -/
theorem PacketMonitorEngine.Totals.record {done : List PacketMetadata} (h : e.Totals done) :
    (e.record pkt call).Totals (done ++ [pkt]) := by
  obtain ⟨tcp, udp, icmp, other, inbound, outbound, hprotocols, hdirections, hrecord⟩ :=
    record_eq e pkt call
  have hlength : (done ++ [pkt]).length = done.length + 1 := by simp
  have hsum : ((done ++ [pkt]).map PacketMetadata.length).sum =
      (done.map PacketMetadata.length).sum + pkt.length := by simp
  rw [hrecord]
  refine ⟨?_, ?_, ?_, ?_⟩
  · exact (congrArg (· + 1) h.packets).trans hlength.symm
  · exact (hprotocols.trans (congrArg (· + 1) h.protocols)).trans hlength.symm
  · exact (congrArg (· + pkt.length) h.bytes).trans hsum.symm
  · exact (hdirections.trans (congrArg (· + pkt.length) h.directions)).trans hsum.symm

/-! ## Steps -/

omit [DecidableEq T] in
theorem numbered_append (es : List (IngestEvent T)) (ev : IngestEvent T) :
    numbered (es ++ [ev]) = numbered es ++ numbered [ev] :=
  List.filterMap_append

omit [DecidableEq T] in
theorem finished_append (es : List (IngestEvent T)) (ev : IngestEvent T) :
    finished (es ++ [ev]) = finished es ++ finished [ev] :=
  List.filterMap_append

/-- The identifier in hand changes with the phase of the thread. -/
theorem moved_pktId (s : Monitoring T) (thread : T) (phase : IngestPhase) :
    (fun u => ((s.moved thread phase).phase u).pktId?) =
      Function.update (fun u => (s.phase u).pktId?) thread phase.pktId? := by
  funext u
  by_cases hu : u = thread
  · simp [Monitoring.moved, hu]
  · simp [Monitoring.moved, hu]

/-- What the last block of a call does to the rest of the engine. -/
theorem record_keeps (e : PacketMonitorEngine) (pkt : PacketMetadata) (call : Ingestion) :
    (e.record pkt call).maxBufferSize = e.maxBufferSize ∧
      (e.record pkt call).packetIdSeq = e.packetIdSeq ∧
      (e.record pkt call).buffer = (e.buffer ++ [pkt]).rtake e.maxBufferSize := by
  obtain ⟨tcp, udp, icmp, other, inbound, outbound, -, -, hrecord⟩ := record_eq e pkt call
  rw [hrecord]
  exact ⟨rfl, rfl, rfl⟩

variable {maxBufferSize : Nat} {base : List PacketMetadata} {es : List (IngestEvent T)}
  {ev : IngestEvent T} {s s' : Monitoring T} {thread : T}

namespace Recorded

/-- A thread goes on with the packet it has, or ends its call; nothing else is changed. -/
theorem move (h : Recorded maxBufferSize base es s) {phase : IngestPhase} (t : FlowTracker)
    (hphase : ∀ i, phase.pktId? = some i → (s.phase thread).pktId? = some i)
    (hf : finished [ev] = []) : Recorded maxBufferSize base (es ++ [ev])
      { s.moved thread phase with engine := { s.engine with flowTracker := t } } := by
  have hfinished : finished (es ++ [ev]) = finished es := by
    rw [finished_append, hf, List.append_nil]
  refine ⟨h.size, ?_, ?_⟩
  · rw [hfinished]
    exact h.buffer
  · rw [hfinished]
    refine h.tickets.keep fun u i hi => ?_
    rw [congrFun (moved_pktId s thread phase) u] at hi
    by_cases hu : u = thread
    · rw [hu, Function.update_self] at hi
      rw [hu]
      exact hphase i hi
    · rwa [Function.update_of_ne hu] at hi

theorem number (h : Recorded maxBufferSize base es s) (call : Ingestion) :
    Recorded maxBufferSize base (es ++ [.number thread call s.engine.takeId.packetIdSeq])
      { s.moved thread (.numbered call s.engine.takeId.packetIdSeq) with
        engine := s.engine.takeId } := by
  have hfinished : finished (es ++ [.number thread call s.engine.takeId.packetIdSeq]) =
      finished es := by
    rw [finished_append]
    exact List.append_nil _
  have hseq : s.engine.takeId.packetIdSeq = s.engine.packetIdSeq + 1 := rfl
  have hissued : List.range' 1 s.engine.takeId.packetIdSeq =
      List.range' 1 s.engine.packetIdSeq ++ [s.engine.takeId.packetIdSeq] := by
    rw [hseq, List.range'_1_concat, Nat.add_comm]
  have hfresh : s.engine.takeId.packetIdSeq ∉ List.range' 1 s.engine.packetIdSeq := by
    rw [List.mem_range'_1]
    omega
  refine ⟨h.size, ?_, ?_⟩
  · rw [hfinished]
    exact h.buffer
  · rw [hfinished, hissued]
    exact (moved_pktId s thread _).symm ▸ h.tickets.take hfresh

theorem record (h : Recorded maxBufferSize base es s) {call : Ingestion} {pkt : PacketMetadata}
    (hphase : s.phase thread = .tracked call pkt) :
    Recorded maxBufferSize base (es ++ [.record thread pkt])
      { s.moved thread .idle with engine := s.engine.record pkt call } := by
  have hfinished : finished (es ++ [.record thread pkt]) = finished es ++ [pkt] :=
    finished_append _ _
  obtain ⟨hsize, hseq, hbuffer⟩ := record_keeps s.engine pkt call
  refine ⟨hsize.trans h.size, ?_, ?_⟩
  · dsimp only
    rw [hfinished, hbuffer, h.buffer, h.size, rtake_rtake_append, List.append_assoc]
  · have hheld : (s.phase thread).pktId? = some pkt.id := by rw [hphase, IngestPhase.pktId?]
    dsimp only
    rw [hfinished, hseq, ← List.append_assoc, List.map_append]
    exact (moved_pktId s thread .idle).symm ▸ h.tickets.finish hheld

theorem step (h : Recorded maxBufferSize base es s) (hstep : Monitoring.Step net s ev s') :
    Recorded maxBufferSize base (es ++ [ev]) s' := by
  cases hstep with
  | number call hidle => exact h.number call
  | @build thread call pktId env pkt hphase hbuild =>
    refine h.move s.engine.flowTracker (fun i hi => ?_) rfl
    rw [hphase]
    rwa [IngestPhase.pktId?, build_id hbuild] at hi
  | rejected hphase hrejected => exact h.move s.engine.flowTracker nofun rfl
  | track hphase htrack =>
    refine h.move _ (fun i hi => ?_) rfl
    rwa [hphase]
  | raised hphase hraised => exact h.move _ nofun rfl
  | record hphase => exact h.record hphase

end Recorded

namespace Accounted

omit [DecidableEq T] in
theorem init (maxBufferSize : Nat) (interface : Text) (flowTracker : FlowTracker) :
    Accounted (T := T) maxBufferSize []
      (Monitoring.initial maxBufferSize interface flowTracker) where
  recorded :=
    { size := rfl
      buffer := by simp [Monitoring.initial, finished, List.rtake]
      tickets := .of_none (fun _ => rfl) List.nodup_nil fun _ hi => absurd hi List.not_mem_nil }
  totals := ⟨rfl, rfl, rfl, rfl⟩
  ids := rfl

omit [DecidableEq T] in
/-- A step of the middle of a call leaves the totals. -/
theorem unchanged (h : Accounted maxBufferSize es s)
    (hrecorded : Recorded maxBufferSize [] (es ++ [ev]) s') (hn : numbered [ev] = [])
    (hf : finished [ev] = [])
    (hengine : ∃ t, s'.engine = { s.engine with flowTracker := t }) :
    Accounted maxBufferSize (es ++ [ev]) s' := by
  obtain ⟨t, ht⟩ := hengine
  have hfinished : finished (es ++ [ev]) = finished es := by
    rw [finished_append, hf, List.append_nil]
  refine ⟨hrecorded, ?_, ?_⟩
  · rw [hfinished, ht]
    exact ⟨h.totals.packets, h.totals.protocols, h.totals.bytes, h.totals.directions⟩
  · rw [numbered_append, hn, List.append_nil, ht]
    exact h.ids

theorem step (h : Accounted maxBufferSize es s) (hstep : Monitoring.Step net s ev s') :
    Accounted maxBufferSize (es ++ [ev]) s' := by
  have hrecorded := h.recorded.step hstep
  cases hstep with
  | @number thread call hidle =>
    have hfinished : finished (es ++ [.number thread call s.engine.takeId.packetIdSeq]) =
        finished es := by
      rw [finished_append]
      exact List.append_nil _
    refine ⟨hrecorded, ?_, ?_⟩
    · rw [hfinished]
      exact ⟨h.totals.packets, h.totals.protocols, h.totals.bytes, h.totals.directions⟩
    · have hseq : s.engine.takeId.packetIdSeq = s.engine.packetIdSeq + 1 := rfl
      rw [numbered_append, h.ids, hseq, List.range'_1_concat, Nat.add_comm]
      rfl
  | build hphase hbuild => exact h.unchanged hrecorded rfl rfl ⟨_, rfl⟩
  | rejected hphase hrejected => exact h.unchanged hrecorded rfl rfl ⟨_, rfl⟩
  | track hphase htrack => exact h.unchanged hrecorded rfl rfl ⟨_, rfl⟩
  | raised hphase hraised => exact h.unchanged hrecorded rfl rfl ⟨_, rfl⟩
  | @record thread call pkt hphase =>
    refine ⟨hrecorded, ?_, ?_⟩
    · rw [finished_append]
      exact h.totals.record
    · have hseq := (record_keeps s.engine pkt call).2.1
      rw [numbered_append]
      dsimp only
      rw [hseq, ← h.ids]
      exact List.append_nil _

end Accounted

/-- With distinct identifiers, the first packet with an identifier is the one that has it. -/
theorem find?_id {l : List PacketMetadata} {p : PacketMetadata}
    (hl : (l.map PacketMetadata.id).Nodup) (hp : p ∈ l) :
    (l.find? fun q => (q.id : Int) = p.id) = some p := by
  induction l with
  | nil => cases hp
  | cons q l ih =>
    obtain ⟨hnot, hrest⟩ := List.nodup_cons.mp hl
    rcases List.mem_cons.mp hp with rfl | hp
    · exact List.find?_cons_of_pos (by simp)
    · have hne : q.id ≠ p.id := fun heq => hnot (heq ▸ List.mem_map_of_mem hp)
      rw [List.find?_cons_of_neg (by simpa using hne)]
      exact ih hrest hp

/-- Packet accounting is conserved: after any steps of any threads, the totals count the packets
that have finished and sum their lengths, identifiers are handed out once and in order, and the
buffer holds the last packets that have finished, each of which can be found. -/
theorem packet_accounts {maxBufferSize : Nat} {interface : Text} {flowTracker : FlowTracker}
    {es : List (IngestEvent T)} {s : Monitoring T}
    (hrun : Run (Monitoring.Step net) (Monitoring.initial maxBufferSize interface flowTracker) es
      s) :
    let e := s.engine
    let done := finished es
    (e.totalPackets = e.tcpPackets + e.udpPackets + e.icmpPackets + e.otherPackets ∧
      e.totalPackets = done.length) ∧
    (e.totalBytes = e.inboundBytes + e.outboundBytes ∧
      e.totalBytes = (done.map PacketMetadata.length).sum) ∧
    ((numbered es).Nodup ∧ (∀ i ∈ numbered es, i ≤ e.packetIdSeq) ∧
      (done.map PacketMetadata.id).Nodup ∧ ∀ p ∈ done, p.id ∈ numbered es) ∧
    e.buffer = done.rtake (min e.totalPackets maxBufferSize) ∧
    ∀ p ∈ e.buffer, e.getPacketById p.id = some p.toDict := by
  have h : Accounted maxBufferSize es s :=
    hrun.history (fun _ _ _ _ h hstep => h.step hstep)
      (Accounted.init maxBufferSize interface flowTracker)
  have hbuffer : s.engine.buffer =
      (finished es).rtake (min s.engine.totalPackets maxBufferSize) := by
    rw [h.recorded.buffer, h.totals.packets, List.nil_append]
    unfold List.rtake
    congr 1
    omega
  have hdistinct := h.recorded.tickets.distinct
  rw [List.nil_append] at hdistinct
  refine ⟨⟨?_, h.totals.packets⟩, ⟨?_, h.totals.bytes⟩, ⟨?_, fun i hi => ?_, hdistinct,
    fun p hp => ?_⟩, hbuffer, fun p hp => ?_⟩
  · rw [h.totals.packets, h.totals.protocols]
  · rw [h.totals.bytes, h.totals.directions]
  · rw [h.ids]
    exact List.nodup_range'
  · rw [h.ids, List.mem_range'_1] at hi
    omega
  · rw [h.ids]
    exact h.recorded.tickets.issued_of_done _ (List.mem_map_of_mem hp)
  · have hsub : s.engine.buffer.Sublist (finished es) := by
      rw [hbuffer]
      exact List.drop_sublist _ _
    have hnodup := hdistinct.sublist (hsub.map PacketMetadata.id)
    rw [PacketMonitorEngine.getPacketById, find?_id hnodup hp, Option.map_some]

section Example

/-- A truncated frame. -/
def shortFrame : Ingestion := .processRawFrame [0x45, 0x00] "eth0" true

def youtubeQuery : Ingestion :=
  .ingestDnsEvent "192.168.1.15" "127.0.0.1" 53 "UDP" "youtube.com" true

def noonEnv : IngestEnv := ⟨"12:00:00.000", [], none⟩

/-- The packet of the query, under the given identifier. -/
def youtubePacket (pktId : Nat) : PacketMetadata :=
  PacketMonitorEngine.dnsPacket noAddresses { flowTracker := { lastPrune := 0 } } noonEnv pktId
    "192.168.1.15" "127.0.0.1" 53 "UDP" "youtube.com" true

/-- A frame is rejected while a query is ingested by another thread. -/
def twoCalls : List (IngestEvent Bool) :=
  [.number false shortFrame 1, .number true youtubeQuery 2, .build false noonEnv,
    .build true noonEnv, .track true 1, .record true (youtubePacket 2)]

/-- Two identifiers are handed out then, and one packet is in the totals and in the buffer. -/
theorem packet_accounts_twoCalls : ∃ s : Monitoring Bool,
    Run (Monitoring.Step noAddresses)
        (Monitoring.initial 500 "any" { lastPrune := 0 }) twoCalls s ∧
      s.engine.totalPackets = 1 ∧ s.engine.totalBytes = 64 ∧
      s.engine.buffer = [youtubePacket 2] := by
  have hrun : ∃ s : Monitoring Bool, Run (Monitoring.Step noAddresses)
      (Monitoring.initial 500 "any" { lastPrune := 0 }) twoCalls s := by
    refine ⟨_, .cons (.number _ rfl) (.cons (.number _ rfl) (.cons (.rejected rfl nofun)
      (.cons (.build rfl rfl) (.cons (.track rfl (FlowTracker.recordPacket_of_ok ?_ rfl))
        (.single (.record rfl))))))⟩
    decide
  obtain ⟨s, hrun⟩ := hrun
  obtain ⟨⟨-, hpackets⟩, ⟨-, hbytes⟩, -, hbuffer, -⟩ := packet_accounts hrun
  exact ⟨s, hrun, hpackets, hbytes, by rw [hbuffer, hpackets]; rfl⟩

end Example

end FocusGuard
