import FocusGuard.Network.PacketAccounting

/-!
# The packet stream

`_stream_packet_monitor` of `focusguard/service/ipc_server.py` beside the threads that record
packets and publish them. The handler subscribes, confirms, replays the end of the buffer and then
serves its queue; packets are recorded and published whenever a thread comes to it.

## Main results

* `Streamed.step`: what was sent comes from the buffer, and behind that from the queue.
* `stream_in_order`: when the client gets no packet twice, and all in their order.
* `stream_repeats`: a packet that is sent twice.
-/

namespace FocusGuard

/-- The filters of a request; an empty text, and no port or port 0, let everything through. -/
structure PacketFilter where
  device : Text := []
  protocol : Text := []
  port : Option Int := none

/-- Whether a packet is sent; `upper` is `str.upper`. -/
def PacketFilter.passes (upper : Text → Text) (f : PacketFilter) (pkt : PacketMetadata) : Bool :=
  if f.device ≠ [] ∧ (pkt.srcIp ≠ f.device ∧ pkt.dstIp ≠ f.device) then false
  else if f.protocol ≠ [] ∧ ¬ f.protocol <+: upper pkt.protocol then false
  else if f.port.getD 0 ≠ 0 ∧ (pkt.srcPort ≠ f.port ∧ pkt.dstPort ≠ f.port) then false
  else true

/-- `subscribe(maxsize=200)`. -/
def queueSize : Nat := 200

/-- `get_recent_packets(limit=10)`. -/
def replayLimit : Nat := 10

/-- Where a thread is in `_publish_to_subscribers`: before `list(self._subscribers)`, or with the
queue of the stream in that list. -/
inductive Publishing where
  | nothing
  | recorded (pkt : PacketMetadata)
  | offering (pkt : PacketMetadata)

/-- Where the handler is. -/
inductive StreamPhase where
  | starting
  | confirming
  | replaying (rest : List PacketMetadata)
  | serving

structure Streaming (T : Type) where
  monitoring : Monitoring T
  publishing : T → Publishing
  phase : StreamPhase
  queue : List PacketMetadata
  /-- The packets written to the client. -/
  sent : List PacketMetadata

inductive StreamEvent (T : Type) where
  | ingest (ev : IngestEvent T)
  | look (thread : T)
  | put (thread : T) (pkt : PacketMetadata)
  | subscribe
  | confirmed
  | replay
  | serve
  | deliver
  | heartbeat

variable (net : Addresses) (passes : PacketMetadata → Bool) {T : Type} [DecidableEq T]

/-- A packet that has just been recorded is published next. -/
def afterIngest (publishing : T → Publishing) : IngestEvent T → T → Publishing
  | .record thread pkt => Function.update publishing thread (.recorded pkt)
  | _ => publishing

namespace Streaming

/-- The packet is written, unless a filter stops it. -/
def send (s : Streaming T) (pkt : PacketMetadata) : List PacketMetadata :=
  s.sent ++ [pkt].filter passes

inductive Step : Streaming T → StreamEvent T → Streaming T → Prop where
  | ingest {s : Streaming T} {ev : IngestEvent T} {m : Monitoring T} :
      Monitoring.Step net s.monitoring ev m →
      (∀ thread call pktId, ev = .number thread call pktId → s.publishing thread = .nothing) →
      Step s (.ingest ev) { s with monitoring := m, publishing := afterIngest s.publishing ev }
  | look {s : Streaming T} {thread : T} {pkt : PacketMetadata} :
      s.publishing thread = .recorded pkt → s.phase ≠ .starting →
      Step s (.look thread)
        { s with publishing := Function.update s.publishing thread (.offering pkt) }
  | unsubscribed {s : Streaming T} {thread : T} {pkt : PacketMetadata} :
      s.publishing thread = .recorded pkt → s.phase = .starting →
      Step s (.look thread) { s with publishing := Function.update s.publishing thread .nothing }
  -- a full queue loses its oldest packet
  | put {s : Streaming T} {thread : T} {pkt : PacketMetadata} :
      s.publishing thread = .offering pkt →
      Step s (.put thread pkt)
        { s with
          publishing := Function.update s.publishing thread .nothing
          queue := (s.queue ++ [pkt]).rtake queueSize }
  | subscribe {s : Streaming T} : s.phase = .starting →
      Step s .subscribe { s with phase := .confirming }
  -- the confirmation is written, and the buffer is read
  | confirmed {s : Streaming T} : s.phase = .confirming →
      Step s .confirmed
        { s with phase := .replaying (s.monitoring.engine.getRecentPackets replayLimit) }
  | replay {s : Streaming T} {pkt : PacketMetadata} {rest : List PacketMetadata} :
      s.phase = .replaying (pkt :: rest) →
      Step s .replay { s with phase := .replaying rest, sent := s.send passes pkt }
  | serve {s : Streaming T} : s.phase = .replaying [] → Step s .serve { s with phase := .serving }
  | deliver {s : Streaming T} {pkt : PacketMetadata} {rest : List PacketMetadata} :
      s.phase = .serving → s.queue = pkt :: rest →
      Step s .deliver { s with queue := rest, sent := s.send passes pkt }
  | heartbeat {s : Streaming T} : s.phase = .serving → Step s .heartbeat s

/-- The request has come in. -/
def start (e : PacketMonitorEngine) : Streaming T where
  monitoring := ⟨e, fun _ => .idle⟩
  publishing _ := .nothing
  phase := .starting
  queue := []
  sent := []

end Streaming

/-- A buffer as packets leave it: within its size, with identifiers that have been handed out and
are distinct. -/
structure PacketMonitorEngine.Settled (e : PacketMonitorEngine) : Prop where
  room : e.buffer.length ≤ e.maxBufferSize
  distinct : (e.buffer.map PacketMetadata.id).Nodup
  issued : ∀ p ∈ e.buffer, 1 ≤ p.id ∧ p.id ≤ e.packetIdSeq

/-! ## Events -/

section Events

omit [DecidableEq T]

def ingested (es : List (StreamEvent T)) : List (IngestEvent T) :=
  es.filterMap fun
    | .ingest ev => some ev
    | _ => none

/-- The packets recorded, in their order. -/
def recorded (es : List (StreamEvent T)) : List PacketMetadata := finished (ingested es)

def isConfirmed : StreamEvent T → Bool
  | .confirmed => true
  | _ => false

/-- The packets recorded after the buffer was read for the replay. -/
def recordedSince (es : List (StreamEvent T)) : List PacketMetadata :=
  recorded (es.dropWhile fun ev => !isConfirmed ev)

/-- The packets put into the queue that the filters let through. -/
def puts (es : List (StreamEvent T)) : List PacketMetadata :=
  (es.filterMap fun
    | .put _ pkt => some pkt
    | _ => none).filter passes

/-- What is put into the queue was recorded after the buffer was read, and is put there in the order
in which it was recorded. -/
def Orderly (es : List (StreamEvent T)) : Prop := (puts passes es).Sublist (recordedSince es)

variable {passes} {es : List (StreamEvent T)} {ev : StreamEvent T}

theorem recorded_concat : recorded (es ++ [ev]) = recorded es ++ recorded [ev] := by
  simp [recorded, ingested, finished]

theorem puts_concat : puts passes (es ++ [ev]) = puts passes es ++ puts passes [ev] := by
  simp [puts]

theorem puts_mono {ps : List PacketMetadata} (h : ps.Sublist (puts passes es)) :
    ps.Sublist (puts passes (es ++ [ev])) := by
  rw [puts_concat]
  exact h.trans (List.sublist_append_left _ _)

theorem recordedSince_concat (h : ∃ ev ∈ es, isConfirmed ev = true) :
    recordedSince (es ++ [ev]) = recordedSince es ++ recorded [ev] := by
  unfold recordedSince
  rw [List.dropWhile_append, if_neg, recorded_concat]
  simpa using h

theorem recordedSince_confirmed (h : ∀ ev ∈ es, isConfirmed ev = false) :
    recordedSince (es ++ [.confirmed]) = [] := by
  unfold recordedSince
  rw [List.dropWhile_append, if_pos]
  · rfl
  · simpa using h

end Events

/-! ## What has been sent -/

section Stages

omit [DecidableEq T]

/-- What was sent in the replay, `early`, comes from the packets recorded before the buffer was
read; nothing has been sent from the queue before the replay is over. -/
def Replayed (passes : PacketMetadata → Bool) (base : List PacketMetadata)
    (es : List (StreamEvent T)) (early live : List PacketMetadata) : StreamPhase → Prop
  | .replaying rest => live = [] ∧ (∃ ev ∈ es, isConfirmed ev = true) ∧
      ∃ old, base ++ recorded es = old ++ recordedSince es ∧
        (early ++ rest.filter passes).Sublist old
  | .serving => (∃ ev ∈ es, isConfirmed ev = true) ∧
      ∃ old, base ++ recorded es = old ++ recordedSince es ∧ early.Sublist old
  | _ => early = [] ∧ live = [] ∧ ∀ ev ∈ es, isConfirmed ev = false

/-- What was sent, and is in the queue, comes from the replay and from what was put. -/
structure Sourced (passes : PacketMetadata → Bool) (base : List PacketMetadata)
    (es : List (StreamEvent T)) (s : Streaming T) (early live : List PacketMetadata) : Prop where
  sent : s.sent = early ++ live
  queued : (live ++ s.queue.filter passes).Sublist (puts passes es)
  replayed : Replayed passes base es early live s.phase

variable {passes : PacketMetadata → Bool} {base : List PacketMetadata}
  {es : List (StreamEvent T)} {ev : StreamEvent T} {early live : List PacketMetadata}
  {phase : StreamPhase} {s : Streaming T}

/-- Other events leave the stage. -/
theorem Replayed.concat (h : Replayed passes base es early live phase)
    (hev : isConfirmed ev = false) : Replayed passes base (es ++ [ev]) early live phase := by
  have hnone : (∀ e ∈ es, isConfirmed e = false) → ∀ e ∈ es ++ [ev], isConfirmed e = false := by
    intro hall e he
    rcases List.mem_append.mp he with he | he
    · exact hall e he
    · rwa [List.mem_singleton.mp he]
  have hsome : (∃ e ∈ es, isConfirmed e = true) → ∃ e ∈ es ++ [ev], isConfirmed e = true :=
    fun ⟨e, he, hc⟩ => ⟨e, List.mem_append_left _ he, hc⟩
  have hold : ∀ old, (∃ e ∈ es, isConfirmed e = true) →
      base ++ recorded es = old ++ recordedSince es →
      base ++ recorded (es ++ [ev]) = old ++ recordedSince (es ++ [ev]) := by
    intro old hc heq
    rw [recorded_concat, recordedSince_concat hc, ← List.append_assoc, heq, List.append_assoc]
  cases phase with
  | starting => exact ⟨h.1, h.2.1, hnone h.2.2⟩
  | confirming => exact ⟨h.1, h.2.1, hnone h.2.2⟩
  | replaying rest =>
    obtain ⟨hlive, hc, old, heq, hsub⟩ := h
    exact ⟨hlive, hsome hc, old, hold old hc heq, hsub⟩
  | serving =>
    obtain ⟨hc, old, heq, hsub⟩ := h
    exact ⟨hsome hc, old, hold old hc heq, hsub⟩

/-- What the stage of a state says, after any event but the confirmation. -/
theorem Sourced.concat_at (h : Sourced passes base es s early live) (hphase : s.phase = phase)
    (ev : StreamEvent T) (hev : isConfirmed ev = false) :
    Replayed passes base (es ++ [ev]) early live phase := by
  have hreplayed := h.replayed.concat hev
  rwa [hphase] at hreplayed

/-- What was sent is in the order in which it was recorded, if the queue is orderly. -/
theorem Sourced.sublist (h : Sourced passes base es s early live) (horderly : Orderly passes es) :
    s.sent.Sublist (base ++ recorded es) := by
  have hlive : live.Sublist (recordedSince es) :=
    ((List.sublist_append_left _ _).trans h.queued).trans horderly
  rw [h.sent]
  have hreplayed := h.replayed
  cases hphase : s.phase with
  | starting =>
    rw [hphase] at hreplayed
    rw [hreplayed.1, hreplayed.2.1]
    exact List.nil_sublist _
  | confirming =>
    rw [hphase] at hreplayed
    rw [hreplayed.1, hreplayed.2.1]
    exact List.nil_sublist _
  | replaying rest =>
    rw [hphase] at hreplayed
    obtain ⟨-, -, old, heq, hsub⟩ := hreplayed
    rw [heq]
    exact ((List.sublist_append_left _ _).trans hsub).append hlive
  | serving =>
    rw [hphase] at hreplayed
    obtain ⟨-, old, heq, hsub⟩ := hreplayed
    rw [heq]
    exact hsub.append hlive

end Stages

/-- The invariant of a stream. -/
structure Streamed (passes : PacketMetadata → Bool) (maxBufferSize : Nat)
    (base : List PacketMetadata) (es : List (StreamEvent T)) (s : Streaming T) : Prop where
  recorded : Recorded maxBufferSize base (ingested es) s.monitoring
  sourced : ∃ early live, Sourced passes base es s early live

namespace Streamed

variable {net} {passes} {maxBufferSize : Nat} {base : List PacketMetadata}
  {es : List (StreamEvent T)} {ev : StreamEvent T} {s s' : Streaming T}

omit [DecidableEq T] in
theorem ingested_concat : ingested (es ++ [ev]) = ingested es ++ ingested [ev] := by
  simp [ingested]

omit [DecidableEq T] in
/-- What is read for the replay is the end of what has been recorded. -/
theorem recent_suffix (h : Recorded maxBufferSize base (ingested es) s.monitoring) (limit : Nat) :
    (s.monitoring.engine.getRecentPackets limit).Sublist (base ++ FocusGuard.recorded es) := by
  have hbuffer : s.monitoring.engine.buffer.Sublist (base ++ FocusGuard.recorded es) := by
    rw [h.buffer]
    exact List.drop_sublist _ _
  unfold PacketMonitorEngine.getRecentPackets
  split
  · exact hbuffer
  · exact (List.drop_sublist _ _).trans hbuffer

omit [DecidableEq T] in
/-- An event that neither sends nor queues leaves the sources, whatever it does to the threads. -/
theorem other (h : Streamed passes maxBufferSize base es s) (hev : isConfirmed ev = false)
    (hputs : puts passes [ev] = []) (hsent : s'.sent = s.sent) (hqueue : s'.queue = s.queue)
    (hphase : s'.phase = s.phase) :
    ∃ early live, Sourced passes base (es ++ [ev]) s' early live := by
  obtain ⟨early, live, hs⟩ := h.sourced
  refine ⟨early, live, hsent.trans hs.sent, ?_, ?_⟩
  · rw [puts_concat, hputs, List.append_nil, hqueue]
    exact hs.queued
  · rw [hphase]
    exact hs.replayed.concat hev

theorem step (h : Streamed passes maxBufferSize base es s)
    (hstep : Streaming.Step net passes s ev s') :
    Streamed passes maxBufferSize base (es ++ [ev]) s' := by
  have hkept : ingested [ev] = [] → s'.monitoring = s.monitoring →
      Recorded maxBufferSize base (ingested (es ++ [ev])) s'.monitoring := by
    intro hnil hsame
    rw [ingested_concat, hnil, List.append_nil, hsame]
    exact h.recorded
  cases hstep with
  | ingest hm hguard =>
    refine ⟨?_, h.other rfl rfl rfl rfl rfl⟩
    rw [ingested_concat]
    exact h.recorded.step hm
  | look | unsubscribed | heartbeat => exact ⟨hkept rfl rfl, h.other rfl rfl rfl rfl rfl⟩
  | @put thread pkt hpublishing =>
    refine ⟨hkept rfl rfl, ?_⟩
    obtain ⟨early, live, hs⟩ := h.sourced
    have hrtake : ((s.queue ++ [pkt]).rtake queueSize).Sublist (s.queue ++ [pkt]) :=
      List.drop_sublist _ _
    generalize (s.queue ++ [pkt]).rtake queueSize = queue at hrtake
    have hput : puts passes [StreamEvent.put thread pkt] = [pkt].filter passes := rfl
    have hqueued : (live ++ queue.filter passes).Sublist (puts passes (es ++ [.put thread pkt])) :=
      calc (live ++ queue.filter passes).Sublist _ := (hrtake.filter passes).append_left live
        _ = live ++ s.queue.filter passes ++ [pkt].filter passes := by
          rw [List.filter_append, List.append_assoc]
        List.Sublist _ (puts passes es ++ [pkt].filter passes) := hs.queued.append_right _
        _ = puts passes (es ++ [.put thread pkt]) := by rw [puts_concat, hput]
    exact ⟨early, live, hs.sent, hqueued, hs.replayed.concat rfl⟩
  | subscribe hphase =>
    refine ⟨hkept rfl rfl, ?_⟩
    obtain ⟨early, live, hs⟩ := h.sourced
    have hreplayed := hs.concat_at hphase .subscribe rfl
    exact ⟨early, live, hs.sent, puts_mono hs.queued, hreplayed⟩
  | confirmed hphase =>
    refine ⟨hkept rfl rfl, ?_⟩
    obtain ⟨early, live, hs⟩ := h.sourced
    have hreplayed := hs.replayed
    rw [hphase] at hreplayed
    obtain ⟨rfl, rfl, hnone⟩ := hreplayed
    refine ⟨[], [], hs.sent, puts_mono hs.queued, rfl, ⟨.confirmed, List.mem_concat_self, rfl⟩,
      base ++ FocusGuard.recorded es, ?_, ?_⟩
    · rw [recordedSince_confirmed hnone, recorded_concat, List.append_nil]
      exact congrArg (base ++ ·) (List.append_nil _)
    · exact List.filter_sublist.trans (recent_suffix h.recorded _)
  | @replay pkt rest hphase =>
    refine ⟨hkept rfl rfl, ?_⟩
    obtain ⟨early, live, hs⟩ := h.sourced
    obtain ⟨rfl, hc, old, heq, hsub⟩ := hs.concat_at hphase .replay rfl
    refine ⟨early ++ [pkt].filter passes, [], ?_, puts_mono hs.queued, rfl, hc, old, heq, ?_⟩
    · rw [Streaming.send, hs.sent, List.append_nil, List.append_nil]
    · rwa [List.append_assoc, ← List.filter_append]
  | serve hphase =>
    refine ⟨hkept rfl rfl, ?_⟩
    obtain ⟨early, live, hs⟩ := h.sourced
    obtain ⟨rfl, hc, old, heq, hsub⟩ := hs.concat_at hphase .serve rfl
    exact ⟨early, [], hs.sent, puts_mono hs.queued, hc, old, heq,
      (List.sublist_append_left _ _).trans hsub⟩
  | @deliver pkt rest hphase hqueue =>
    refine ⟨hkept rfl rfl, ?_⟩
    obtain ⟨early, live, hs⟩ := h.sourced
    refine ⟨early, live ++ [pkt].filter passes, ?_, ?_, ?_⟩
    · rw [Streaming.send, hs.sent, List.append_assoc]
    · have hqueued := hs.queued
      rw [hqueue] at hqueued
      rw [List.append_assoc, ← List.filter_append]
      exact puts_mono hqueued
    · dsimp only
      rw [hphase]
      exact hs.concat_at hphase .deliver rfl

end Streamed

omit [DecidableEq T] in
theorem PacketMonitorEngine.Settled.streamed {e : PacketMonitorEngine} (h : e.Settled) :
    Streamed (T := T) passes e.maxBufferSize e.buffer [] (Streaming.start e) where
  recorded :=
    { size := rfl
      buffer := by
        have hroom := h.room
        simp only [Streaming.start, ingested, finished, List.filterMap_nil, List.append_nil,
          List.rtake]
        rw [Nat.sub_eq_zero_of_le hroom, List.drop_zero]
      tickets := by
        refine .of_none (fun _ => rfl) ?_ fun i hi => ?_
        · simpa [ingested, finished] using h.distinct
        · simp only [ingested, finished, List.filterMap_nil, List.append_nil] at hi
          obtain ⟨p, hp, rfl⟩ := List.mem_map.mp hi
          have hissued := h.issued p hp
          rw [List.mem_range'_1]
          exact ⟨hissued.1, by dsimp only [Streaming.start]; omega⟩ }
  sourced := ⟨[], [], rfl, List.Sublist.refl _, rfl, rfl, by simp⟩

variable {net}

/-- Replay and live stream do not overlap in an orderly run: with every buffer, and whenever packets
arrive, the client gets packets in the order in which they were recorded, and none twice. -/
theorem stream_in_order {upper : Text → Text} {f : PacketFilter} {e : PacketMonitorEngine}
    (he : e.Settled) {es : List (StreamEvent T)} {s : Streaming T}
    (hrun : Run (Streaming.Step net (f.passes upper)) (Streaming.start e) es s)
    (horderly : Orderly (f.passes upper) es) :
    s.sent.Sublist (e.buffer ++ recorded es) ∧ (s.sent.map PacketMetadata.id).Nodup := by
  have h : Streamed (f.passes upper) e.maxBufferSize e.buffer es s :=
    hrun.history (fun _ _ _ _ h hstep => h.step hstep) (he.streamed (f.passes upper))
  obtain ⟨early, live, hs⟩ := h.sourced
  have hsub := hs.sublist horderly
  exact ⟨hsub, h.recorded.tickets.distinct.sublist (hsub.map PacketMetadata.id)⟩

section Example

def emptyEngine : PacketMonitorEngine := { flowTracker := { lastPrune := 0 } }

theorem emptyEngine_settled : emptyEngine.Settled := ⟨Nat.zero_le _, List.nodup_nil, nofun⟩

/-- A query is ingested, from its first step to its publication. -/
def arrival : List (StreamEvent Unit) := [
  .ingest (.number () youtubeQuery 1), .ingest (.build () noonEnv), .ingest (.track () 1),
  .ingest (.record () (youtubePacket 1)), .look (), .put () (youtubePacket 1)]

/-- The query arrives when the stream is being served. -/
def lateArrival : List (StreamEvent Unit) :=
  [.subscribe, .confirmed, .serve] ++ arrival ++ [.deliver]

/-- The query arrives while the confirmation is being written. -/
def earlyArrival : List (StreamEvent Unit) :=
  [.subscribe] ++ arrival ++ [.confirmed, .replay, .serve, .deliver]

/-- A packet that arrives while the stream is served is sent once. -/
theorem stream_in_order_late : ∃ s : Streaming Unit,
    Run (Streaming.Step noAddresses (PacketFilter.passes id {})) (Streaming.start emptyEngine)
        lateArrival s ∧
      s.sent = [youtubePacket 1] ∧ (s.sent.map PacketMetadata.id).Nodup := by
  have hrun : ∃ s : Streaming Unit, Run (Streaming.Step noAddresses (PacketFilter.passes id {}))
      (Streaming.start emptyEngine) lateArrival s ∧ s.sent = [youtubePacket 1] := by
    refine ⟨_, .cons (.subscribe rfl) (.cons (.confirmed rfl) (.cons (.serve rfl)
      (.cons (.ingest (.number _ rfl) ?_) (.cons (.ingest (.build rfl rfl) nofun)
      (.cons (.ingest (.track rfl (FlowTracker.recordPacket_of_ok ?_ rfl)) nofun)
      (.cons (.ingest (.record rfl) nofun) (.cons (.look rfl nofun) (.cons (.put rfl)
      (.single (.deliver rfl rfl)))))))))), rfl⟩
    · exact fun _ _ _ _ => rfl
    · decide
  have hputs : puts (PacketFilter.passes id {}) lateArrival = [youtubePacket 1] := rfl
  have hsince : recordedSince lateArrival = [youtubePacket 1] := rfl
  obtain ⟨s, hrun, hsent⟩ := hrun
  refine ⟨s, hrun, hsent, (stream_in_order emptyEngine_settled hrun ?_).2⟩
  rw [Orderly, hputs, hsince]

/-- A packet that arrives while the confirmation is being written is in the buffer that is replayed
and in the queue, and is sent twice. -/
theorem stream_repeats : emptyEngine.Settled ∧ ∃ s : Streaming Unit,
    Run (Streaming.Step noAddresses (PacketFilter.passes id {})) (Streaming.start emptyEngine)
        earlyArrival s ∧
      s.sent = [youtubePacket 1, youtubePacket 1] ∧ ¬ (s.sent.map PacketMetadata.id).Nodup := by
  have hrun : ∃ s : Streaming Unit, Run (Streaming.Step noAddresses (PacketFilter.passes id {}))
      (Streaming.start emptyEngine) earlyArrival s ∧
        s.sent = [youtubePacket 1, youtubePacket 1] := by
    refine ⟨_, .cons (.subscribe rfl) (.cons (.ingest (.number _ rfl) ?_)
      (.cons (.ingest (.build rfl rfl) nofun)
      (.cons (.ingest (.track rfl (FlowTracker.recordPacket_of_ok ?_ rfl)) nofun)
      (.cons (.ingest (.record rfl) nofun) (.cons (.look rfl nofun) (.cons (.put rfl)
      (.cons (.confirmed rfl) (.cons (.replay rfl) (.cons (.serve rfl)
      (.single (.deliver rfl rfl))))))))))), rfl⟩
    · exact fun _ _ _ _ => rfl
    · decide
  obtain ⟨s, hrun, hsent⟩ := hrun
  refine ⟨emptyEngine_settled, s, hrun, hsent, ?_⟩
  rw [hsent]
  simp

end Example

end FocusGuard
