import FocusGuard.Lib.Broadcast
import FocusGuard.Lib.Tickets
import FocusGuard.Service.PacketStream
import FocusGuard.Service.StreamMessages

/-!
# Subscriptions of monitor connections

`_stream_monitor` and `_stream_packet_monitor` of `focusguard/service/ipc_server.py` on any number
of connections, with `subscribe`, `unsubscribe` and the publication of `EventBus` and of
`PacketMonitorEngine`. A handler may be ended at every `await`, by the peer or by a cancellation;
only the part between `try` and `finally` takes the queue out of the subscribers.

## Main results

* `Hub.Tracked.step`: which queue is whose, and which of the ended ones are still fed.
* `subscriptions_live_as_streams`: when no subscription outlives its stream.
* `subscription_leaks`: one that does.
-/

namespace FocusGuard

/-! ## Filters of the event stream -/

/-- The filters of a request; an empty text lets everything through. -/
structure EventFilter where
  blockedOnly : Bool := false
  device : Text := []
  domain : Text := []
  service : Text := []

/-- Whether an event is sent; `lower` is `str.lower`. -/
def EventFilter.passes (lower : Text → Text) (f : EventFilter) (e : FlowEvent) : Bool :=
  if f.blockedOnly ∧ e.action ≠ "BLOCKED".toList then false
  else if f.device ≠ [] ∧ e.clientIp ≠ f.device then false
  else if f.domain ≠ [] ∧ ¬ f.domain <:+: lower e.domain then false
  else if f.service ≠ [] ∧
      (e.service.getD [] = [] ∨ ¬ f.service <:+: lower (e.service.getD [])) then false
  else true

/-! ## Handlers -/

/-- Where a handler can be ended. -/
inductive Await where
  | request
  | confirmation
  | replay
  | item
  | liveWrite
  | heartbeat
  deriving DecidableEq

/-- Inside the `try` whose `finally` unsubscribes. -/
def Await.guarded : Await → Bool
  | .item | .liveWrite | .heartbeat => true
  | _ => false

/-- Between the subscription and the `try`. -/
def Await.early : Await → Bool
  | .confirmation | .replay => true
  | _ => false

/-- What ends a handler: the peer closes or resets the connection, or the task is cancelled. -/
inductive Ending where
  | peer
  | cancelled

/-- Where a handler is, with its queue. -/
inductive HandlerPhase (α : Type) where
  | reading
  | confirming (queue : Nat)
  | replaying (queue : Nat) (rest : List α)
  | waiting (queue : Nat)
  | writing (queue : Nat)
  | beating (queue : Nat)
  | returned (queue : Option Nat)

namespace HandlerPhase

variable {α : Type}

def await : HandlerPhase α → Option Await
  | .reading => some .request
  | .confirming _ => some .confirmation
  | .replaying _ (_ :: _) => some .replay
  | .replaying _ [] => none
  | .waiting _ => some .item
  | .writing _ => some .liveWrite
  | .beating _ => some .heartbeat
  | .returned _ => none

/-- The queue of a handler that runs. -/
def live : HandlerPhase α → Option Nat
  | .confirming q | .replaying q _ | .waiting q | .writing q | .beating q => some q
  | _ => none

/-- The queue that a handler has subscribed. -/
def queue? : HandlerPhase α → Option Nat
  | .returned q => q
  | phase => phase.live

theorem queue?_of_live {phase : HandlerPhase α} {q : Nat} (h : phase.live = some q) :
    phase.queue? = some q := by
  cases phase with
  | returned => cases h
  | _ => exact h

/-- A handler is ended before it has a queue, or with one; then the `await` is early or guarded. -/
theorem await_cases {phase : HandlerPhase α} {a : Await} (h : phase.await = some a) :
    (phase.queue? = none ∧ a.early = false) ∨
      ∃ q, phase.live = some q ∧ a.guarded = !a.early := by
  cases phase with
  | reading => cases h; exact .inl ⟨rfl, rfl⟩
  | confirming q => cases h; exact .inr ⟨q, rfl, rfl⟩
  | replaying q rest => cases rest with
    | nil => cases h
    | cons item rest => cases h; exact .inr ⟨q, rfl, rfl⟩
  | waiting q => cases h; exact .inr ⟨q, rfl, rfl⟩
  | writing q => cases h; exact .inr ⟨q, rfl, rfl⟩
  | beating q => cases h; exact .inr ⟨q, rfl, rfl⟩
  | returned q => cases h

end HandlerPhase

/-- A broadcaster and the handlers of the connections `C`. -/
structure Hub (α C : Type) where
  bus : Broadcast α
  phase : C → HandlerPhase α

inductive HubEvent (α C : Type) where
  | subscribe (c : C)
  | confirmed (c : C) (recent : List α)
  | replayed (c : C)
  | serve (c : C)
  | take (c : C)
  | timeout (c : C)
  | written (c : C)
  | leave (c : C) (during : Await) (how : Ending)
  | publish (item : α)

/-- The handler is ended after the subscription and before the `try`. -/
def HubEvent.early {α C : Type} : HubEvent α C → Bool
  | .leave _ a _ => a.early
  | _ => false

namespace Hub

variable {α C : Type}

/-- No connection has asked for a stream yet. -/
def start : Hub α C := ⟨.empty, fun _ => .reading⟩

/-- What a handler that ends at an `await` does to the subscribers. -/
def released (s : Hub α C) (c : C) (during : Await) : Broadcast α :=
  match (s.phase c).queue? with
  | some q => if during.guarded then s.bus.unsubscribe q else s.bus
  | none => s.bus

section Steps

variable [DecidableEq C]

def goTo (s : Hub α C) (c : C) (phase : HandlerPhase α) : Hub α C :=
  { s with phase := Function.update s.phase c phase }

/-- The steps of the handlers, where at most `limit` items are replayed and `passes` is the filter
of each connection. -/
inductive Step (limit : Nat) (passes : C → α → Bool) :
    Hub α C → HubEvent α C → Hub α C → Prop where
  | subscribe {s : Hub α C} {c : C} : s.phase c = .reading →
      Step limit passes s (.subscribe c)
        ⟨s.bus.subscribe, Function.update s.phase c (.confirming s.bus.next)⟩
  | confirmed {s : Hub α C} {c : C} {q : Nat} {recent : List α} : s.phase c = .confirming q →
      recent.length ≤ limit →
      Step limit passes s (.confirmed c recent)
        (s.goTo c (.replaying q (recent.filter (passes c))))
  | replayed {s : Hub α C} {c : C} {q : Nat} {item : α} {rest : List α} :
      s.phase c = .replaying q (item :: rest) →
      Step limit passes s (.replayed c) (s.goTo c (.replaying q rest))
  | serve {s : Hub α C} {c : C} {q : Nat} : s.phase c = .replaying q [] →
      Step limit passes s (.serve c) (s.goTo c (.waiting q))
  -- the filters skip the item
  | skip {s : Hub α C} {c : C} {q : Nat} {item : α} {rest : List α} : s.phase c = .waiting q →
      s.bus.queue q = item :: rest → passes c item = false →
      Step limit passes s (.take c) { s with bus := s.bus.pop q }
  | take {s : Hub α C} {c : C} {q : Nat} {item : α} {rest : List α} : s.phase c = .waiting q →
      s.bus.queue q = item :: rest → passes c item = true →
      Step limit passes s (.take c) ⟨s.bus.pop q, Function.update s.phase c (.writing q)⟩
  | timeout {s : Hub α C} {c : C} {q : Nat} : s.phase c = .waiting q →
      Step limit passes s (.timeout c) (s.goTo c (.beating q))
  | written {s : Hub α C} {c : C} {q : Nat} : s.phase c = .writing q →
      Step limit passes s (.written c) (s.goTo c (.waiting q))
  | beaten {s : Hub α C} {c : C} {q : Nat} : s.phase c = .beating q →
      Step limit passes s (.written c) (s.goTo c (.waiting q))
  -- nothing but a cancellation ends the wait for an item
  | leave {s : Hub α C} {c : C} {a : Await} {how : Ending} : (s.phase c).await = some a →
      (a = .item → how = .cancelled) →
      Step limit passes s (.leave c a how)
        ⟨s.released c a, Function.update s.phase c (.returned (s.phase c).queue?)⟩
  | publish {s : Hub α C} {item : α} :
      Step limit passes s (.publish item) { s with bus := s.bus.publish queueSize item }

end Steps

/-! ## Queues and their handlers -/

/-- The handler of `c` has been ended early. -/
def EndedEarly (es : List (HubEvent α C)) (c : C) : Prop :=
  ∃ a how, .leave c a how ∈ es ∧ a.early = true

/-- Which queue is whose, who runs with a subscribed queue, and which of the ended handlers have
left theirs behind. -/
structure Tracked (es : List (HubEvent α C)) (s : Hub α C) : Prop where
  tickets : Tickets (fun c => (s.phase c).queue?) (List.range s.bus.next) []
  live : ∀ c q, (s.phase c).live = some q → q ∈ s.bus.subscribers
  ended : ∀ c q, s.phase c = .returned (some q) → (q ∈ s.bus.subscribers ↔ EndedEarly es c)
  final : ∀ c, EndedEarly es c → ∃ q, s.phase c = .returned (some q)

variable {limit : Nat} {passes : C → α → Bool} {es : List (HubEvent α C)} {ev : HubEvent α C}
  {s s' : Hub α C} {c c' : C} {q : Nat} {a : Await} {how : Ending}

/-- Only an early end adds to the early ends. -/
theorem endedEarly_concat : EndedEarly (es ++ [ev]) c ↔
    EndedEarly es c ∨ ∃ a how, ev = .leave c a how ∧ a.early = true := by
  constructor
  · rintro ⟨a, how, hmem, ha⟩
    rcases List.mem_append.mp hmem with hmem | hmem
    · exact .inl ⟨a, how, hmem, ha⟩
    · exact .inr ⟨a, how, (List.mem_singleton.mp hmem).symm, ha⟩
  · rintro (⟨a, how, hmem, ha⟩ | ⟨a, how, rfl, ha⟩)
    · exact ⟨a, how, List.mem_append_left _ hmem, ha⟩
    · exact ⟨a, how, List.mem_concat_self, ha⟩

theorem endedEarly_concat_of_not_early (hev : ev.early = false) :
    EndedEarly (es ++ [ev]) c ↔ EndedEarly es c := by
  rw [endedEarly_concat, or_iff_left]
  rintro ⟨a, how, rfl, ha⟩
  exact absurd (ha.symm.trans hev) (by decide)

theorem endedEarly_concat_of_ne (hne : c' ≠ c) :
    EndedEarly (es ++ [.leave c a how]) c' ↔ EndedEarly es c' := by
  rw [endedEarly_concat, or_iff_left]
  rintro ⟨a', how', heq, -⟩
  cases heq
  exact hne rfl

theorem start_tracked : Tracked [] (start : Hub α C) where
  tickets := .of_none (fun _ => rfl) List.nodup_nil fun _ hi => absurd hi List.not_mem_nil
  live := nofun
  ended := nofun
  final := nofun

/-- Running handlers go on with their queues, the others stay where they are. -/
theorem Tracked.move (h : Tracked es s) (hsubs : s'.bus.subscribers = s.bus.subscribers)
    (hnext : s'.bus.next = s.bus.next) (hev : ev.early = false)
    (hmove : ∀ c, s'.phase c = s.phase c ∨
      ∃ q, (s.phase c).live = some q ∧ (s'.phase c).live = some q) :
    Tracked (es ++ [ev]) s' where
  tickets := by
    rw [hnext]
    refine h.tickets.keep fun c q hq => ?_
    rcases hmove c with hc | ⟨q', hc, hc'⟩
    · rwa [← hc]
    · rw [HandlerPhase.queue?_of_live hc'] at hq
      rw [HandlerPhase.queue?_of_live hc, hq]
  live c q hq := by
    rw [hsubs]
    rcases hmove c with hc | ⟨q', hc, hc'⟩
    · exact h.live c q (hc ▸ hq)
    · exact h.live c q (hc.trans (hc'.symm.trans hq))
  ended c q hq := by
    rw [hsubs]
    rcases hmove c with hc | ⟨q', -, hc'⟩
    · rw [h.ended c q (hc ▸ hq), endedEarly_concat_of_not_early hev]
    · rw [hq] at hc'
      cases hc'
  final c hearly := by
    obtain ⟨q, hq⟩ := h.final c ((endedEarly_concat_of_not_early hev).mp hearly)
    rcases hmove c with hc | ⟨q', hc, -⟩
    · exact ⟨q, hc.trans hq⟩
    · rw [hq] at hc
      cases hc

/-- One handler goes on with its queue. -/
theorem move_update [DecidableEq C] {phase : HandlerPhase α} (hc : (s.phase c).live = some q)
    (hphase : phase.live = some q) (c' : C) : Function.update s.phase c phase c' = s.phase c' ∨
      ∃ q, (s.phase c').live = some q ∧ (Function.update s.phase c phase c').live = some q := by
  by_cases h : c' = c
  · subst h
    exact .inr ⟨q, hc, by rw [Function.update_self, hphase]⟩
  · exact .inl (Function.update_of_ne h _ _)

/-- A handler that was reading has a new queue. -/
theorem Tracked.subscribe [DecidableEq C] (h : Tracked es s) (hc : s.phase c = .reading)
    (hbus : s'.bus = s.bus.subscribe) (hself : s'.phase c = .confirming s.bus.next)
    (hother : ∀ c' ≠ c, s'.phase c' = s.phase c') : Tracked (es ++ [.subscribe c]) s' where
  tickets := by
    have hheld : (fun c' => (s'.phase c').queue?) =
        Function.update (fun c' => (s.phase c').queue?) c (some s.bus.next) := by
      funext c'
      by_cases hne : c' = c
      · rw [hne, hself, Function.update_self]
        rfl
      · rw [hother c' hne, Function.update_of_ne hne]
    have hnext : List.range s'.bus.next = List.range s.bus.next ++ [s.bus.next] := by
      rw [hbus]
      exact List.range_succ
    rw [hheld, hnext]
    exact h.tickets.take (fun hmem => absurd (List.mem_range.mp hmem) (Nat.lt_irrefl _))
  live c' q hq := by
    rw [hbus, Broadcast.mem_subscribe]
    by_cases hne : c' = c
    · rw [hne, hself] at hq
      exact .inl (Option.some.inj hq).symm
    · rw [hother c' hne] at hq
      exact .inr (h.live c' q hq)
  ended c' q hq := by
    have hne : c' ≠ c := by
      rintro rfl
      rw [hself] at hq
      cases hq
    rw [hother c' hne] at hq
    have hissued : q ∈ List.range s.bus.next :=
      h.tickets.issued_of_held c' q (congrArg HandlerPhase.queue? hq)
    rw [hbus, Broadcast.mem_subscribe_of_lt (List.mem_range.mp hissued), h.ended c' q hq,
      endedEarly_concat_of_not_early rfl]
  final c' hearly := by
    obtain ⟨q, hq⟩ := h.final c' ((endedEarly_concat_of_not_early rfl).mp hearly)
    have hne : c' ≠ c := by
      rintro rfl
      rw [hc] at hq
      cases hq
    exact ⟨q, (hother c' hne).trans hq⟩

/-- The queues of the other handlers are not released. -/
theorem Tracked.mem_released (h : Tracked es s) (hne : c' ≠ c)
    (hq : (s.phase c').queue? = some q) :
    q ∈ (s.released c a).subscribers ↔ q ∈ s.bus.subscribers := by
  unfold released
  split
  · next q' hq' =>
    have hqq : q ≠ q' := by
      rintro rfl
      exact hne (h.tickets.alone c' c q hq hq')
    split
    · rw [Broadcast.mem_unsubscribe]
      exact and_iff_right hqq
    · rfl
  · rfl

theorem next_released : (s.released c a).next = s.bus.next := by
  unfold released
  split
  · split <;> rfl
  · rfl

theorem queue_released : (s.released c a).queue = s.bus.queue := by
  unfold released
  split
  · split <;> rfl
  · rfl

/-- A handler that awaits something has not been ended early. -/
theorem Tracked.not_endedEarly (h : Tracked es s) (hawait : (s.phase c).await = some a) :
    ¬ EndedEarly es c := by
  intro hearly
  obtain ⟨q, hq⟩ := h.final c hearly
  rw [hq] at hawait
  cases hawait

/-- The queue of the handler stays subscribed if it is ended early. -/
theorem Tracked.mem_released_self (h : Tracked es s) (hawait : (s.phase c).await = some a)
    (hq : (s.phase c).queue? = some q) :
    q ∈ (s.released c a).subscribers ↔ a.early = true := by
  rcases HandlerPhase.await_cases hawait with ⟨hnone, -⟩ | ⟨q', hlive, hguard⟩
  · rw [hnone] at hq
    cases hq
  · obtain rfl : q' = q := Option.some.inj ((HandlerPhase.queue?_of_live hlive).symm.trans hq)
    cases hearly : a.early with
    | true =>
      have hsame : s.released c a = s.bus := by simp [released, hq, hguard, hearly]
      rw [hsame]
      exact iff_of_true (h.live c q' hlive) rfl
    | false =>
      have hout : s.released c a = s.bus.unsubscribe q' := by simp [released, hq, hguard, hearly]
      rw [hout, Broadcast.mem_unsubscribe]
      exact iff_of_false (fun hmem => hmem.1 rfl) Bool.false_ne_true

/-- A handler is ended, and keeps its queue subscribed if that happens early. -/
theorem Tracked.leave (h : Tracked es s) (hawait : (s.phase c).await = some a)
    (hbus : s'.bus = s.released c a) (hself : s'.phase c = .returned (s.phase c).queue?)
    (hother : ∀ c' ≠ c, s'.phase c' = s.phase c') : Tracked (es ++ [.leave c a how]) s' := by
  have hevent : EndedEarly (es ++ [.leave c a how]) c ↔ a.early = true := by
    rw [endedEarly_concat, or_iff_right (h.not_endedEarly hawait)]
    constructor
    · rintro ⟨a', how', heq, ha⟩
      cases heq
      exact ha
    · exact fun ha => ⟨a, how, rfl, ha⟩
  refine ⟨?_, fun c' q hq => ?_, fun c' q hq => ?_, fun c' hearly => ?_⟩
  · rw [hbus, next_released]
    refine h.tickets.keep fun c' q hq => ?_
    by_cases hne : c' = c
    · rw [hne, hself] at hq
      rwa [hne]
    · rwa [hother c' hne] at hq
  · have hne : c' ≠ c := by
      rintro rfl
      rw [hself] at hq
      cases hq
    rw [hother c' hne] at hq
    rw [hbus, h.mem_released hne (HandlerPhase.queue?_of_live hq)]
    exact h.live c' q hq
  · by_cases hne : c' = c
    · subst hne
      rw [hself] at hq
      rw [hbus, h.mem_released_self hawait (HandlerPhase.returned.inj hq), hevent]
    · rw [hother c' hne] at hq
      rw [hbus, h.mem_released hne (congrArg HandlerPhase.queue? hq), h.ended c' q hq,
        endedEarly_concat_of_ne hne]
  · by_cases hne : c' = c
    · subst hne
      rcases HandlerPhase.await_cases hawait with ⟨-, hlate⟩ | ⟨q, hlive, -⟩
      · exact absurd ((hevent.mp hearly).symm.trans hlate) (by decide)
      · exact ⟨q, by rw [hself, HandlerPhase.queue?_of_live hlive]⟩
    · obtain ⟨q, hq⟩ := h.final c' ((endedEarly_concat_of_ne hne).mp hearly)
      exact ⟨q, (hother c' hne).trans hq⟩

theorem Tracked.step [DecidableEq C] (h : Tracked es s) (hstep : Step limit passes s ev s') :
    Tracked (es ++ [ev]) s' := by
  cases hstep with
  | subscribe hc =>
    exact h.subscribe hc rfl (Function.update_self _ _ _) fun c' hne =>
      Function.update_of_ne hne _ _
  | confirmed hc _ => exact h.move rfl rfl rfl (move_update (congrArg HandlerPhase.live hc) rfl)
  | replayed hc => exact h.move rfl rfl rfl (move_update (congrArg HandlerPhase.live hc) rfl)
  | serve hc => exact h.move rfl rfl rfl (move_update (congrArg HandlerPhase.live hc) rfl)
  | skip hc _ _ => exact h.move rfl rfl rfl fun _ => .inl rfl
  | take hc _ _ => exact h.move rfl rfl rfl (move_update (congrArg HandlerPhase.live hc) rfl)
  | timeout hc => exact h.move rfl rfl rfl (move_update (congrArg HandlerPhase.live hc) rfl)
  | written hc => exact h.move rfl rfl rfl (move_update (congrArg HandlerPhase.live hc) rfl)
  | beaten hc => exact h.move rfl rfl rfl (move_update (congrArg HandlerPhase.live hc) rfl)
  | leave hawait _ =>
    exact h.leave hawait rfl (Function.update_self _ _ _) fun c' hne =>
      Function.update_of_ne hne _ _
  | publish => exact h.move rfl rfl rfl fun _ => .inl rfl

theorem tracked_of_run [DecidableEq C] (hrun : Run (Step limit passes) start es s) :
    Tracked es s :=
  hrun.history (fun _ _ _ _ h hstep => h.step hstep) start_tracked

/-! ## Subscriptions and streams -/

/-- The queue of a handler that has returned is no longer subscribed. -/
def Released (s : Hub α C) : Prop :=
  ∀ c q, s.phase c = .returned (some q) → q ∉ s.bus.subscribers

/-- The queue of a handler that runs is subscribed, and the end of a handler leaves the
subscriptions and the queues of the others as they are. -/
structure Spares [DecidableEq C] (limit : Nat) (passes : C → α → Bool) (s : Hub α C) : Prop where
  live : ∀ c q, (s.phase c).live = some q → q ∈ s.bus.subscribers
  others : ∀ c a how s', Step limit passes s (.leave c a how) s' →
    ∀ c' q, c' ≠ c → (s.phase c').queue? = some q →
      (q ∈ s'.bus.subscribers ↔ q ∈ s.bus.subscribers) ∧ s'.bus.queue q = s.bus.queue q

/-- A queue is left behind exactly by an early end. -/
theorem Tracked.released_iff (h : Tracked es s) :
    s.Released ↔ ∀ ev ∈ es, ev.early = false := by
  constructor
  · intro hreleased ev hev
    by_contra hearly
    cases ev with
    | leave c a how =>
      have ha : a.early = true := by simpa [HubEvent.early] using hearly
      obtain ⟨q, hq⟩ := h.final c ⟨a, how, hev, ha⟩
      exact hreleased c q hq ((h.ended c q hq).mpr ⟨a, how, hev, ha⟩)
    | _ => exact hearly rfl
  · intro hnone c q hq hmem
    obtain ⟨a, how, hev, ha⟩ := (h.ended c q hq).mp hmem
    exact absurd (ha.symm.trans (hnone _ hev)) (by decide)

theorem Tracked.spares [DecidableEq C] (h : Tracked es s) : s.Spares limit passes where
  live := h.live
  others c a how s' hstep c' q hne hq := by
    cases hstep with
    | leave =>
      refine ⟨h.mem_released hne hq, ?_⟩
      dsimp only
      rw [queue_released]

end Hub

/-- The event bus with the monitor connections `C`, and the packet monitor with the packet-monitor
connections `D`. Only the packet monitor replays. -/
def StreamServer.Step {C D : Type} [DecidableEq C] [DecidableEq D] (lower upper : Text → Text)
    (eventFilter : C → EventFilter) (packetFilter : D → PacketFilter) :
    Hub FlowEvent C × Hub PacketMetadata D → HubEvent FlowEvent C ⊕ HubEvent PacketMetadata D →
      Hub FlowEvent C × Hub PacketMetadata D → Prop :=
  Interleaved (Hub.Step 0 fun c => (eventFilter c).passes lower)
    (Hub.Step replayLimit fun d => (packetFilter d).passes upper)

/-- Subscriptions live as long as streams: with any number of connections of both kinds, the queues
of those that have returned are no longer subscribed, exactly when none of them was ended during the
confirmation or the replay. The end of a connection never touches the queues of others. -/
theorem subscriptions_live_as_streams {C D : Type} [DecidableEq C] [DecidableEq D]
    {lower upper : Text → Text} {eventFilter : C → EventFilter} {packetFilter : D → PacketFilter}
    {es : List (HubEvent FlowEvent C ⊕ HubEvent PacketMetadata D)}
    {s : Hub FlowEvent C × Hub PacketMetadata D}
    (hrun : Run (StreamServer.Step lower upper eventFilter packetFilter) (Hub.start, Hub.start)
      es s) :
    ((s.1.Released ∧ s.2.Released) ↔ ∀ ev ∈ es, Sum.elim HubEvent.early HubEvent.early ev = false) ∧
      s.1.Spares 0 (fun c => (eventFilter c).passes lower) ∧
      s.2.Spares replayLimit (fun d => (packetFilter d).passes upper) := by
  have hevents := Hub.tracked_of_run hrun.left
  have hpackets := Hub.tracked_of_run hrun.right
  refine ⟨?_, hevents.spares, hpackets.spares⟩
  rw [hevents.released_iff, hpackets.released_iff]
  constructor
  · rintro ⟨hleft, hright⟩ (ev | ev) hev
    · exact hleft ev (List.mem_filterMap.mpr ⟨_, hev, rfl⟩)
    · exact hright ev (List.mem_filterMap.mpr ⟨_, hev, rfl⟩)
  · intro hnone
    constructor
    · intro ev hev
      obtain ⟨e, he, heq⟩ := List.mem_filterMap.mp hev
      cases e with
      | inl e => cases heq; exact hnone _ he
      | inr e => cases heq
    · intro ev hev
      obtain ⟨e, he, heq⟩ := List.mem_filterMap.mp hev
      cases e with
      | inl e => cases heq
      | inr e => cases heq; exact hnone _ he

section Example

/-- A server with one connection of each kind, and no filters. -/
abbrev quietServer := StreamServer.Step (C := Unit) (D := Unit) id id (fun _ => {}) (fun _ => {})

/-- The peer is gone when an event is written to it. -/
def endedLive : List (HubEvent FlowEvent Unit ⊕ HubEvent PacketMetadata Unit) := [
  .inl (.subscribe ()), .inl (.confirmed () []), .inl (.serve ()), .inl (.publish blockedEvent),
  .inl (.take ()), .inl (.leave () .liveWrite .peer)]

/-- The peer is gone when the stream is confirmed, and an event comes later. -/
def endedEarly : List (HubEvent FlowEvent Unit ⊕ HubEvent PacketMetadata Unit) := [
  .inl (.subscribe ()), .inl (.leave () .confirmation .peer), .inl (.publish blockedEvent)]

/-- The queue of a handler that is ended by a live write is unsubscribed. -/
theorem subscriptions_live_as_streams_live : ∃ s,
    Run quietServer (Hub.start, Hub.start) endedLive s ∧
      s.1.phase () = .returned (some 0) ∧ s.1.Released := by
  have hrun : ∃ s, Run quietServer (Hub.start, Hub.start) endedLive s ∧
      s.1.phase () = .returned (some 0) :=
    ⟨_, .cons (.left (.subscribe rfl)) (.cons (.left (.confirmed rfl (Nat.zero_le _)))
      (.cons (.left (.serve rfl)) (.cons (.left .publish) (.cons (.left (.take rfl rfl rfl))
      (.single (.left (.leave rfl nofun))))))), rfl⟩
  obtain ⟨s, hrun, hphase⟩ := hrun
  exact ⟨s, hrun, hphase, ((subscriptions_live_as_streams hrun).1.mpr (by decide)).1⟩

/-- The handler has returned, and its queue is still fed. -/
theorem subscription_leaks : ∃ s, Run quietServer (Hub.start, Hub.start) endedEarly s ∧
    s.1.phase () = .returned (some 0) ∧ 0 ∈ s.1.bus.subscribers ∧
    s.1.bus.queue 0 = [blockedEvent] ∧ ¬ s.1.Released := by
  have hrun : ∃ s, Run quietServer (Hub.start, Hub.start) endedEarly s ∧
      s.1.phase () = .returned (some 0) ∧ 0 ∈ s.1.bus.subscribers ∧
      s.1.bus.queue 0 = [blockedEvent] :=
    ⟨_, .cons (.left (.subscribe rfl)) (.cons (.left (.leave rfl nofun))
      (.single (.left .publish))), rfl, Finset.mem_insert_self _ _, rfl⟩
  obtain ⟨s, hrun, hphase, hmem, hqueue⟩ := hrun
  exact ⟨s, hrun, hphase, hmem, hqueue, fun h => h () 0 hphase hmem⟩

end Example

end FocusGuard
