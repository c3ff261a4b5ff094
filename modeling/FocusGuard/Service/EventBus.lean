import FocusGuard.Lib.AsyncQueue
import FocusGuard.Lib.Broadcast
import FocusGuard.Lib.Runs
import FocusGuard.Service.StreamMessages

/-!
# The event bus

`EventBus` of `focusguard/service/event_bus.py`, with subscribers that come, go and take events at
their own pace.

## Main results

* `EventBus.view_publish`: the bus is a `Broadcast`.
* `Delivered.step`: what each queue holds, against what was published since it was subscribed.
* `newest_in_order`: the newest events are delivered, in order.
-/

namespace FocusGuard

/-- The queues are numbered in the order in which they are made. -/
structure EventBus where
  subscribers : Finset Nat
  queues : Nat → AsyncQueue FlowEvent
  /-- The next queue to be made. -/
  next : Nat
  made : ∀ q ∈ subscribers, q < next

namespace EventBus

variable {b b' : EventBus} {q q' : Nat} {e : FlowEvent} {order : List Nat} {maxsize : Int}

def empty : EventBus where
  subscribers := ∅
  queues _ := .new 0
  next := 0
  made := Broadcast.made_none

def subscribe (b : EventBus) (maxsize : Int := 100) : EventBus where
  subscribers := insert b.next b.subscribers
  queues := Function.update b.queues b.next (.new maxsize)
  next := b.next + 1
  made q hq := by
    rcases Finset.mem_insert.mp hq with rfl | hq
    · exact Nat.lt_succ_self _
    · exact Nat.lt_succ_of_lt (b.made q hq)

/-- `set.discard`. -/
def unsubscribe (b : EventBus) (q : Nat) : EventBus where
  subscribers := b.subscribers.erase q
  queues := b.queues
  next := b.next
  made q hq := b.made q (Finset.mem_of_mem_erase hq)

/-- The subscribers are served in the order in which the set is iterated. -/
def publish (b : EventBus) (order : List Nat) (e : FlowEvent) : EventBus :=
  { b with
    queues := order.foldl
      (fun queues q => Function.update queues q ((queues q).putNewest e)) b.queues }

/-- A subscriber has taken an event out of its queue. -/
def took (b : EventBus) (q : Nat) (rest : AsyncQueue FlowEvent) : EventBus :=
  { b with queues := Function.update b.queues q rest }

end EventBus

inductive BusEvent where
  | subscribe (q : Nat) (maxsize : Int)
  | unsubscribe (q : Nat)
  | publish (e : FlowEvent)
  | get (q : Nat) (e : FlowEvent)

inductive EventBus.Step : EventBus → BusEvent → EventBus → Prop where
  | subscribe {b : EventBus} {maxsize : Int} :
      Step b (.subscribe b.next maxsize) (b.subscribe maxsize)
  | unsubscribe {b : EventBus} {q : Nat} : Step b (.unsubscribe q) (b.unsubscribe q)
  | publish {b : EventBus} {e : FlowEvent} {order : List Nat} :
      order.Nodup → (∀ q, q ∈ order ↔ q ∈ b.subscribers) →
      Step b (.publish e) (b.publish order e)
  -- `await queue.get()` is over when there is an event
  | get {b : EventBus} {q : Nat} {e : FlowEvent} {rest : AsyncQueue FlowEvent} :
      (b.queues q).getNowait = some (e, rest) → Step b (.get q e) (b.took q rest)

/-! ## The bus is a broadcast -/

namespace EventBus

variable {b b' : EventBus} {q q' : Nat} {e : FlowEvent} {order : List Nat} {maxsize : Int}
  {rest : AsyncQueue FlowEvent}

theorem queues_subscribe_self : (b.subscribe maxsize).queues b.next = .new maxsize :=
  Function.update_self _ _ _

theorem queues_subscribe_of_ne (h : q ≠ b.next) :
    (b.subscribe maxsize).queues q = b.queues q :=
  Function.update_of_ne h _ _

theorem queues_took_self : (b.took q rest).queues q = rest := Function.update_self _ _ _

theorem queues_took_of_ne (h : q' ≠ q) : (b.took q rest).queues q' = b.queues q' :=
  Function.update_of_ne h _ _

/-- Every queue among the given ones has the event put, once. -/
theorem foldl_putNewest (horder : order.Nodup) (queues : Nat → AsyncQueue FlowEvent) :
    order.foldl (fun queues q => Function.update queues q ((queues q).putNewest e)) queues q =
      if q ∈ order then (queues q).putNewest e else queues q := by
  induction order generalizing queues with
  | nil => simp
  | cons q₀ order ih =>
    obtain ⟨hnotin, hnodup⟩ := List.nodup_cons.mp horder
    rw [List.foldl_cons, ih hnodup]
    by_cases hq : q = q₀
    · subst hq
      rw [if_neg hnotin, if_pos List.mem_cons_self, Function.update_self]
    · rw [Function.update_of_ne hq]
      simp only [List.mem_cons, hq, false_or]

/-- In whatever order the subscribers are served. -/
theorem queues_publish (horder : order.Nodup) (hmem : ∀ q, q ∈ order ↔ q ∈ b.subscribers) :
    (b.publish order e).queues q =
      if q ∈ b.subscribers then (b.queues q).putNewest e else b.queues q := by
  simp only [publish, foldl_putNewest horder, hmem]

/-- The bus without the sizes of its queues. -/
def view (b : EventBus) : Broadcast FlowEvent where
  subscribers := b.subscribers
  queue q := (b.queues q).items
  next := b.next
  made := b.made

theorem queue_view : b.view.queue q = (b.queues q).items := rfl

theorem view_subscribe : (b.subscribe maxsize).view = b.view.subscribe := by
  have hqueue : (b.subscribe maxsize).view.queue = b.view.subscribe.queue := by
    funext q
    by_cases hq : q = b.next
    · subst hq
      rw [queue_view, queues_subscribe_self, Broadcast.queue_subscribe]
      exact (Function.update_self b.next _ b.view.queue).symm
    · rw [queue_view, queues_subscribe_of_ne hq, Broadcast.queue_subscribe]
      exact (Function.update_of_ne hq _ b.view.queue).symm
  rw [view, Broadcast.subscribe, Broadcast.mk.injEq]
  exact ⟨rfl, hqueue, rfl⟩

theorem view_unsubscribe : (b.unsubscribe q).view = b.view.unsubscribe q := rfl

theorem view_publish {size : Nat} (hsize : 0 < size)
    (hsized : ∀ q ∈ b.subscribers, (b.queues q).maxsize = size) (horder : order.Nodup)
    (hmem : ∀ q, q ∈ order ↔ q ∈ b.subscribers) :
    (b.publish order e).view = b.view.publish size e := by
  unfold view Broadcast.publish
  congr 1
  funext q
  rw [queues_publish horder hmem]
  by_cases hq : q ∈ b.subscribers
  · have hpos : 0 < (b.queues q).maxsize := by
      rw [hsized q hq]
      exact Int.natCast_pos.mpr hsize
    rw [if_pos hq, if_pos hq, AsyncQueue.items_putNewest hpos, hsized q hq, Int.toNat_natCast]
  · rw [if_neg hq, if_neg hq]

theorem view_took (hget : (b.queues q).getNowait = some (e, rest)) :
    (b.took q rest).view = b.view.pop q := by
  have hqueue : (b.took q rest).view.queue = (b.view.pop q).queue := by
    funext q'
    by_cases hq : q' = q
    · rw [hq, queue_view, queues_took_self, Broadcast.queue_pop, Function.update_self, queue_view,
        (AsyncQueue.getNowait_eq_some hget).1, List.tail_cons]
    · rw [queue_view, queues_took_of_ne hq, Broadcast.queue_pop, Function.update_of_ne hq, queue_view]
  rw [view, Broadcast.pop, Broadcast.mk.injEq]
  exact ⟨rfl, hqueue, rfl⟩

end EventBus

/-! ## What a subscriber may expect -/

namespace BusEvent

def published? : BusEvent → Option FlowEvent
  | .publish e => some e
  | _ => none

/-- What the owner of the queue takes. -/
def taken? (q : Nat) : BusEvent → Option FlowEvent
  | .get q' e => if q' = q then some e else none
  | _ => none

def subscribes (q : Nat) : BusEvent → Bool
  | .subscribe q' _ => q' = q
  | _ => false

end BusEvent

/-- The events published since the queue was subscribed. -/
def publishedSince (es : List BusEvent) (q : Nat) : List FlowEvent :=
  (es.dropWhile fun ev => !ev.subscribes q).filterMap BusEvent.published?

/-- The events taken out of the queue so far. -/
def taken (es : List BusEvent) (q : Nat) : List FlowEvent := es.filterMap (BusEvent.taken? q)

/-- At some publication of the run, the queue was full. -/
def Overflowed (es : List BusEvent) (b : EventBus) (q : Nat) : Prop :=
  ∃ es₁ e es₂ b₁, es = es₁ ++ .publish e :: es₂ ∧ Run EventBus.Step .empty es₁ b₁ ∧
    Run EventBus.Step b₁ (.publish e :: es₂) b ∧ q ∈ b₁.subscribers ∧ (b₁.queues q).Full

section Histories

variable {es : List BusEvent} {ev : BusEvent} {b b' : EventBus} {q : Nat} {e : FlowEvent}
  {maxsize : Int}

theorem taken_concat : taken (es ++ [ev]) q = taken es q ++ [ev].filterMap (BusEvent.taken? q) :=
  List.filterMap_append

theorem publishedSince_concat (h : ∃ ev ∈ es, ev.subscribes q = true) :
    publishedSince (es ++ [ev]) q =
      publishedSince es q ++ [ev].filterMap BusEvent.published? := by
  unfold publishedSince
  rw [List.dropWhile_append, if_neg, List.filterMap_append]
  simpa using h

theorem publishedSince_subscribe (h : ∀ ev ∈ es, ev.subscribes q = false) :
    publishedSince (es ++ [.subscribe q maxsize]) q = [] := by
  unfold publishedSince
  rw [List.dropWhile_append, if_pos]
  · simp [BusEvent.subscribes, BusEvent.published?]
  · simpa using h

theorem Overflowed.concat (h : Overflowed es b q) (hstep : EventBus.Step b ev b') :
    Overflowed (es ++ [ev]) b' q := by
  obtain ⟨es₁, e, es₂, b₁, rfl, hrun, hrun', hq, hfull⟩ := h
  refine ⟨es₁, e, es₂ ++ [ev], b₁, ?_, hrun, ?_, hq, hfull⟩
  · rw [List.append_assoc, List.cons_append]
  · exact hrun'.append (.single hstep)

end Histories

/-! ## Deliveries -/

/-- A subscribed queue against what was published since. -/
structure Fed (es : List BusEvent) (b : EventBus) (q : Nat) : Prop where
  subscribed : .subscribe q (b.queues q).maxsize ∈ es
  newest : (b.queues q).items <:+ publishedSince es q
  inOrder : (taken es q ++ (b.queues q).items).Sublist (publishedSince es q)
  complete : taken es q ++ (b.queues q).items = publishedSince es q ∨ Overflowed es b q

/-- A number that has not been given to a queue. -/
structure Unmade (es : List BusEvent) (b : EventBus) (q : Nat) : Prop where
  unsubscribed : ∀ ev ∈ es, ev.subscribes q = false
  empty : (b.queues q).items = []
  untouched : taken es q = []

structure Delivered (es : List BusEvent) (b : EventBus) : Prop where
  run : Run EventBus.Step .empty es b
  unmade : ∀ q, b.next ≤ q → Unmade es b q
  fed : ∀ q ∈ b.subscribers, Fed es b q

section Steps

variable {es : List BusEvent} {ev : BusEvent} {b b' : EventBus} {q q' : Nat} {e : FlowEvent}
  {maxsize : Int}

theorem Fed.exists_subscribes (h : Fed es b q) : ∃ ev ∈ es, ev.subscribes q = true :=
  ⟨_, h.subscribed, decide_eq_true rfl⟩

/-- Events that neither publish nor touch the queue leave it. -/
theorem Fed.other (h : Fed es b q) (hstep : EventBus.Step b ev b')
    (hqueue : b'.queues q = b.queues q) (hpub : ev.published? = none)
    (htaken : ev.taken? q = none) : Fed (es ++ [ev]) b' q := by
  have hsince : publishedSince (es ++ [ev]) q = publishedSince es q := by
    rw [publishedSince_concat h.exists_subscribes, List.filterMap_cons_none hpub, List.filterMap_nil,
      List.append_nil]
  have htook : taken (es ++ [ev]) q = taken es q := by
    rw [taken_concat, List.filterMap_cons_none htaken, List.filterMap_nil, List.append_nil]
  constructor
  · rw [hqueue]
    exact List.mem_append_left _ h.subscribed
  · rw [hqueue, hsince]
    exact h.newest
  · rw [hqueue, hsince, htook]
    exact h.inOrder
  · rw [hqueue, hsince, htook]
    exact h.complete.imp_right (·.concat hstep)

/-- A queue that is published to has the event; a full queue has lost its oldest. -/
theorem Fed.publish (h : Fed es b q) (hstep : EventBus.Step b (.publish e) b')
    (hq : q ∈ b.subscribers) (hrun : Run EventBus.Step .empty es b)
    (hqueue : b'.queues q = (b.queues q).putNewest e) : Fed (es ++ [.publish e]) b' q := by
  have hsince : publishedSince (es ++ [.publish e]) q = publishedSince es q ++ [e] :=
    publishedSince_concat h.exists_subscribes
  have htook : taken (es ++ [.publish e]) q = taken es q :=
    taken_concat.trans (List.append_nil _)
  obtain ⟨kept, hitems, hkept, hall⟩ :=
    AsyncQueue.putNewest_spec (q := b.queues q) (a := e)
  rw [← hqueue] at hitems
  constructor
  · rw [hqueue, AsyncQueue.maxsize_putNewest]
    exact List.mem_append_left _ h.subscribed
  · rw [hitems, hsince]
    exact List.suffix_append_self_iff.mpr (hkept.trans h.newest)
  · rw [hitems, hsince, htook, ← List.append_assoc]
    refine List.Sublist.append_right (.trans ?_ h.inOrder) _
    exact hkept.sublist.append_left _
  · rcases hall with rfl | hfull
    · refine h.complete.imp (fun hcomplete => ?_) (·.concat hstep)
      rw [hitems, hsince, htook, ← List.append_assoc, hcomplete]
    · exact .inr ⟨es, e, [], b, rfl, hrun, .single hstep, hq, hfull⟩

/-- The owner of the queue takes its oldest event. -/
theorem Fed.get {rest : AsyncQueue FlowEvent} (h : Fed es b q)
    (hget : (b.queues q).getNowait = some (e, rest)) :
    Fed (es ++ [.get q e]) (b.took q rest) q := by
  obtain ⟨hitems, hsize⟩ := AsyncQueue.getNowait_eq_some hget
  have hsince : publishedSince (es ++ [.get q e]) q = publishedSince es q :=
    (publishedSince_concat h.exists_subscribes).trans (List.append_nil _)
  have htook : taken (es ++ [.get q e]) q ++ rest.items = taken es q ++ (b.queues q).items := by
    rw [taken_concat, hitems, List.append_assoc]
    simp [BusEvent.taken?]
  have hstep : EventBus.Step b (.get q e) (b.took q rest) := .get hget
  constructor
  · rw [EventBus.queues_took_self, hsize]
    exact List.mem_append_left _ h.subscribed
  · rw [EventBus.queues_took_self, hsince]
    refine .trans ?_ h.newest
    rw [hitems]
    exact List.suffix_cons _ _
  · rw [EventBus.queues_took_self, hsince, htook]
    exact h.inOrder
  · rw [EventBus.queues_took_self, hsince, htook]
    exact h.complete.imp_right (·.concat hstep)

/-- A queue that has just been made is empty. -/
theorem Unmade.fed (h : Unmade es b b.next) :
    Fed (es ++ [.subscribe b.next maxsize]) (b.subscribe maxsize) b.next := by
  have hsince : publishedSince (es ++ [.subscribe b.next maxsize]) b.next = [] :=
    publishedSince_subscribe h.unsubscribed
  have htook : taken (es ++ [.subscribe b.next maxsize]) b.next = [] := by
    rw [taken_concat, h.untouched]
    exact List.append_nil _
  have hitems : ((b.subscribe maxsize).queues b.next).items = [] := by
    rw [EventBus.queues_subscribe_self]
    rfl
  constructor
  · rw [EventBus.queues_subscribe_self]
    exact List.mem_concat_self
  · rw [hitems]
    exact List.nil_suffix
  · rw [hitems, htook]
    exact List.nil_sublist _
  · rw [hitems, hsince, htook]
    exact .inl rfl

/-- A number stays free if no queue is made under it. -/
theorem Unmade.concat (h : Unmade es b q) (hqueue : (b'.queues q).items = (b.queues q).items)
    (hev : ev.subscribes q = false) (htaken : ev.taken? q = none) : Unmade (es ++ [ev]) b' q where
  unsubscribed ev' hmem := by
    rcases List.mem_append.mp hmem with hmem | hmem
    · exact h.unsubscribed ev' hmem
    · rwa [List.mem_singleton.mp hmem]
  empty := by rw [hqueue, h.empty]
  untouched := by
    rw [taken_concat, h.untouched, List.filterMap_cons_none htaken]
    rfl

theorem Delivered.step (h : Delivered es b) (hstep : EventBus.Step b ev b') :
    Delivered (es ++ [ev]) b' := by
  refine ⟨h.run.append (.single hstep), ?_, ?_⟩
  · intro q hq
    cases hstep with
    | subscribe =>
      have hlt : b.next < q := hq
      refine (h.unmade q hlt.le).concat ?_ (decide_eq_false hlt.ne) rfl
      rw [EventBus.queues_subscribe_of_ne hlt.ne']
    | unsubscribe => exact (h.unmade q hq).concat rfl rfl rfl
    | publish horder hmem =>
      have hnotin : q ∉ b.subscribers := fun hin => absurd (b.made q hin) (Nat.not_lt.mpr hq)
      refine (h.unmade q hq).concat ?_ rfl rfl
      rw [EventBus.queues_publish horder hmem, if_neg hnotin]
    | @get q' _ _ hget =>
      have hunmade := h.unmade q hq
      have hne : q ≠ q' := by
        rintro rfl
        have hitems := (AsyncQueue.getNowait_eq_some hget).1
        rw [hunmade.empty] at hitems
        cases hitems
      refine hunmade.concat ?_ rfl (if_neg hne.symm)
      rw [EventBus.queues_took_of_ne hne]
  · intro q hq
    cases hstep with
    | subscribe =>
      rcases Finset.mem_insert.mp hq with rfl | hold
      · exact (h.unmade _ le_rfl).fed
      · have hne : q ≠ b.next := (b.made q hold).ne
        exact (h.fed q hold).other .subscribe (EventBus.queues_subscribe_of_ne hne) rfl rfl
    | unsubscribe => exact (h.fed q (Finset.mem_of_mem_erase hq)).other .unsubscribe rfl rfl rfl
    | publish horder hmem =>
      refine (h.fed q hq).publish (.publish horder hmem) hq h.run ?_
      exact (EventBus.queues_publish horder hmem).trans (if_pos hq)
    | @get q' _ _ hget =>
      by_cases hne : q = q'
      · subst hne
        exact (h.fed q hq).get hget
      · exact (h.fed q hq).other (.get hget) (EventBus.queues_took_of_ne hne) rfl
          (if_neg (Ne.symm hne))

theorem empty_delivered : Delivered [] .empty where
  run := .nil _
  unmade _ _ := ⟨fun _ hmem => absurd hmem List.not_mem_nil, rfl, rfl⟩
  fed q hq := absurd hq (Finset.notMem_empty q)

end Steps

theorem delivered_of_run {es : List BusEvent} {b : EventBus}
    (h : Run EventBus.Step .empty es b) : Delivered es b :=
  h.history (fun _ _ _ _ h hstep => h.step hstep) empty_delivered

/-- What an event does to a broadcast whose queues have all the same size. -/
def BusEvent.broadcast (size : Nat) (b : Broadcast FlowEvent) : BusEvent → Broadcast FlowEvent
  | .subscribe _ _ => b.subscribe
  | .unsubscribe q => b.unsubscribe q
  | .publish e => b.publish size e
  | .get q _ => b.pop q

/-- With queues of one size, runs of the bus are those of the broadcast. -/
theorem EventBus.view_of_run {size : Nat} (hsize : 0 < size) {es : List BusEvent} {b : EventBus}
    (hrun : Run EventBus.Step .empty es b)
    (hsized : ∀ q (maxsize : Int), .subscribe q maxsize ∈ es → maxsize = size) :
    b.view = es.foldl (BusEvent.broadcast size) EventBus.empty.view := by
  refine hrun.history (I := fun es b => Delivered es b ∧
    ((∀ q (maxsize : Int), .subscribe q maxsize ∈ es → maxsize = size) →
      b.view = es.foldl (BusEvent.broadcast size) EventBus.empty.view))
    ?_ ⟨empty_delivered, fun _ => rfl⟩ |>.2 hsized
  rintro es b ev b' ⟨hdelivered, hview⟩ hstep
  refine ⟨hdelivered.step hstep, fun hsized => ?_⟩
  have hbefore : ∀ q (maxsize : Int), .subscribe q maxsize ∈ es → maxsize = size := fun q n hmem =>
    hsized q n (List.mem_append_left _ hmem)
  rw [List.foldl_concat, ← hview hbefore]
  cases hstep with
  | subscribe => exact EventBus.view_subscribe
  | unsubscribe => exact EventBus.view_unsubscribe
  | publish horder hmem =>
    have hsizes : ∀ q ∈ b.subscribers, (b.queues q).maxsize = size := fun q hq =>
      hbefore q _ (hdelivered.fed q hq).subscribed
    exact EventBus.view_publish hsize hsizes horder hmem
  | get hget => exact EventBus.view_took hget

/-- The newest events are delivered in order: the queue of a subscriber ends what was published
since, and takes with queue are a part of it, without anything left out if the queue was never found
full. What has just been published is last in every queue. -/
theorem newest_in_order {es : List BusEvent} {b : EventBus} (hrun : Run EventBus.Step .empty es b)
    (hsized : ∀ q (maxsize : Int), .subscribe q maxsize ∈ es → 1 ≤ maxsize) {q : Nat}
    (hq : q ∈ b.subscribers) :
    (b.queues q).items <:+ publishedSince es q ∧
      .subscribe q (b.queues q).maxsize ∈ es ∧
      ((b.queues q).items.length : Int) ≤ (b.queues q).maxsize ∧
      (taken es q ++ (b.queues q).items).Sublist (publishedSince es q) ∧
      (taken es q ++ (b.queues q).items ≠ publishedSince es q → Overflowed es b q) ∧
      ∀ es' e, es = es' ++ [.publish e] → (b.queues q).items.getLast? = some e := by
  have h := (delivered_of_run hrun).fed q hq
  have hfits := (b.queues q).fits (hsized _ _ h.subscribed)
  refine ⟨h.newest, h.subscribed, hfits, h.inOrder, h.complete.resolve_left, ?_⟩
  rintro es' e rfl
  obtain ⟨b₁, -, hlast⟩ := hrun.split
  cases hlast with
  | cons hstep hnil =>
    cases hnil
    cases hstep with
    | publish horder hmem =>
      obtain ⟨kept, hitems, -⟩ := AsyncQueue.putNewest_spec (q := b₁.queues q) (a := e)
      have hqueue : (b₁.publish _ e).queues q = (b₁.queues q).putNewest e :=
        (EventBus.queues_publish horder hmem).trans (if_pos hq)
      rw [hqueue, hitems, List.getLast?_concat]

def laterEvent : FlowEvent := { blockedEvent with timestamp := "2024-01-01T12:00:01" }

/-- Two events are published to a queue with room for one. -/
def twoEvents : List BusEvent :=
  [.subscribe 0 1, .publish blockedEvent, .publish laterEvent]

/-- The queue ends with the second event and has no room for the first. -/
theorem newest_in_order_twoEvents : ∃ b, Run EventBus.Step .empty twoEvents b ∧
    (b.queues 0).items.length ≤ 1 ∧ (b.queues 0).items.getLast? = some laterEvent := by
  have hsubscribe : EventBus.Step .empty (.subscribe 0 1) (EventBus.empty.subscribe 1) := .subscribe
  have hpublish : ∀ b e, b.subscribers = {0} → EventBus.Step b (.publish e) (b.publish [0] e) := by
    intro b e hb
    refine .publish (List.nodup_singleton 0) fun q => ?_
    rw [hb, List.mem_singleton, Finset.mem_singleton]
  have hrun : Run EventBus.Step .empty twoEvents _ :=
    .cons hsubscribe (.cons (hpublish _ _ rfl) (.single (hpublish _ _ rfl)))
  have hsized : ∀ q (maxsize : Int), .subscribe q maxsize ∈ twoEvents → 1 ≤ maxsize := by
    simp [twoEvents]
  obtain ⟨-, hmem, hlength, -, -, hlast⟩ := newest_in_order hrun hsized (Finset.mem_insert_self 0 ∅)
  refine ⟨_, hrun, ?_, hlast [.subscribe 0 1, .publish blockedEvent] _ rfl⟩
  have hone : ∀ n : Int, .subscribe 0 n ∈ twoEvents → n = 1 := by simp [twoEvents]
  rw [hone _ hmem] at hlength
  omega

end FocusGuard
