import FocusGuard.Network.Devices
import FocusGuard.Network.Flows
import Mathlib.Algebra.Order.Floor.Ring
import Mathlib.Data.Rat.Floor
import Mathlib.Tactic.NormNum

/-!
# Listings of devices and flows

What the trackers list is sorted by the ISO 8601 texts of the last times.

## Main results

* `fromTimestamp_micros`: a reading that is a whole number of microseconds is that instant.
* `listings_newest_first`: devices and flows are listed most recently active first.
-/

namespace FocusGuard

open Calendar

/-! ## Flows -/

/-- `round(x)`: halves go to the even neighbour. -/
def roundHalfEven (x : ℚ) : Int :=
  let fraction := x - ⌊x⌋
  if fraction < 1 / 2 ∨ fraction = 1 / 2 ∧ ⌊x⌋ % 2 = 0 then ⌊x⌋ else ⌊x⌋ + 1

/-- `datetime.fromtimestamp(x, tz=timezone.utc)`; `none` is an exception. -/
def fromTimestamp (x : ℚ) : Option Instant := ofMicros (roundHalfEven (x * 1000000))

/-- The dictionary that a flow is listed as. -/
structure FlowEntry where
  flowId : Text
  protocol : Text
  clientIp : Text
  clientPort : Option Int
  serverIp : Text
  serverPort : Option Int
  firstSeenIso : Text
  lastSeenIso : Text
  durationSec : ℚ
  packets : Nat
  bytes : Nat
  bytesIn : Nat
  bytesOut : Nat
  tcpState : Text
  policyTag : Option Text
  deviceName : Option Text

namespace PacketFlow

def durationSeconds (f : PacketFlow) : ℚ := max 0 (f.lastSeen - f.firstSeen)

/-- The dictionary of a flow, for its two times. -/
def entry (f : PacketFlow) (first last : Instant) : FlowEntry where
  flowId := f.flowId
  protocol := f.protocol
  clientIp := f.clientIp
  clientPort := f.clientPort
  serverIp := f.serverIp
  serverPort := f.serverPort
  firstSeenIso := isoformat first
  lastSeenIso := isoformat last
  durationSec := roundHalfEven (f.durationSeconds * 100) / 100
  packets := f.totalPackets
  bytes := f.totalBytes
  bytesIn := f.bytesServerToClient
  bytesOut := f.bytesClientToServer
  tcpState := f.tcpState
  policyTag := f.policyTag
  deviceName := f.deviceName

def toDict (f : PacketFlow) : Option FlowEntry := do
  let first ← fromTimestamp f.firstSeen
  let last ← fromTimestamp f.lastSeen
  some (f.entry first last)

end PacketFlow

/-- `l[:limit]`. -/
def sliceTo {α : Type} (limit : Int) (l : List α) : List α :=
  if limit < 0 then l.take (l.length - (-limit).toNat) else l.take limit.toNat

/-- The flows, most recently active first; `none` is an exception. -/
def FlowTracker.getFlows (limit : Int) (t : FlowTracker) : Option (List FlowEntry) := do
  let flows ← (t.flows.items.map Prod.snd).mapM PacketFlow.toDict
  some (sliceTo limit (sortReverse FlowEntry.lastSeenIso flows))

/-! ## Times -/

theorem roundHalfEven_intCast (n : Int) : roundHalfEven n = n := by
  unfold roundHalfEven
  rw [Int.floor_intCast, sub_self]
  exact if_pos (.inl (by norm_num))

theorem fromTimestamp_micros (t : Instant) : fromTimestamp (t.micros / 1000000) = some t := by
  unfold fromTimestamp
  rw [div_mul_cancel₀ _ (by norm_num), roundHalfEven_intCast]
  exact dif_pos t.inRange

/-- The times of a flow are these instants. -/
structure PacketFlow.Timed (first last : PacketFlow → Instant) (f : PacketFlow) : Prop where
  first : fromTimestamp f.firstSeen = some (first f)
  last : fromTimestamp f.lastSeen = some (last f)

variable {first last : PacketFlow → Instant}
  {devices : DeviceTracker} {t : FlowTracker} {l : List PacketFlow}

theorem mapM_toDict (h : ∀ f ∈ l, f.Timed first last) :
    l.mapM PacketFlow.toDict = some (l.map fun f => f.entry (first f) (last f)) := by
  induction l with
  | nil => rfl
  | cons f l ih =>
    obtain ⟨hfirst, hlast⟩ := h f List.mem_cons_self
    rw [List.mapM_cons, ih fun g hg => h g (List.mem_cons_of_mem _ hg), PacketFlow.toDict, hfirst,
      hlast]
    rfl

theorem sliceTo_natCast {α : Type} (n : Nat) (l : List α) : sliceTo n l = l.take n :=
  if_neg (by omega)

/-- The flows are listed in an order in which their last times do not increase. -/
theorem getFlows_sorted (h : ∀ item ∈ t.flows.items, item.2.Timed first last) :
    ∃ order, NewestFirst last order (t.flows.items.map Prod.snd) ∧ ∀ limit : Nat,
      t.getFlows limit = some ((order.take limit).map fun f => f.entry (first f) (last f)) := by
  have hall : ∀ f ∈ t.flows.items.map Prod.snd, f.Timed first last := by
    intro f hf
    obtain ⟨item, hitem, rfl⟩ := List.mem_map.mp hf
    exact h item hitem
  have hkey : ∀ f ∈ t.flows.items.map Prod.snd, isoformat (last f) = isoformat (last f) :=
    fun _ _ => rfl
  refine ⟨_, sortReverse_newest hkey, fun limit => ?_⟩
  have hsort := map_sortReverse (fun f => PacketFlow.entry f (first f) (last f))
    FlowEntry.lastSeenIso (t.flows.items.map Prod.snd)
  unfold FlowTracker.getFlows
  rw [mapM_toDict hall, List.map_take]
  refine congrArg some ?_
  rw [sliceTo_natCast, ← hsort]
  rfl

/-- Listings are most recent first: devices and flows are listed in an order in which their last
instants do not increase, and a limit cuts the listing off behind the most recent ones. -/
theorem listings_newest_first (rt : Runtime) (clock : Nat → Instant) (seen : DeviceInfo → Instant)
    (first last : PacketFlow → Instant)
    (hdevices : ∀ item ∈ devices.items, item.2.lastSeen = isoformat (seen item.2))
    (hflows : ∀ item ∈ t.flows.items, item.2.Timed first last) :
    (∃ order, NewestFirst (fun a => seen a.1) order (devices.items.map Prod.snd).zipIdx ∧
      DeviceTracker.getAllDevices rt clock devices =
        order.map fun (dev, i) => dev.toDict rt (clock i)) ∧
    ∃ order, NewestFirst last order (t.flows.items.map Prod.snd) ∧ ∀ limit : Nat,
      t.getFlows limit = some ((order.take limit).map fun f => f.entry (first f) (last f)) :=
  ⟨DeviceTracker.getAllDevices_sorted rt clock hdevices, getFlows_sorted hflows⟩

/-- An instant without a fraction, and one half a second later. -/
def onTheSecond : Instant := ⟨1700000000000000, by decide⟩

def halfPast : Instant := ⟨1700000000500000, by decide⟩

def twoDevices : DeviceTracker := DeviceTracker.run
  [.recordQuery (fun _ => none) onTheSecond "192.168.1.50" false,
    .recordQuery (fun _ => none) halfPast "192.168.1.60" false]

/-- A table with one flow that was seen at these two instants. -/
def oneFlow : FlowTracker where
  lastPrune := 0
  flows := Dict.empty.set ⟨"TCP", "10.0.0.1", 443, "192.168.1.50", 52000⟩
    { flowId := "TCP_192.168.1.50:52000->10.0.0.1:443"
      protocol := "TCP"
      clientIp := "192.168.1.50"
      clientPort := some 52000
      serverIp := "10.0.0.1"
      serverPort := some 443
      firstSeen := onTheSecond.micros / 1000000
      lastSeen := halfPast.micros / 1000000 }

theorem listings_newest_first_sameSecond :
    let seen := fun dev : DeviceInfo =>
      if dev.ip = ("192.168.1.50" : Text) then onTheSecond else halfPast
    (∃ order, NewestFirst (fun a => seen a.1) order (twoDevices.items.map Prod.snd).zipIdx ∧
      DeviceTracker.getAllDevices asciiRuntime (fun _ => halfPast) twoDevices =
        order.map fun (dev, _) => dev.toDict asciiRuntime halfPast) ∧
    ∃ order, NewestFirst (fun _ => halfPast) order (oneFlow.flows.items.map Prod.snd) ∧
      ∀ limit : Nat, oneFlow.getFlows limit =
        some ((order.take limit).map fun f => f.entry onTheSecond halfPast) := by
  intro seen
  refine listings_newest_first asciiRuntime (fun _ => halfPast) seen (fun _ => onTheSecond)
    (fun _ => halfPast) ?_ ?_
  · decide
  · intro item hitem
    obtain rfl := List.mem_singleton.mp hitem
    exact ⟨fromTimestamp_micros onTheSecond, fromTimestamp_micros halfPast⟩

end FocusGuard
