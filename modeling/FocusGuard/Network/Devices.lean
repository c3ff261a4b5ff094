import FocusGuard.Lib.Dict
import FocusGuard.Lib.InstantOrder
import FocusGuard.Runtime

/-!
# The device tracker

`focusguard/network/devices.py`. The devices are a dictionary in insertion order, under a lock: one
call is one step on it. Clock readings and the result of a reverse lookup are arguments.

## Main results

* `DeviceTracker.run_timed`: the times of a device are texts of instants.
* `DeviceTracker.getAllDevices_sorted`: the devices are listed in the order of their last times.
-/

namespace FocusGuard

open Calendar

structure DeviceInfo where
  ip : Text
  hostname : Text := []
  firstSeen : Text
  lastSeen : Text
  totalQueries : Nat := 0
  blockedQueries : Nat := 0
  deriving DecidableEq

/-- The dictionary that a device is listed as. -/
structure DeviceEntry where
  ip : Text
  hostname : Text
  firstSeen : Text
  lastSeen : Text
  totalQueries : Nat
  blockedQueries : Nat
  active : Bool
  deriving DecidableEq

namespace DeviceInfo

/-- `is_active`. A stamp that cannot be read, or subtracted because it names no zone, is not. -/
def isActive (rt : Runtime) (now : Instant) (dev : DeviceInfo) : Bool :=
  match rt.fromisoformat dev.lastSeen with
  | some (.aware u) => now.micros - u < 15 * 60 * 1000000
  | some (.naive _) => false
  | none => false

/-- What is shown of an address without a name. -/
def placeholder (ip : Text) : Text :=
  ("Device-" : Text) ++ if '.' ∈ ip then (ip.splitOn '.').getLastD [] else ip

def toDict (rt : Runtime) (now : Instant) (dev : DeviceInfo) : DeviceEntry where
  ip := dev.ip
  hostname := if dev.hostname = [] then placeholder dev.ip else dev.hostname
  firstSeen := dev.firstSeen
  lastSeen := dev.lastSeen
  totalQueries := dev.totalQueries
  blockedQueries := dev.blockedQueries
  active := dev.isActive rt now

end DeviceInfo

/-- `DeviceTracker._devices`. -/
abbrev DeviceTracker := Dict Text DeviceInfo

namespace DeviceTracker

/-- `_resolve_hostname_async(ip)`, where a lookup that fails gives no name. -/
def resolveHostname (lookup : Text → Option Text) (ip : Text) : Text := (lookup ip).getD []

def recordQuery (lookup : Text → Option Text) (now : Instant) (clientIp : Text) (isBlocked : Bool)
    (t : DeviceTracker) : DeviceTracker :=
  if clientIp = [] ∨ clientIp ∈ (["127.0.0.1", "::1", "localhost"] : List Text) then t
  else
    let nowStr := isoformat now
    let dev := match t.get? clientIp with
      | none =>
        { ip := clientIp
          hostname := resolveHostname lookup clientIp
          firstSeen := nowStr
          lastSeen := nowStr
          totalQueries := 1
          blockedQueries := if isBlocked then 1 else 0 }
      | some dev =>
        { dev with
          lastSeen := nowStr
          totalQueries := dev.totalQueries + 1
          blockedQueries := if isBlocked then dev.blockedQueries + 1 else dev.blockedQueries }
    t.set clientIp dev

/-- `set_device_hostname(ip, hostname)`; a new device reads the clock for each of its times. -/
def setDeviceHostname (now now' : Instant) (ip hostname : Text) (t : DeviceTracker) :
    DeviceTracker :=
  match t.get? ip with
  | some dev => t.set ip { dev with hostname }
  | none => t.set ip
      { ip, hostname, firstSeen := isoformat now, lastSeen := isoformat now' }

/-- The devices, most recently active first. The clock is read again for each of them. -/
def getAllDevices (rt : Runtime) (clock : Nat → Instant) (t : DeviceTracker) : List DeviceEntry :=
  let devices := (t.items.map Prod.snd).zipIdx.map fun (dev, i) => dev.toDict rt (clock i)
  sortReverse DeviceEntry.lastSeen devices

/-! ## Runs -/

inductive Call where
  | recordQuery (lookup : Text → Option Text) (now : Instant) (clientIp : Text) (isBlocked : Bool)
  | setDeviceHostname (now now' : Instant) (ip hostname : Text)

def step (t : DeviceTracker) : Call → DeviceTracker
  | .recordQuery lookup now clientIp isBlocked => recordQuery lookup now clientIp isBlocked t
  | .setDeviceHostname now now' ip hostname => setDeviceHostname now now' ip hostname t

/-- The tracker after the calls, in the order in which they got the lock. -/
def run (calls : List Call) : DeviceTracker := calls.foldl step .empty

variable {rt : Runtime} {clock : Nat → Instant} {t : DeviceTracker} {k : Text} {dev : DeviceInfo}
  {seen : DeviceInfo → Instant}

/-- The times of a device are texts of instants. -/
def Timed (dev : DeviceInfo) : Prop :=
  (∃ first, dev.firstSeen = isoformat first) ∧ ∃ last, dev.lastSeen = isoformat last

theorem recordQuery_timed {lookup : Text → Option Text} {now : Instant} {clientIp : Text}
    {isBlocked : Bool} (h : ∀ k dev, t.get? k = some dev → Timed dev)
    (hdev : (recordQuery lookup now clientIp isBlocked t).get? k = some dev) : Timed dev := by
  unfold recordQuery at hdev
  split at hdev
  · exact h k dev hdev
  · rw [Dict.get?_set] at hdev
    split at hdev
    · obtain rfl := Option.some.inj hdev
      split
      · exact ⟨⟨now, rfl⟩, now, rfl⟩
      · next old hold => exact ⟨(h clientIp old hold).1, now, rfl⟩
    · exact h k dev hdev

theorem setDeviceHostname_timed {now now' : Instant} {ip hostname : Text}
    (h : ∀ k dev, t.get? k = some dev → Timed dev)
    (hdev : (setDeviceHostname now now' ip hostname t).get? k = some dev) : Timed dev := by
  unfold setDeviceHostname at hdev
  split at hdev
  · next old hold =>
    rw [Dict.get?_set] at hdev
    split at hdev
    · obtain rfl := Option.some.inj hdev
      exact h ip old hold
    · exact h k dev hdev
  · rw [Dict.get?_set] at hdev
    split at hdev
    · obtain rfl := Option.some.inj hdev
      exact ⟨⟨now, rfl⟩, now', rfl⟩
    · exact h k dev hdev

/-- After any calls the times of all devices are texts of instants. -/
theorem run_timed (calls : List Call) : ∀ k dev, (run calls).get? k = some dev → Timed dev := by
  induction calls using List.reverseRecOn with
  | nil => exact fun _ _ h => by cases h
  | append_singleton calls call ih =>
    intro k dev hdev
    rw [run, List.foldl_append] at hdev
    cases call with
    | recordQuery lookup now clientIp isBlocked => exact recordQuery_timed ih hdev
    | setDeviceHostname now now' ip hostname => exact setDeviceHostname_timed ih hdev

/-! ## The listing -/

/-- The devices are listed in an order in which their last times do not increase. -/
theorem getAllDevices_sorted (rt : Runtime) (clock : Nat → Instant)
    (h : ∀ item ∈ t.items, item.2.lastSeen = isoformat (seen item.2)) :
    ∃ order, NewestFirst (fun a => seen a.1) order (t.items.map Prod.snd).zipIdx ∧
      getAllDevices rt clock t = order.map fun (dev, i) => dev.toDict rt (clock i) := by
  have hkey : ∀ a ∈ (t.items.map Prod.snd).zipIdx, a.1.lastSeen = isoformat (seen a.1) := by
    intro a ha
    obtain ⟨item, hitem, heq⟩ := List.mem_map.mp (List.fst_mem_of_mem_zipIdx ha)
    rw [← heq]
    exact h item hitem
  refine ⟨_, sortReverse_newest hkey, ?_⟩
  exact (map_sortReverse (fun a : DeviceInfo × Nat => a.1.toDict rt (clock a.2))
    DeviceEntry.lastSeen _).symm

end DeviceTracker

end FocusGuard
