/-
# The choice of a port

`refresh_status` reads a status table of each controller into `devices_`, and
`get_free_port` takes the first entry that is free and on the right hub. The
index of an entry is the number of its port, but what is returned is the number
cut to a byte: the choice is right just when the lowest free port of the hub has
a number below 256 (`free_port_iff`). An entry that no table mentions has
status 0, which is not VDEV_ST_NULL.
-/
import Viu.VhciStatus

namespace Viu
namespace Driver

open Bytes Vhci

/-! ### The driver -/

inductive Error
  | noFreePort
  deriving DecidableEq, Repr

def VDEV_ST_NULL : U32 := 4

/-- The name of a controller's attribute. -/
def attrStatus (i : ℕ) : String := if 0 < i then "status." ++ toString i else "status"

/-- The loop of `refresh_status` from controller `i` on, with as many to go. -/
def refreshFrom (attr : String → Option (List Char)) :
    ℕ → ℕ → List VirtualDevice → Except Exn (ℤ × List VirtualDevice)
  | _, 0, devices => .ok (0, devices)
  | i, k + 1, devices =>
    match attr (attrStatus i) with
    | none => .ok (-1, devices)
    | some text =>
      match parseStatus devices text with
      | .ok devices => refreshFrom attr (i + 1) k devices
      | .error e => .error e

def refreshStatus (attr : String → Option (List Char)) (numberOfControllers : ℕ) (devices : List VirtualDevice) :
    Except Exn (ℤ × List VirtualDevice) := refreshFrom attr 0 numberOfControllers devices

def getFreePort (devices : List VirtualDevice) (speed : UsbDeviceSpeed) : Except Error U8 :=
  match devices.find? fun device => device.hub = hubSpeed speed ∧ device.status = VDEV_ST_NULL with
  | some device => .ok device.port
  | none => .error .noFreePort

/-! ### The ports -/

/-- The hub and the status of the ports that the tables mention. -/
abbrev Assignment := ℕ → Option (HubSpeed × U32)

/-- The record is that of a port. -/
def Sound (a : Assignment) (n : ℕ) (r : VhciHcdStatus) : Prop :=
  ∃ p < n, r.port.toInt = p ∧ ∃ hub, a p = some (hub, r.sta) ∧ r.hub = hub.text

/-- Each controller's table is parsed to these records, and together they are the
assignment of ports below `n`. -/
structure Tables (attr : String → Option (List Char)) (controllers n : ℕ) (records : ℕ → List VhciHcdStatus)
    (a : Assignment) : Prop where
  parsed : ∀ i < controllers, ∃ text, attr (attrStatus i) = some text ∧ clientParseStatus text = (true, records i)
  sound : ∀ i < controllers, ∀ r ∈ records i, Sound a n r
  complete : ∀ p : ℕ, a p ≠ none → ∃ i < controllers, ∃ r ∈ records i, r.port.toInt = p

def Free (a : Assignment) (speed : UsbDeviceSpeed) (p : ℕ) : Prop := a p = some (hubSpeed speed, VDEV_ST_NULL)

structure Lowest (a : Assignment) (n : ℕ) (speed : UsbDeviceSpeed) (q : ℕ) : Prop where
  lt : q < n
  free : Free a speed q
  least : ∀ p < q, ¬ Free a speed p

/-- The port chosen is the lowest free one, and none is chosen just when there is none. -/
structure PicksLowest (devices : List VirtualDevice) (a : Assignment) (n : ℕ) (speed : UsbDeviceSpeed) : Prop where
  lowest : ∀ port, getFreePort devices speed = .ok port → Lowest a n speed port.toNat
  none_iff : getFreePort devices speed = .error .noFreePort ↔ ∀ p < n, ¬ Free a speed p

variable {attr : String → Option (List Char)} {controllers n p q i k : ℕ} {records : ℕ → List VhciHcdStatus}
  {a : Assignment} {devices : List VirtualDevice} {device : VirtualDevice} {speed : UsbDeviceSpeed}
  {r : VhciHcdStatus} {done rs : List VhciHcdStatus}

/-! ### What the tables leave in the entries -/

/-- The entry is that of port `p`. -/
def Entry (a : Assignment) (p : ℕ) (device : VirtualDevice) : Prop :=
  a p = some (device.hub, device.status) ∧ device.port = BitVec.ofNat 8 p

/-- One of the records is of port `p`. -/
def Mentions (rs : List VhciHcdStatus) (p : ℕ) : Prop := ∃ r ∈ rs, r.port.toInt = p

/-- The entries once these records are in. -/
structure Filled (a : Assignment) (n : ℕ) (done : List VhciHcdStatus) (devices : List VirtualDevice) : Prop where
  length : devices.length = n
  entry : ∀ p device, devices[p]? = some device → Mentions done p → Entry a p device
  zero : ∀ p device, devices[p]? = some device → ¬ Mentions done p → device = .zero

theorem toNat_port (h : r.port.toInt = p) : r.port.toNat = p := by
  have hnat := Ints.toInt_of_nonneg (x := r.port) (by omega)
  omega

theorem index_eq (h : r.port.toInt = p) : index r = p := by
  rw [index, Ints.toNat_signExtend (by omega), toNat_port h]

theorem entry_of (hp : r.port.toInt = p) {hub : HubSpeed} (ha : a p = some (hub, r.sta)) (hhub : r.hub = hub.text) :
    Entry a p (.of r) := by
  refine ⟨?_, ?_⟩
  · have hof : (VirtualDevice.of r).hub = hub := by
      cases hub <;> simp [VirtualDevice.of, hhub, HubSpeed.text]
    rw [hof]
    exact ha
  · show r.port.setWidth 8 = BitVec.ofNat 8 p
    rw [← toNat_port hp]
    exact (BitVec.ofNat_toNat 8 r.port).symm

theorem Filled.update (h : Filled a n done devices) (hr : Sound a n r) :
    ∃ devices', update devices r = .ok devices' ∧ Filled a n (done ++ [r]) devices' := by
  obtain ⟨p, hlt, hp, hub, ha, hhub⟩ := hr
  have hlen := h.length
  refine ⟨devices.set p (.of r), by rw [Driver.update, index_eq hp, if_pos (by omega)], ?_, ?_, ?_⟩
  · rw [List.length_set, hlen]
  · intro q device hq hdone
    by_cases hpq : p = q
    · subst hpq
      rw [List.getElem?_set_self (by omega)] at hq
      rw [← Option.some.inj hq]
      exact entry_of hp ha hhub
    · rw [List.getElem?_set_ne hpq] at hq
      refine h.entry q device hq ?_
      obtain ⟨r', hr', hq'⟩ := hdone
      rcases List.mem_append.mp hr' with hr' | hr'
      · exact ⟨r', hr', hq'⟩
      · rw [List.mem_singleton.mp hr'] at hq'
        exact absurd (by omega) hpq
  · intro q device hq hnot
    have hpq : p ≠ q := by
      rintro rfl
      exact hnot ⟨r, by simp, hp⟩
    rw [List.getElem?_set_ne hpq] at hq
    refine h.zero q device hq ?_
    rintro ⟨r', hr', hq'⟩
    exact hnot ⟨r', List.mem_append_left _ hr', hq'⟩

theorem Filled.foldlM : ∀ (rs : List VhciHcdStatus) {done : List VhciHcdStatus} {devices : List VirtualDevice},
    Filled a n done devices → (∀ r ∈ rs, Sound a n r) →
      ∃ devices', rs.foldlM Driver.update devices = .ok devices' ∧ Filled a n (done ++ rs) devices'
  | [], done, devices, h, _ => ⟨devices, rfl, by rwa [List.append_nil]⟩
  | r :: rs, done, devices, h, hrs => by
    obtain ⟨devices₁, hone, hfilled⟩ := h.update (hrs r List.mem_cons_self)
    obtain ⟨devices', hrest, hall⟩ := Filled.foldlM rs hfilled fun r' hr' => hrs r' (List.mem_cons_of_mem r hr')
    refine ⟨devices', ?_, ?_⟩
    · rw [List.foldlM_cons, hone]
      exact hrest
    · rwa [List.append_assoc, List.singleton_append] at hall

/-- As `Tables`, except that the parser need not take every table: there are no records
of one it does not take. -/
structure TablesTaken (attr : String → Option (List Char)) (controllers n : ℕ) (records : ℕ → List VhciHcdStatus)
    (a : Assignment) : Prop where
  text : ∀ i < controllers, ∃ text, attr (attrStatus i) = some text ∧
    (clientParseStatus text = (true, records i) ∨ (clientParseStatus text).1 = false ∧ records i = [])
  sound : ∀ i < controllers, ∀ r ∈ records i, Sound a n r
  complete : ∀ p : ℕ, a p ≠ none → ∃ i < controllers, ∃ r ∈ records i, r.port.toInt = p

theorem Tables.taken (ht : Tables attr controllers n records a) : TablesTaken attr controllers n records a where
  text i hi := by
    obtain ⟨text, hattr, hparse⟩ := ht.parsed i hi
    exact ⟨text, hattr, .inl hparse⟩
  sound := ht.sound
  complete := ht.complete

/-- The tables are read one after the other. -/
theorem Filled.refreshFrom (ht : TablesTaken attr controllers n records a) : ∀ (k i : ℕ) {done : List VhciHcdStatus}
    {devices : List VirtualDevice}, i + k = controllers → Filled a n done devices →
      ∃ devices', Driver.refreshFrom attr i k devices = .ok (0, devices') ∧
        Filled a n (done ++ (List.range' i k).flatMap records) devices'
  | 0, i, done, devices, _, h => ⟨devices, rfl, by simpa using h⟩
  | k + 1, i, done, devices, hik, h => by
    obtain ⟨text, hattr, hparse⟩ := ht.text i (by omega)
    obtain ⟨devices₁, hone, hfilled⟩ := h.foldlM (records i) fun r hr => ht.sound i (by omega) r hr
    obtain ⟨devices', hrest, hall⟩ := Filled.refreshFrom ht k (i + 1) (by omega) hfilled
    have hstatus : parseStatus devices text = .ok devices₁ := by
      rcases hparse with hparse | ⟨hfalse, hnil⟩
      · rw [parseStatus, hparse]
        exact hone
      · rw [hnil] at hone
        cases hone
        exact parseStatus_of_false hfalse
    refine ⟨devices', ?_, ?_⟩
    · rw [Driver.refreshFrom, hattr]
      dsimp only
      rw [hstatus]
      exact hrest
    · rwa [List.append_assoc, ← List.flatMap_cons, ← List.range'_succ] at hall

/-- `devices_` after `refresh_status`. -/
structure Refreshed (a : Assignment) (n : ℕ) (devices : List VirtualDevice) : Prop where
  length : devices.length = n
  entries : ∀ p device, devices[p]? = some device → Entry a p device ∨ a p = none ∧ device = .zero

theorem refreshed (ht : TablesTaken attr controllers n records a) :
    ∃ devices, refreshStatus attr controllers (List.replicate n .zero) = .ok (0, devices) ∧
      Refreshed a n devices := by
  have hinit : Filled a n [] (List.replicate n .zero) := by
    refine ⟨List.length_replicate, fun p device _ ⟨r, hr, _⟩ => (nomatch hr), fun p device hp _ => ?_⟩
    exact List.eq_of_mem_replicate (List.mem_of_getElem? hp)
  obtain ⟨devices, hdevices, hfilled⟩ := hinit.refreshFrom ht controllers 0 (Nat.zero_add _)
  refine ⟨devices, hdevices, hfilled.length, fun p device hp => ?_⟩
  by_cases hdone : Mentions ([] ++ (List.range' 0 controllers).flatMap records) p
  · exact .inl (hfilled.entry p device hp hdone)
  · refine .inr ⟨?_, hfilled.zero p device hp hdone⟩
    by_contra ha
    obtain ⟨i, hi, r, hr, hport⟩ := ht.complete p ha
    refine hdone ⟨r, ?_, hport⟩
    rw [List.nil_append, List.mem_flatMap]
    exact ⟨i, by simpa using hi, hr⟩

/-! ### The choice -/

theorem Refreshed.getElem? (h : Refreshed a n devices) (hp : p < n) :
    ∃ device, devices[p]? = some device ∧ (Entry a p device ∨ a p = none ∧ device = .zero) := by
  have hlt : p < devices.length := by rw [h.length]; exact hp
  exact ⟨devices[p], List.getElem?_eq_getElem hlt, h.entries p _ (List.getElem?_eq_getElem hlt)⟩

/-- An entry is free just when its port is. -/
theorem free_iff (h : Entry a p device ∨ a p = none ∧ device = .zero) :
    device.hub = hubSpeed speed ∧ device.status = VDEV_ST_NULL ↔ Free a speed p := by
  rw [Free]
  rcases h with h | ⟨ha, rfl⟩
  · rw [h.1, Option.some.injEq, Prod.mk.injEq]
  · refine iff_of_false (fun h => ?_) fun h => ?_
    · exact absurd h.2 (by decide)
    · rw [ha] at h
      cases h

theorem Refreshed.getFreePort_of_lowest (h : Refreshed a n devices) (hq : Lowest a n speed q) :
    getFreePort devices speed = .ok (BitVec.ofNat 8 q) := by
  obtain ⟨device, hdevice, hentry⟩ := h.getElem? hq.lt
  obtain ⟨hlt, hget⟩ := List.getElem?_eq_some_iff.mp hdevice
  have hfind : (devices.find? fun device => device.hub = hubSpeed speed ∧ device.status = VDEV_ST_NULL) =
      some device := by
    refine List.find?_eq_some_iff_getElem.mpr ⟨decide_eq_true ((free_iff hentry).mpr hq.free), q, hlt, hget, ?_⟩
    intro p hp
    have hbefore := h.entries p _ (List.getElem?_eq_getElem (by omega : p < devices.length))
    rw [Bool.not_eq_true', decide_eq_false_iff_not]
    exact fun hfree => hq.least p hp ((free_iff hbefore).mp hfree)
  have hport : device.port = BitVec.ofNat 8 q := by
    rcases hentry with hentry | ⟨ha, -⟩
    · exact hentry.2
    · have hfree := hq.free
      rw [Free, ha] at hfree
      cases hfree
  rw [getFreePort, hfind, ← hport]

theorem Refreshed.getFreePort_of_none (h : Refreshed a n devices) (hnone : ∀ p < n, ¬ Free a speed p) :
    getFreePort devices speed = .error .noFreePort := by
  have hfind : (devices.find? fun device => device.hub = hubSpeed speed ∧ device.status = VDEV_ST_NULL) = none := by
    refine List.find?_eq_none.mpr fun device hdevice hfree => ?_
    obtain ⟨p, hp⟩ := List.mem_iff_getElem?.mp hdevice
    have hlt : p < n := by
      rw [← h.length]
      exact (List.getElem?_eq_some_iff.mp hp).1
    exact hnone p hlt ((free_iff (h.entries p device hp)).mp (of_decide_eq_true hfree))
  rw [getFreePort, hfind]

/-- Of the free ports one is the lowest. -/
theorem exists_lowest (h : ∃ p < n, Free a speed p) : ∃ q, Lowest a n speed q := by
  classical
  obtain ⟨hlt, hfree⟩ := Nat.find_spec h
  exact ⟨Nat.find h, hlt, hfree, fun p hp hf => Nat.find_min h hp ⟨lt_trans hp hlt, hf⟩⟩

theorem Refreshed.picksLowest_iff (h : Refreshed a n devices) :
    PicksLowest devices a n speed ↔ ∀ q, Lowest a n speed q → q < 256 := by
  refine ⟨fun hpick q hq => ?_,
    fun hbound => ⟨fun port hport => ?_, fun herror p hp hfree => ?_, h.getFreePort_of_none⟩⟩
  · have hchosen := hpick.lowest _ (h.getFreePort_of_lowest hq)
    have hle : q ≤ (BitVec.ofNat 8 q).toNat := by
      by_contra hlt
      exact hq.least _ (by omega) hchosen.free
    have hbyte := (BitVec.ofNat 8 q).isLt
    omega
  · by_cases hex : ∃ p < n, Free a speed p
    · obtain ⟨q, hq⟩ := exists_lowest hex
      rw [h.getFreePort_of_lowest hq] at hport
      have hfits : (BitVec.ofNat 8 q).toNat = q := by
        rw [BitVec.toNat_ofNat]
        exact Nat.mod_eq_of_lt (hbound q hq)
      rw [← Except.ok.inj hport, hfits]
      exact hq
    · rw [h.getFreePort_of_none fun p hp hf => hex ⟨p, hp, hf⟩] at hport
      cases hport
  · obtain ⟨q, hq⟩ := exists_lowest ⟨p, hp, hfree⟩
    rw [h.getFreePort_of_lowest hq] at herror
    cases herror

/-- **The choice of a port**: after `refresh_status` the lowest free port is chosen, or none
if there is none, just when the lowest has a number that fits a byte. -/
theorem free_port_iff (ht : Tables attr controllers n records a) :
    ∃ devices, refreshStatus attr controllers (List.replicate n .zero) = .ok (0, devices) ∧
      ∀ speed, PicksLowest devices a n speed ↔ ∀ q, Lowest a n speed q → q < 256 := by
  obtain ⟨devices, hdevices, href⟩ := refreshed ht.taken
  exact ⟨devices, hdevices, fun _ => href.picksLowest_iff⟩

/-! ### Ports on more controllers -/

/-- A table of each controller with one port. -/
def twoControllers (name : String) : Option (List Char) :=
  if name = "status" then some (printTable kernelHeader [freePort .high 0])
  else if name = "status.1" then some (printTable kernelHeader [freePort .super 1])
  else none

def twoRecords (i : ℕ) : List VhciHcdStatus :=
  [(freePort (if i = 0 then .high else .super) (BitVec.ofNat 32 i)).scanned BusId.root.text]

def twoPorts (p : ℕ) : Option (HubSpeed × U32) :=
  if p = 0 then some (.high, 4) else if p = 1 then some (.super, 4) else none

theorem tables_twoControllers : Tables twoControllers 2 2 twoRecords twoPorts where
  parsed i hi := by
    match i with
    | 0 => exact ⟨_, rfl, by decide +kernel⟩
    | 1 => exact ⟨_, rfl, by decide +kernel⟩
  sound i hi r hr := by
    rw [List.mem_singleton.mp hr]
    match i with
    | 0 => exact ⟨0, by decide, rfl, .high, rfl, rfl⟩
    | 1 => exact ⟨1, by decide, rfl, .super, rfl, rfl⟩
  complete p hp := by
    match p with
    | 0 => exact ⟨0, by decide, _, List.mem_singleton_self _, rfl⟩
    | 1 => exact ⟨1, by decide, _, List.mem_singleton_self _, rfl⟩
    | p + 2 => exact absurd rfl hp

theorem free_port_twoControllers : ∃ devices,
    refreshStatus twoControllers 2 [.zero, .zero] = .ok (0, devices) ∧ PicksLowest devices twoPorts 2 .superPlus := by
  obtain ⟨devices, hdevices, hpick⟩ := free_port_iff tables_twoControllers
  exact ⟨devices, hdevices, (hpick .superPlus).mpr fun q hq => by have := hq.lt; omega⟩

/-- The ports up to 255 are in use. -/
def usedPort (p : ℕ) : PortLine := ⟨.high, BitVec.ofNat 32 p, if p = 256 then 4 else 6, 0, 0, 0, .root⟩

def manyPorts : List PortLine := (List.range 257).map usedPort

def assignManyPorts (p : ℕ) : Option (HubSpeed × U32) :=
  if p < 257 then some (.high, if p = 256 then 4 else 6) else none

theorem parses_usedPort {p : ℕ} (h : p < 257) : (usedPort p).Parses := by
  apply parses_zeros
  · rw [BitVec.toNat_ofNat]
    omega
  · split <;> decide

theorem tables_manyPorts : Tables (fun _ => some (printTable kernelHeader manyPorts)) 1 257
    (fun _ => manyPorts.map fun l => l.scanned l.busid.text) assignManyPorts where
  parsed i hi := by
    refine ⟨_, rfl, clientParseStatus_of_parses (by decide) (by simp [manyPorts]) fun l hl => ?_⟩
    obtain ⟨p, hp, rfl⟩ := List.mem_map.mp hl
    exact parses_usedPort (List.mem_range.mp hp)
  sound i hi r hr := by
    obtain ⟨l, hl, rfl⟩ := List.mem_map.mp hr
    obtain ⟨p, hp, rfl⟩ := List.mem_map.mp hl
    have hlt := List.mem_range.mp hp
    exact ⟨p, hlt, Ints.toInt_ofNat_of_lt (by omega), .high, if_pos hlt, rfl⟩
  complete p hp := by
    have hlt : p < 257 := by
      by_contra hge
      exact hp (if_neg hge)
    refine ⟨0, by decide, _, List.mem_map_of_mem (List.mem_map_of_mem (List.mem_range.mpr hlt)), ?_⟩
    exact Ints.toInt_ofNat_of_lt (by omega)

/-- Port 256 is free, and port 0 is chosen. -/
theorem not_picksLowest_manyPorts :
    (∃ devices, refreshStatus (fun _ => some (printTable kernelHeader manyPorts)) 1 (List.replicate 257 .zero) =
      .ok (0, devices) ∧ Lowest assignManyPorts 257 .high 256 ∧ getFreePort devices .high = .ok 0) ∧
    ¬ ∀ attr controllers n records a, Tables attr controllers n records a →
      ∃ devices, refreshStatus attr controllers (List.replicate n .zero) = .ok (0, devices) ∧
        ∀ speed, PicksLowest devices a n speed := by
  have hlowest : Lowest assignManyPorts 257 .high 256 := by
    refine ⟨by decide, rfl, fun p hp hfree => ?_⟩
    rw [Free, assignManyPorts, if_pos (by omega), if_neg (by omega)] at hfree
    exact absurd hfree (by decide)
  obtain ⟨devices, hdevices, href⟩ := refreshed tables_manyPorts.taken
  have hzero : getFreePort devices .high = .ok (BitVec.ofNat 8 256) := href.getFreePort_of_lowest hlowest
  refine ⟨⟨devices, hdevices, hlowest, hzero⟩, fun h => ?_⟩
  obtain ⟨devices', hdevices', hpick⟩ := h _ _ _ _ _ tables_manyPorts
  rw [hdevices] at hdevices'
  cases hdevices'
  exact absurd (href.picksLowest_iff.mp (hpick .high) 256 hlowest) (by decide)

end Driver
end Viu
