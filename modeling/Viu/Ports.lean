/-
# The race for a port

A driver reads the kernel's status tables when it is constructed
(`refreshStatus`) and chooses a port from that copy when it attaches, in the
thread of its device. The kernel refuses a port that is taken, but `attach`
never sees it: `attach_device` returns 0 whatever the write gave, so the loop
that would try another port ends after the first write. Of a table with a line
that the parser does not take there is nothing in the copy.

Two drivers both end up attached, on different ports, exactly when neither is
constructed while the other is constructed and not yet attached, and each is
offered a free port by the tables it reads (`Vhci.ports_iff`).
-/
import Viu.Lib.Run
import Viu.FreePort
import Mathlib.Logic.Function.Basic

namespace Viu
namespace Vhci

open Runs

/-! ### What the kernel prints -/

/-- A line of a table is that of a port and its number. -/
structure PortLine.Of (l : PortLine) (p : Port × ℕ) : Prop where
  port : l.port.toNat = p.2
  hub : l.hub = p.1.hub
  free : l.sta = Driver.VDEV_ST_NULL ↔ p.1.status = .null

/-- The tables of the controllers and the texts of their attributes, for every state
of the ports. A line says more than the port's hub and whether it is free, and
the rest may be anything. -/
structure Kernel where
  nports : ℕ
  controllers : ℕ
  header : List Char
  tables : List Port → ℕ → List PortLine
  attr : List Port → String → Option (List Char)
  header_line : '\n' ∉ header
  attr_eq : ∀ ports, ∀ i < controllers, attr ports (Driver.attrStatus i) = some (printTable header (tables ports i))
  lines : ∀ ports, ports.length = nports →
    List.Forall₂ PortLine.Of ((List.range controllers).flatMap (tables ports)) ports.zipIdx

namespace Kernel

variable (k : Kernel) (ports : List Port)

/-- What `driver::open` leaves in `devices_`; what it returns is only asserted on. -/
def devices : Except Exn (List Driver.VirtualDevice) :=
  (Driver.refreshStatus (k.attr ports) k.controllers (List.replicate k.nports .zero)).map (·.2)

/-- Port `n` is on a table that the driver's parser takes. -/
def Takes (n : ℕ) : Prop :=
  ∃ i < k.controllers, (∀ l ∈ k.tables ports i, l.Parses) ∧ ∃ l ∈ k.tables ports i, l.port.toNat = n

instance (n : ℕ) : Decidable (k.Takes ports n) :=
  inferInstanceAs (Decidable (∃ i < k.controllers, (∀ l ∈ k.tables ports i, l.Parses) ∧
    ∃ l ∈ k.tables ports i, l.port.toNat = n))

/-- Of the free ports on those tables the lowest has a number that, cut to a byte, is
that of a free port. -/
def Offers (speed : UsbDeviceSpeed) : Prop :=
  ∃ n < k.nports, (k.Takes ports n ∧ FreeAt speed ports n) ∧
    (∀ m < n, ¬ (k.Takes ports m ∧ FreeAt speed ports m)) ∧ FreeAt speed ports (n % 256)

instance (speed : UsbDeviceSpeed) : Decidable (k.Offers ports speed) :=
  inferInstanceAs (Decidable (∃ n < k.nports, (k.Takes ports n ∧ FreeAt speed ports n) ∧
    (∀ m < n, ¬ (k.Takes ports m ∧ FreeAt speed ports m)) ∧ FreeAt speed ports (n % 256)))

end Kernel

/-! ### The drivers -/

/-- How far a driver has come. -/
inductive Phase
  | unbuilt
  | built (devices : List Driver.VirtualDevice)
  | attached (port : U8)
  /-- `attach` has returned, and the kernel has refused the write. -/
  | refused (port : U8)
  /-- `attach` has thrown, in a thread that does not catch. -/
  | terminated
  deriving DecidableEq, Repr

/-- `driver::attach`, with what the kernel does about it. Without a free port
`usbip_port.value()` throws. -/
def attach (ports : List Port) (devices : List Driver.VirtualDevice) (speed : U32) : Phase × List Port :=
  match toSpeedEnum (speed.setWidth 16) with
  | .error _ => (.terminated, ports)
  | .ok speedEnum =>
    match Driver.getFreePort devices speedEnum with
    | .error _ => (.terminated, ports)
    | .ok port =>
      match attachDevice ports port speedEnum with
      | some ports' => (.attached port, ports')
      | none => (.refused port, ports)

/-- Constructed and not attached. -/
def Phase.waits : Phase → Bool
  | .built _ => true
  | _ => false

/-- Nothing is left to do. -/
def Phase.done : Phase → Bool
  | .unbuilt | .built _ => false
  | .attached _ | .refused _ | .terminated => true

inductive Which
  | first
  | second
  deriving DecidableEq, Repr

def Which.other : Which → Which
  | .first => .second
  | .second => .first

@[simp] theorem Which.other_other : ∀ w : Which, w.other.other = w
  | .first | .second => rfl

theorem Which.eq_or (v : Which) : ∀ w : Which, v = w ∨ v = w.other := by
  intro w
  cases v <;> cases w <;> simp [Which.other]

structure State where
  ports : List Port
  phase : Which → Phase

/-- `app_mock` constructs a driver; the thread of its device attaches it. -/
inductive Move
  | construct (w : Which)
  | attach (w : Which)
  deriving DecidableEq, Repr

namespace State

def init (ports : List Port) : State := ⟨ports, fun _ => .unbuilt⟩

def put (s : State) (w : Which) (phase : Phase) (ports : List Port) : State :=
  ⟨ports, Function.update s.phase w phase⟩

/-- An exception that leaves a thread ends the program. -/
def Ended (s : State) : Prop := s.phase .first = .terminated ∨ s.phase .second = .terminated

instance (s : State) : Decidable s.Ended := inferInstanceAs (Decidable (_ ∨ _))

def construct (k : Kernel) (s : State) (w : Which) : Option State :=
  match s.phase w with
  | .unbuilt => (k.devices s.ports).toOption.map fun devices => s.put w (.built devices) s.ports
  | _ => none

def attach (s : State) (w : Which) (speed : U32) : Option State :=
  match s.phase w with
  | .built devices =>
    let (phase, ports) := Vhci.attach s.ports devices speed
    some (s.put w phase ports)
  | _ => none

def next (k : Kernel) (speed : U32) (s : State) (m : Move) : Option State :=
  if s.Ended then none else
    match m with
    | .construct w => s.construct k w
    | .attach w => s.attach w speed

/-- Both drivers have been constructed and `attach` has ended, or the program has. -/
def Over (s : State) : Prop := s.Ended ∨ ∀ w, (s.phase w).done = true

/-- Both devices are attached, on different ports. -/
def BothAttached (s : State) : Prop :=
  ∃ p q, s.phase .first = .attached p ∧ s.phase .second = .attached q ∧ p ≠ q

/-- No driver is constructed while the other is constructed and not attached, and none
without the offer of a free port. -/
def InTurn (k : Kernel) (speed : UsbDeviceSpeed) (s : State) : Move → Prop
  | .construct w => (s.phase w.other).waits = false ∧ k.Offers s.ports speed
  | .attach _ => True

instance (k : Kernel) (speed : UsbDeviceSpeed) (s : State) : ∀ m, Decidable (s.InTurn k speed m)
  | .construct _ => inferInstanceAs (Decidable (_ ∧ _))
  | .attach _ => isTrue trivial

end State

variable {k : Kernel} {ports ports' : List Port} {port : U8} {speed : UsbDeviceSpeed} {bcd : U32}
  {devices : List Driver.VirtualDevice} {s t : State} {m : Move} {w : Which}

/-! ### What the copy offers -/

namespace Kernel

/-- The lines of all tables. -/
def allLines (k : Kernel) (ports : List Port) : List PortLine := (List.range k.controllers).flatMap (k.tables ports)

theorem forall₂_allLines (h : ports.length = k.nports) :
    List.Forall₂ PortLine.Of (k.allLines ports) ports.zipIdx := k.lines ports h

theorem length_allLines (h : ports.length = k.nports) : (k.allLines ports).length = ports.length := by
  rw [(forall₂_allLines h).length_eq, List.length_zipIdx]

theorem line_of (h : ports.length = k.nports) {n : ℕ} (hn : n < (k.allLines ports).length)
    (hn' : n < ports.length) : (k.allLines ports)[n].Of (ports[n], n) := by
  have hget := (forall₂_allLines h).get hn (by rwa [List.length_zipIdx])
  simpa [List.getElem_zipIdx] using hget

/-- A line stands where its number says, and is that of the port there. -/
theorem line_at (h : ports.length = k.nports) {l : PortLine} (hl : l ∈ k.allLines ports) :
    (k.allLines ports)[l.port.toNat]? = some l ∧
      ∃ p, ports[l.port.toNat]? = some p ∧ l.Of (p, l.port.toNat) := by
  obtain ⟨n, hn, rfl⟩ := List.mem_iff_getElem.mp hl
  have hn' : n < ports.length := length_allLines h ▸ hn
  have hof := line_of h hn hn'
  rw [hof.port]
  exact ⟨List.getElem?_eq_getElem hn, ports[n], List.getElem?_eq_getElem hn', hof⟩

/-- The ports as the driver gets to see them. -/
def assign (k : Kernel) (ports : List Port) : Driver.Assignment := fun n =>
  if k.Takes ports n then (k.allLines ports)[n]?.map fun l => (l.hub, l.sta) else none

/-- The records of a table, none if the parser does not take it. -/
def records (k : Kernel) (ports : List Port) (i : ℕ) : List VhciHcdStatus :=
  if ∀ l ∈ k.tables ports i, l.Parses then (k.tables ports i).map fun l => l.scanned l.busid.text else []

theorem mem_allLines {i : ℕ} (hi : i < k.controllers) {l : PortLine} (hl : l ∈ k.tables ports i) :
    l ∈ k.allLines ports := List.mem_flatMap.mpr ⟨i, List.mem_range.mpr hi, hl⟩

theorem tablesTaken (h : ports.length = k.nports) :
    Driver.TablesTaken (k.attr ports) k.controllers k.nports (k.records ports) (k.assign ports) where
  text i hi := by
    refine ⟨_, k.attr_eq ports i hi, ?_⟩
    unfold records
    by_cases hall : ∀ l ∈ k.tables ports i, l.Parses
    · rw [if_pos hall]
      by_cases hne : k.tables ports i = []
      · right
        rw [hne, clientParseStatus, dropHeader_printTable k.header_line]
        exact ⟨rfl, rfl⟩
      · exact .inl (clientParseStatus_of_parses k.header_line hne hall)
    · rw [if_neg hall]
      exact .inr ⟨clientParseStatus_of_not_parses k.header_line (by simpa using hall), rfl⟩
  sound i hi r hr := by
    unfold records at hr
    by_cases hall : ∀ l ∈ k.tables ports i, l.Parses
    · rw [if_pos hall] at hr
      obtain ⟨l, hl, rfl⟩ := List.mem_map.mp hr
      obtain ⟨hline, p, hp, hof⟩ := line_at h (mem_allLines hi hl)
      have hlt : l.port.toNat < k.nports := h ▸ (List.getElem?_eq_some_iff.mp hp).1
      have htakes : k.Takes ports l.port.toNat := ⟨i, hi, hall, l, hl, rfl⟩
      refine ⟨l.port.toNat, hlt, toInt_of_lt (hall l hl).1.1, l.hub, ?_, rfl⟩
      rw [assign, if_pos htakes, hline]
      rfl
    · rw [if_neg hall] at hr
      cases hr
  complete n hn := by
    by_cases htakes : k.Takes ports n
    · obtain ⟨i, hi, hall, l, hl, rfl⟩ := htakes
      refine ⟨i, hi, l.scanned l.busid.text, ?_, toInt_of_lt (hall l hl).1.1⟩
      rw [records, if_pos hall]
      exact List.mem_map_of_mem hl
    · rw [assign, if_neg htakes] at hn
      exact absurd rfl hn

theorem free_assign_iff (h : ports.length = k.nports) {n : ℕ} :
    Driver.Free (k.assign ports) speed n ↔ k.Takes ports n ∧ FreeAt speed ports n := by
  unfold Driver.Free assign
  by_cases htakes : k.Takes ports n
  · obtain ⟨i, hi, hall, l, hl, rfl⟩ := id htakes
    obtain ⟨hline, p, hp, hof⟩ := line_at h (mem_allLines hi hl)
    have hhub : l.hub = p.hub := hof.hub
    simp only [htakes, ↓reduceIte, true_and, hline, FreeAt, hp, Option.map_some, Option.some.injEq, Prod.mk.injEq,
      exists_eq_left', Port.Free, hhub, hof.free]
  · simp [htakes]

/-- The driver has a copy, and its choice from that copy is a free port just when it is
offered one. -/
theorem devices_spec (h : ports.length = k.nports) : ∃ devices, k.devices ports = .ok devices ∧ ∀ speed,
    (∃ port, Driver.getFreePort devices speed = .ok port ∧ FreeAt speed ports port.toNat) ↔
      k.Offers ports speed := by
  obtain ⟨devices, hdevices, href⟩ := Driver.refreshed (tablesTaken h)
  refine ⟨devices, by rw [Kernel.devices, hdevices]; rfl, fun speed => ?_⟩
  constructor
  · rintro ⟨port, hport, hfree⟩
    by_cases hex : ∃ n < k.nports, Driver.Free (k.assign ports) speed n
    · obtain ⟨q, hq⟩ := Driver.exists_lowest hex
      rw [href.getFreePort_of_lowest hq] at hport
      refine ⟨q, hq.lt, (free_assign_iff h).mp hq.free, fun m hm => ?_, ?_⟩
      · rw [← free_assign_iff h]
        exact hq.least m hm
      · rw [← Except.ok.inj hport, BitVec.toNat_ofNat] at hfree
        exact hfree
    · rw [href.getFreePort_of_none fun n hn hf => hex ⟨n, hn, hf⟩] at hport
      cases hport
  · rintro ⟨q, hlt, hq, hleast, hfree⟩
    have hlowest : Driver.Lowest (k.assign ports) k.nports speed q :=
      ⟨hlt, (free_assign_iff h).mpr hq, fun m hm => (free_assign_iff h).not.mpr (hleast m hm)⟩
    refine ⟨_, href.getFreePort_of_lowest hlowest, ?_⟩
    rw [BitVec.toNat_ofNat]
    exact hfree

/-- Where it takes no table, nothing is offered, whatever ports are free. -/
theorem not_offers_of_not_parses (h : ∀ i < k.controllers, ∃ l ∈ k.tables ports i, ¬ l.Parses) :
    ¬ k.Offers ports speed := by
  rintro ⟨n, -, ⟨⟨i, hi, hall, -⟩, -⟩, -⟩
  obtain ⟨l, hl, hnot⟩ := h i hi
  exact hnot (hall l hl)

/-- Where the parser takes every table, a free port is offered just when one has a number
that a byte holds. -/
theorem offers_iff_of_parses (h : ports.length = k.nports) (hall : ∀ l ∈ k.allLines ports, l.Parses) :
    k.Offers ports speed ↔ ∃ n < 256, FreeAt speed ports n := by
  have htakes : ∀ n, FreeAt speed ports n → k.Takes ports n := by
    rintro n ⟨p, hp, -⟩
    have hn' : n < ports.length := (List.getElem?_eq_some_iff.mp hp).1
    have hn : n < (k.allLines ports).length := by rwa [length_allLines h]
    obtain ⟨i, hi, hl⟩ := List.mem_flatMap.mp (List.getElem_mem hn)
    have hi' := List.mem_range.mp hi
    exact ⟨i, hi', fun l hl => hall l (mem_allLines hi' hl), _, hl, (line_of h hn hn').port⟩
  constructor
  · rintro ⟨n, -, -, -, hfree⟩
    exact ⟨n % 256, Nat.mod_lt n (by decide), hfree⟩
  · rintro ⟨n, hn, hfree⟩
    have hex : ∃ n, FreeAt speed ports n := ⟨n, hfree⟩
    have hle : Nat.find hex ≤ n := Nat.find_min' hex hfree
    have hfirst := Nat.find_spec hex
    have hlt : Nat.find hex < k.nports := by
      obtain ⟨p, hp, -⟩ := id hfirst
      exact h ▸ (List.getElem?_eq_some_iff.mp hp).1
    refine ⟨Nat.find hex, hlt, ⟨htakes _ hfirst, hfirst⟩, fun m hm hboth => Nat.find_min hex hm hboth.2, ?_⟩
    rwa [Nat.mod_eq_of_lt (by omega)]

end Kernel

/-! ### What a move does -/

theorem attach_cases (hspeed : toSpeedEnum (bcd.setWidth 16) = .ok speed) (ports : List Port)
    (devices : List Driver.VirtualDevice) :
    ((∃ e, Driver.getFreePort devices speed = .error e) ∧ attach ports devices bcd = (.terminated, ports)) ∨
      ∃ port, Driver.getFreePort devices speed = .ok port ∧
        ((∃ ports', attachStore ports port speed = some ports' ∧
            attach ports devices bcd = (.attached port, ports')) ∨
          (attachStore ports port speed = none ∧ attach ports devices bcd = (.refused port, ports))) := by
  simp only [attach, hspeed]
  cases hfree : Driver.getFreePort devices speed with
  | error e => exact .inl ⟨⟨e, rfl⟩, rfl⟩
  | ok port =>
    refine .inr ⟨port, rfl, ?_⟩
    dsimp only
    rw [attachDevice_eq]
    cases hstore : attachStore ports port speed with
    | none => exact .inr ⟨rfl, rfl⟩
    | some ports' => exact .inl ⟨ports', rfl, rfl⟩

namespace State

@[simp] theorem put_ports (s : State) (w : Which) (phase : Phase) (ports : List Port) :
    (s.put w phase ports).ports = ports := rfl

@[simp] theorem put_phase_self (s : State) (w : Which) (phase : Phase) (ports : List Port) :
    (s.put w phase ports).phase w = phase := Function.update_self ..

@[simp] theorem put_phase_other (s : State) (w : Which) (phase : Phase) (ports : List Port) :
    (s.put w phase ports).phase w.other = s.phase w.other :=
  Function.update_of_ne (by cases w <;> exact fun h => nomatch h) ..

theorem next_cases (hspeed : toSpeedEnum (bcd.setWidth 16) = .ok speed) (h : s.next k bcd m = some t) :
    (∃ w devices, m = .construct w ∧ s.phase w = .unbuilt ∧ k.devices s.ports = .ok devices ∧
        t = s.put w (.built devices) s.ports) ∨
      ∃ w devices, m = .attach w ∧ s.phase w = .built devices ∧
        (((∃ e, Driver.getFreePort devices speed = .error e) ∧ t = s.put w .terminated s.ports) ∨
          ∃ port, Driver.getFreePort devices speed = .ok port ∧
            ((∃ ports', attachStore s.ports port speed = some ports' ∧ t = s.put w (.attached port) ports') ∨
              (attachStore s.ports port speed = none ∧ t = s.put w (.refused port) s.ports))) := by
  unfold next at h
  by_cases hend : s.Ended
  · rw [if_pos hend] at h
    cases h
  · rw [if_neg hend] at h
    cases m with
    | construct w =>
      dsimp only [construct] at h
      cases hp : s.phase w with
      | unbuilt =>
        rw [hp] at h
        cases hd : k.devices s.ports with
        | error e =>
          rw [hd] at h
          cases h
        | ok devices =>
          rw [hd] at h
          exact .inl ⟨w, devices, rfl, hp, rfl, (Option.some.inj h).symm⟩
      | _ =>
        rw [hp] at h
        cases h
    | attach w =>
      dsimp only [attach] at h
      cases hp : s.phase w with
      | built devices =>
        rw [hp] at h
        refine .inr ⟨w, devices, rfl, hp, ?_⟩
        obtain rfl := (Option.some.inj h).symm
        obtain ⟨hfree, ha⟩ | ⟨port, hfree, ⟨ports', hstore, ha⟩ | ⟨hstore, ha⟩⟩ :=
          attach_cases hspeed s.ports devices
        · exact .inl ⟨hfree, by rw [ha]⟩
        · exact .inr ⟨port, hfree, .inl ⟨ports', hstore, by rw [ha]⟩⟩
        · exact .inr ⟨port, hfree, .inr ⟨hstore, by rw [ha]⟩⟩
      | _ =>
        rw [hp] at h
        cases h

/-- A driver that is done, or has failed, moves no more. -/
theorem phase_stays {v : Which} (hspeed : toSpeedEnum (bcd.setWidth 16) = .ok speed) (hst : s.next k bcd m = some t)
    (hdone : (s.phase v).done = true) : t.phase v = s.phase v := by
  have hother : ∀ w phase ports, (s.phase w).done = false → (s.put w phase ports).phase v = s.phase v := by
    intro w phase ports hw
    obtain rfl | rfl := v.eq_or w
    · rw [hw] at hdone
      cases hdone
    · exact put_phase_other ..
  obtain ⟨w, devices, -, hw, -, rfl⟩ | ⟨w, devices, -, hw, ⟨-, rfl⟩ | ⟨port, -, ⟨ports', -, rfl⟩ | ⟨-, rfl⟩⟩⟩ :=
    next_cases hspeed hst
  all_goals exact hother _ _ _ (by rw [hw]; rfl)

/-! ### What every run keeps -/

/-- The ports are as many as at the start, and until the second driver is constructed
the first one's copy is still what the kernel prints. -/
structure Current (k : Kernel) (s : State) : Prop where
  length : s.ports.length = k.nports
  same : ∀ w devices, s.phase w = .unbuilt → s.phase w.other = .built devices → k.devices s.ports = .ok devices

theorem current_init (h : ports.length = k.nports) : Current k (init ports) where
  length := h
  same _ _ _ hb := (nomatch hb)

theorem Current.step (hspeed : toSpeedEnum (bcd.setWidth 16) = .ok speed) (h : Current k s)
    (hst : s.next k bcd m = some t) : Current k t := by
  have hattach : ∀ w phase ports, ports.length = k.nports → phase.done = true → Current k (s.put w phase ports) := by
    intro w phase ports hlen hdone
    refine ⟨hlen, fun v devices hv hv' => ?_⟩
    obtain rfl | rfl := v.eq_or w
    · rw [put_phase_self] at hv
      rw [hv] at hdone
      cases hdone
    · rw [Which.other_other, put_phase_self] at hv'
      rw [hv'] at hdone
      cases hdone
  obtain ⟨w, devices, -, -, hcopy, rfl⟩ |
    ⟨w, devices, -, -, ⟨-, rfl⟩ | ⟨port, -, ⟨ports', hstore, rfl⟩ | ⟨-, rfl⟩⟩⟩ := next_cases hspeed hst
  · refine ⟨h.length, fun v devices' hv hv' => ?_⟩
    obtain rfl | rfl := v.eq_or w
    · rw [put_phase_self] at hv
      cases hv
    · rw [Which.other_other, put_phase_self] at hv'
      rw [← Phase.built.inj hv']
      exact hcopy
  · exact hattach _ _ _ h.length rfl
  · exact hattach _ _ _ ((attachStore_eq_some hstore).2.1.trans h.length) rfl
  · exact hattach _ _ _ h.length rfl

/-! ### One driver at a time -/

/-- The choice from a copy is a free port. -/
def Chooses (speed : UsbDeviceSpeed) (ports : List Port) (devices : List Driver.VirtualDevice) : Prop :=
  ∃ port, Driver.getFreePort devices speed = .ok port ∧ FreeAt speed ports port.toNat

/-- Between the moves of runs in which the drivers take turns. -/
structure Ready (k : Kernel) (speed : UsbDeviceSpeed) (s : State) : Prop where
  length : s.ports.length = k.nports
  sound : ∀ w, s.phase w ≠ .terminated ∧ ∀ q, s.phase w ≠ .refused q
  fresh : ∀ w devices, s.phase w = .built devices →
    Chooses speed s.ports devices ∧ (s.phase w.other).waits = false
  taken : ∀ w q, s.phase w = .attached q → ¬ FreeAt speed s.ports q.toNat
  apart : ∀ w q, s.phase w = .attached q → s.phase w.other ≠ .attached q

theorem ready_init (h : ports.length = k.nports) : Ready k speed (init ports) where
  length := h
  sound w := by simp [init]
  fresh _ _ h := (nomatch h)
  taken _ _ h := (nomatch h)
  apart _ _ h := (nomatch h)

theorem Ready.construct (h : Ready k speed s) (hchoose : Chooses speed s.ports devices)
    (hw : (s.phase w.other).waits = false) : Ready k speed (s.put w (.built devices) s.ports) where
  length := h.length
  sound v := by
    obtain rfl | rfl := v.eq_or w
    · simp
    · rw [put_phase_other]
      exact h.sound _
  fresh v devices' hv := by
    obtain rfl | rfl := v.eq_or w
    · rw [put_phase_self] at hv
      rw [put_phase_other, ← Phase.built.inj hv]
      exact ⟨hchoose, hw⟩
    · rw [put_phase_other] at hv
      rw [hv] at hw
      cases hw
  taken v q hv := by
    obtain rfl | rfl := v.eq_or w
    · rw [put_phase_self] at hv
      cases hv
    · rw [put_phase_other] at hv
      exact h.taken _ q hv
  apart v q hv := by
    obtain rfl | rfl := v.eq_or w
    · rw [put_phase_self] at hv
      cases hv
    · rw [Which.other_other, put_phase_self]
      exact fun h => nomatch h

/-- The chosen port is free, and is then no longer. -/
theorem Ready.attach (h : Ready k speed s) (hw : s.phase w = .built devices)
    (hstore : attachStore s.ports port speed = some ports') : Ready k speed (s.put w (.attached port) ports') where
  length := (attachStore_eq_some hstore).2.1.trans h.length
  sound v := by
    obtain rfl | rfl := v.eq_or w
    · simp
    · rw [put_phase_other]
      exact h.sound _
  fresh v devices' hv := by
    obtain rfl | rfl := v.eq_or w
    · rw [put_phase_self] at hv
      cases hv
    · rw [put_phase_other] at hv
      have hwait := (h.fresh w devices hw).2
      rw [hv] at hwait
      cases hwait
  taken v q hv := by
    rw [put_ports, (attachStore_eq_some hstore).2.2]
    obtain rfl | rfl := v.eq_or w
    · rw [put_phase_self] at hv
      cases hv
      exact fun h => h.2 rfl
    · rw [put_phase_other] at hv
      exact fun hq => h.taken _ q hv hq.1
  apart v q hv := by
    have hat := (attachStore_eq_some hstore).1
    obtain rfl | rfl := v.eq_or w
    · rw [put_phase_self] at hv
      cases hv
      rw [put_phase_other]
      exact fun hq => h.taken _ _ hq hat
    · rw [put_phase_other] at hv
      rw [Which.other_other, put_phase_self]
      intro hq
      cases hq
      exact h.taken _ _ hv hat

theorem Ready.step (hspeed : toSpeedEnum (bcd.setWidth 16) = .ok speed) (h : Ready k speed s)
    (ha : s.InTurn k speed m) (hst : s.next k bcd m = some t) : Ready k speed t := by
  obtain ⟨w, devices, rfl, -, hcopy, rfl⟩ | ⟨w, devices, -, hw, hcase⟩ := next_cases hspeed hst
  · obtain ⟨hwait, hoffer⟩ := ha
    obtain ⟨devices', hcopy', hspec⟩ := Kernel.devices_spec h.length
    rw [hcopy] at hcopy'
    cases hcopy'
    exact h.construct ((hspec speed).mpr hoffer) hwait
  · obtain ⟨⟨port, hfree, hat⟩, -⟩ := h.fresh w devices hw
    obtain ⟨⟨e, hnone⟩, -⟩ | ⟨port', hfree', ⟨ports', hstore, rfl⟩ | ⟨hstore, -⟩⟩ := hcase
    · rw [hfree] at hnone
      cases hnone
    · exact h.attach hw hstore
    · rw [hfree] at hfree'
      cases hfree'
      obtain ⟨ports', hstore'⟩ := attachStore_of_free hat
      rw [hstore] at hstore'
      cases hstore'

/-- When nothing is left to do both are attached. -/
theorem Ready.bothAttached (h : Ready k speed s) (hover : s.Over) : s.BothAttached := by
  have hdone := hover.resolve_left (not_or.mpr ⟨(h.sound .first).1, (h.sound .second).1⟩)
  have hat : ∀ w, ∃ q, s.phase w = .attached q := by
    intro w
    have hw := hdone w
    cases hp : s.phase w with
    | unbuilt | built =>
      rw [hp] at hw
      cases hw
    | attached q => exact ⟨q, rfl⟩
    | refused q => exact absurd hp ((h.sound w).2 q)
    | terminated => exact absurd hp (h.sound w).1
  obtain ⟨p, hp⟩ := hat .first
  obtain ⟨q, hq⟩ := hat .second
  refine ⟨p, q, hp, hq, ?_⟩
  rintro rfl
  exact h.apart .first p hp hq

/-! ### Two that wait at once, and one that is offered nothing -/

/-- Both have the same copy, or one waits whose choice is no free port, or one has
failed. -/
def Doomed (speed : UsbDeviceSpeed) (s : State) : Prop :=
  (∃ devices, ∀ w, s.phase w = .built devices) ∨
    (∃ w devices, s.phase w = .built devices ∧ ¬ Chooses speed s.ports devices) ∨
    ∃ w, s.phase w = .terminated ∨ ∃ port, s.phase w = .refused port

theorem Doomed.failed (w : Which) (ports : List Port) {phase : Phase}
    (h : phase = .terminated ∨ ∃ port, phase = .refused port) : Doomed speed (s.put w phase ports) :=
  .inr (.inr ⟨w, by rw [put_phase_self]; exact h⟩)

/-- A choice that is no free port does not become one. -/
theorem not_chooses_mono (h : ¬ Chooses speed ports devices) (hstore : attachStore ports port speed = some ports') :
    ¬ Chooses speed ports' devices := by
  rintro ⟨q, hq, hfree⟩
  exact h ⟨q, hq, (((attachStore_eq_some hstore).2.2 _).mp hfree).1⟩

/-- A driver that waits with such a choice. -/
theorem Doomed.step_waits (hspeed : toSpeedEnum (bcd.setWidth 16) = .ok speed) (hv : s.phase w = .built devices)
    (hnot : ¬ Chooses speed s.ports devices) (hst : s.next k bcd m = some t) : t.Doomed speed := by
  have hother : ∀ phase ports', ¬ Chooses speed ports' devices → (s.put w.other phase ports').Doomed speed := by
    intro phase ports' hnot'
    refine .inr (.inl ⟨w, devices, ?_, hnot'⟩)
    have hkeep := put_phase_other s w.other phase ports'
    rw [Which.other_other] at hkeep
    rw [hkeep]
    exact hv
  obtain ⟨v, devices', -, hun, -, rfl⟩ | ⟨v, devices', -, hw, hcase⟩ := next_cases hspeed hst
  · obtain rfl | rfl := v.eq_or w
    · rw [hv] at hun
      cases hun
    · exact hother _ _ hnot
  · obtain ⟨-, rfl⟩ | ⟨port', hfree, ⟨ports', hstore, rfl⟩ | ⟨-, rfl⟩⟩ := hcase
    · exact Doomed.failed _ _ (.inl rfl)
    · obtain rfl | rfl := v.eq_or w
      · rw [hv] at hw
        cases hw
        exact absurd ⟨port', hfree, (attachStore_eq_some hstore).1⟩ hnot
      · exact hother _ _ (not_chooses_mono hnot hstore)
    · exact Doomed.failed _ _ (.inr ⟨_, rfl⟩)

theorem Doomed.step (hspeed : toSpeedEnum (bcd.setWidth 16) = .ok speed) (h : s.Doomed speed)
    (hst : s.next k bcd m = some t) : t.Doomed speed := by
  obtain ⟨devices, hsame⟩ | ⟨v, devices, hv, hnot⟩ | ⟨v, hv⟩ := h
  · obtain ⟨w, devices', -, hun, -⟩ |
      ⟨w, devices', -, hw, ⟨-, rfl⟩ | ⟨port, hfree, ⟨ports', hstore, rfl⟩ | ⟨-, rfl⟩⟩⟩ := next_cases hspeed hst
    · rw [hsame w] at hun
      cases hun
    · exact Doomed.failed _ _ (.inl rfl)
    · rw [hsame w] at hw
      cases hw
      refine .inr (.inl ⟨w.other, devices, by rw [put_phase_other]; exact hsame _, ?_⟩)
      rintro ⟨port', hfree', hat⟩
      rw [hfree] at hfree'
      cases hfree'
      exact (((attachStore_eq_some hstore).2.2 _).mp hat).2 rfl
    · exact Doomed.failed _ _ (.inr ⟨_, rfl⟩)
  · exact Doomed.step_waits hspeed hv hnot hst
  · have hstay : t.phase v = s.phase v := phase_stays hspeed hst (by obtain hv | ⟨_, hv⟩ := hv <;> rw [hv] <;> rfl)
    exact .inr (.inr ⟨v, by rw [hstay]; exact hv⟩)

theorem Doomed.not_bothAttached (h : s.Doomed speed) : ¬ s.BothAttached := by
  rintro ⟨p, q, hp, hq, -⟩
  have hat : ∀ w, ∃ q, s.phase w = .attached q
    | .first => ⟨p, hp⟩
    | .second => ⟨q, hq⟩
  obtain ⟨devices, hsame⟩ | ⟨v, devices, hv, -⟩ | ⟨v, hv⟩ := h
  · rw [hsame .first] at hp
    cases hp
  · obtain ⟨q', hq'⟩ := hat v
    rw [hv] at hq'
    cases hq'
  · obtain ⟨q', hq'⟩ := hat v
    rw [hq'] at hv
    obtain hv | ⟨_, hv⟩ := hv <;> cases hv

/-- A driver that is constructed out of turn. -/
theorem Doomed.of_construct (hc : Current k s) (hun : s.phase w = .unbuilt) (hcopy : k.devices s.ports = .ok devices)
    (hturn : ¬ s.InTurn k speed (.construct w)) : Doomed speed (s.put w (.built devices) s.ports) := by
  by_cases hw : (s.phase w.other).waits = false
  · refine .inr (.inl ⟨w, devices, put_phase_self .., fun hchoose => hturn ⟨hw, ?_⟩⟩)
    obtain ⟨devices', hcopy', hspec⟩ := Kernel.devices_spec hc.length
    rw [hcopy] at hcopy'
    cases hcopy'
    exact (hspec speed).mp hchoose
  · refine .inl ⟨devices, fun v => ?_⟩
    obtain rfl | rfl := v.eq_or w
    · exact put_phase_self ..
    · rw [put_phase_other]
      cases hp : s.phase w.other with
      | built devices' =>
        have hsame := hc.same w devices' hun hp
        rw [hcopy] at hsame
        rw [Except.ok.inj hsame]
      | _ =>
        rw [hp] at hw
        exact absurd rfl hw

/-- Only drivers that have taken turns are both attached. -/
theorem meets_of_bothAttached {moves : List Move} (hn : ports.length = k.nports)
    (hspeed : toSpeedEnum (bcd.setWidth 16) = .ok speed) (h : follow (next k bcd) (init ports) moves = some s)
    (hboth : s.BothAttached) : Meets (next k bcd) (InTurn k speed) (init ports) moves := by
  by_contra hmeets
  obtain ⟨u, m, v, hu, hm, hst, hend⟩ := exists_broken moves h hmeets
  have hcur : Current k u := hu.invariant (current_init hn) fun _ _ _ hc _ hst => hc.step hspeed hst
  obtain ⟨w, devices, rfl, hun, hcopy, rfl⟩ | ⟨w, devices, rfl, -⟩ := next_cases hspeed hst
  · have hdoomed : s.Doomed speed :=
      hend.invariant (.of_construct hcur hun hcopy hm) fun _ _ _ hd _ hst => hd.step hspeed hst
    exact hdoomed.not_bothAttached hboth
  · exact hm trivial

end State

/-- **The race for a port.** At the end of a run both devices are attached, on different
ports, exactly when no driver was constructed while the other one waited to be
attached, and each was offered a free port by the tables it read. -/
theorem ports_iff {moves : List Move} (hn : ports.length = k.nports)
    (hspeed : toSpeedEnum (bcd.setWidth 16) = .ok speed)
    (h : follow (State.next k bcd) (.init ports) moves = some s) (hover : s.Over) :
    s.BothAttached ↔ Meets (State.next k bcd) (State.InTurn k speed) (.init ports) moves := by
  refine ⟨State.meets_of_bothAttached hn hspeed h, fun hmeets => ?_⟩
  have hready : s.Ready k speed :=
    (Runs.reach_follow moves h hmeets).invariant (State.ready_init hn) fun _ _ _ hr ha hst => hr.step hspeed ha hst
  exact hready.bothAttached hover

/-! ### The two orders -/

theorem attach_of_port (hspeed : toSpeedEnum (bcd.setWidth 16) = .ok speed)
    (hport : Driver.getFreePort devices speed = .ok port) : attach ports devices bcd =
      match attachStore ports port speed with
      | some ports' => (.attached port, ports')
      | none => (.refused port, ports) := by
  simp only [attach, hspeed, hport, attachDevice_eq]

namespace State

theorem next_construct (hend : ¬ s.Ended) (hun : s.phase w = .unbuilt) (hcopy : k.devices s.ports = .ok devices) :
    s.next k bcd (.construct w) = some (s.put w (.built devices) s.ports) := by
  rw [next, if_neg hend]
  simp only [construct, hun, hcopy]
  rfl

theorem next_attach {phase : Phase} (hend : ¬ s.Ended) (hw : s.phase w = .built devices)
    (ha : Vhci.attach s.ports devices bcd = (phase, ports')) :
    s.next k bcd (.attach w) = some (s.put w phase ports') := by
  rw [next, if_neg hend]
  simp only [attach, hw, ha]

/-- Both drivers are constructed before either device is attached. -/
def raced : List Move := [.construct .first, .construct .second, .attach .first, .attach .second]

/-- The second is constructed when the first is attached. -/
def inTurn : List Move := [.construct .first, .attach .first, .construct .second, .attach .second]

/-- In the one order the second device is refused. -/
theorem follow_raced (hn : ports.length = k.nports) (hspeed : toSpeedEnum (bcd.setWidth 16) = .ok speed)
    (hoffer : k.Offers ports speed) :
    ∃ s port, follow (next k bcd) (init ports) raced = some s ∧ s.Over ∧ s.phase .second = .refused port := by
  obtain ⟨devices, hcopy, hspec⟩ := Kernel.devices_spec hn
  obtain ⟨port, hport, hfree⟩ := (hspec speed).mpr hoffer
  obtain ⟨ports', hstore⟩ := attachStore_of_free hfree
  have hrefused : attachStore ports' port speed = none := by
    rw [Option.eq_none_iff_forall_ne_some]
    intro ports'' hstore'
    exact (((attachStore_eq_some hstore).2.2 _).mp (attachStore_eq_some hstore').1).2 rfl
  have hfirst : Vhci.attach ports devices bcd = (.attached port, ports') := by rw [attach_of_port hspeed hport, hstore]
  have hsecond : Vhci.attach ports' devices bcd = (.refused port, ports') := by
    rw [attach_of_port hspeed hport, hrefused]
  refine ⟨_, port, follow_cons (next_construct (by simp [Ended, init]) rfl hcopy) <|
    follow_cons (next_construct (by simp [Ended, init, put]) rfl hcopy) <|
    follow_cons (next_attach (by simp [Ended, init, put]) rfl hfirst) <|
    follow_cons (next_attach (by simp [Ended, init, put]) rfl hsecond) rfl, ?_, rfl⟩
  exact .inr fun w => by cases w <;> rfl

/-- In the other both are attached, if there is a port for each whose number a byte
holds. -/
theorem follow_inTurn (hn : ports.length = k.nports) (hspeed : toSpeedEnum (bcd.setWidth 16) = .ok speed)
    (hall : ∀ ports' : List Port, ports'.length = k.nports → ∀ l ∈ k.allLines ports', l.Parses)
    (hfree : ∃ p < 256, ∃ q < 256, p ≠ q ∧ FreeAt speed ports p ∧ FreeAt speed ports q) :
    ∃ s, follow (next k bcd) (init ports) inTurn = some s ∧ s.Over ∧
      Meets (next k bcd) (InTurn k speed) (init ports) inTurn := by
  obtain ⟨p, hp, q, hq, hpq, hfreep, hfreeq⟩ := hfree
  have hoffer : k.Offers ports speed := (Kernel.offers_iff_of_parses hn (hall ports hn)).mpr ⟨p, hp, hfreep⟩
  obtain ⟨devices, hcopy, hspec⟩ := Kernel.devices_spec hn
  obtain ⟨port, hport, hat⟩ := (hspec speed).mpr hoffer
  obtain ⟨ports', hstore⟩ := attachStore_of_free hat
  obtain ⟨-, hlen, hiff⟩ := attachStore_eq_some hstore
  have hn' : ports'.length = k.nports := hlen.trans hn
  have hleft : ∃ n < 256, FreeAt speed ports' n := by
    by_cases hne : p = port.toNat
    · exact ⟨q, hq, (hiff q).mpr ⟨hfreeq, fun h => hpq (hne.trans h.symm)⟩⟩
    · exact ⟨p, hp, (hiff p).mpr ⟨hfreep, hne⟩⟩
  have hoffer' : k.Offers ports' speed := (Kernel.offers_iff_of_parses hn' (hall ports' hn')).mpr hleft
  obtain ⟨devices', hcopy', hspec'⟩ := Kernel.devices_spec hn'
  obtain ⟨port', hport', hat'⟩ := (hspec' speed).mpr hoffer'
  obtain ⟨ports'', hstore'⟩ := attachStore_of_free hat'
  have hfirst : Vhci.attach ports devices bcd = (.attached port, ports') := by rw [attach_of_port hspeed hport, hstore]
  have hsecond : Vhci.attach ports' devices' bcd = (.attached port', ports'') := by
    rw [attach_of_port hspeed hport', hstore']
  let s₁ := (init ports).put .first (.built devices) ports
  let s₂ := s₁.put .first (.attached port) ports'
  let s₃ := s₂.put .second (.built devices') ports'
  let s₄ := s₃.put .second (.attached port') ports''
  have h₁ : (init ports).next k bcd (.construct .first) = some s₁ :=
    next_construct (by simp [Ended, init]) rfl hcopy
  have h₂ : s₁.next k bcd (.attach .first) = some s₂ := next_attach (by simp [s₁, Ended, init, put]) rfl hfirst
  have h₃ : s₂.next k bcd (.construct .second) = some s₃ :=
    next_construct (by simp [s₂, s₁, Ended, init, put]) rfl hcopy'
  have h₄ : s₃.next k bcd (.attach .second) = some s₄ :=
    next_attach (by simp [s₃, s₂, s₁, Ended, init, put]) rfl hsecond
  refine ⟨s₄, follow_cons h₁ <| follow_cons h₂ <| follow_cons h₃ <| follow_cons h₄ rfl, ?_, ?_⟩
  · exact .inr fun w => by cases w <;> rfl
  · exact .cons ⟨rfl, hoffer⟩ h₁ <| .cons trivial h₂ <| .cons ⟨rfl, hoffer'⟩ h₃ <| .cons trivial h₄ trivial

end State

/-- The number of a status. -/
def statusValue : VdevStatus → U32
  | .null => Driver.VDEV_ST_NULL
  | .notAssigned => 5
  | .used => 6
  | .error => 7

/-- The line of a port on which no device is in use. -/
def plainLine (n : ℕ) (p : Port) : PortLine := ⟨p.hub, BitVec.ofNat 32 n, statusValue p.status, 0, 0, 0, .root⟩

theorem plainLine_of {n : ℕ} (h : n < 2 ^ 32) (p : Port) : (plainLine n p).Of (p, n) where
  port := by
    show (BitVec.ofNat 32 n).toNat = n
    rw [BitVec.toNat_ofNat, Nat.mod_eq_of_lt h]
  hub := rfl
  free := by
    show statusValue p.status = Driver.VDEV_ST_NULL ↔ p.status = .null
    cases p.status <;> decide

/-- One controller with two ports. -/
def oneController : Kernel where
  nports := 2
  controllers := 1
  header := kernelHeader
  tables ports _ := ports.mapIdx plainLine
  attr ports name := if name = "status" then some (printTable kernelHeader (ports.mapIdx plainLine)) else none
  header_line := by decide
  attr_eq ports i hi := by
    obtain rfl : i = 0 := by omega
    rfl
  lines ports h := by
    obtain ⟨p, q, rfl⟩ := List.length_eq_two.mp h
    exact .cons (plainLine_of (n := 0) (by decide) p) (.cons (plainLine_of (n := 1) (by decide) q) .nil)

/-- Two free ports of the USB 2.0 hub. -/
def twoPorts : List Port := [⟨.high, .null⟩, ⟨.high, .null⟩]

theorem twoPorts_free : ∃ p q, p ≠ q ∧ FreeAt .high twoPorts p ∧ FreeAt .high twoPorts q :=
  ⟨0, 1, by decide, by decide, by decide⟩

/-- No line of this kernel is one that the parser does not take. -/
theorem parses_oneController {ports : List Port} (h : ports.length = oneController.nports) :
    ∀ l ∈ oneController.allLines ports, l.Parses := by
  intro l hl
  obtain ⟨i, -, hi⟩ := List.mem_flatMap.mp hl
  obtain ⟨n, hn, rfl⟩ := List.mem_mapIdx.mp hi
  have htwo : n < 2 := lt_of_lt_of_eq hn h
  apply parses_zeros
  · rw [BitVec.toNat_ofNat]
    omega
  · cases ports[n].status <;> decide

theorem speed_high : toSpeedEnum ((0x0200#32).setWidth 16) = .ok .high := rfl

theorem ports_raced : ¬ ∀ (k : Kernel) (ports : List Port) (moves : List Move) (s : State), ports.length = k.nports →
    (∃ p q, p ≠ q ∧ FreeAt .high ports p ∧ FreeAt .high ports q) →
    follow (State.next k 0x0200#32) (.init ports) moves = some s → s.Over → s.BothAttached := by
  intro h
  have hoffer : oneController.Offers twoPorts .high :=
    (Kernel.offers_iff_of_parses rfl (parses_oneController rfl)).mpr ⟨0, by decide, by decide⟩
  obtain ⟨s, port, hs, hover, hrefused⟩ := State.follow_raced rfl speed_high hoffer
  obtain ⟨p, q, -, hq, -⟩ := h oneController twoPorts State.raced s rfl twoPorts_free hs hover
  rw [hrefused] at hq
  cases hq

theorem ports_in_turn : ∃ s, follow (State.next oneController 0x0200#32) (.init twoPorts) State.inTurn = some s ∧
    s.BothAttached := by
  have hfree : ∃ p < 256, ∃ q < 256, p ≠ q ∧ FreeAt .high twoPorts p ∧ FreeAt .high twoPorts q :=
    ⟨0, by decide, 1, by decide, by decide, by decide, by decide⟩
  obtain ⟨s, hs, hover, hmeets⟩ :=
    State.follow_inTurn rfl speed_high (fun _ hlen => parses_oneController hlen) hfree
  exact ⟨s, hs, (ports_iff rfl speed_high hs hover).mpr hmeets⟩

end Vhci
end Viu
