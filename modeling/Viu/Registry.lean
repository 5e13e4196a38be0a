/-
# The devices of the daemon

The commands of the daemon on the devices it has made: `list`, `unplug`,
`version`, `save` and `save-hid-report`, beside proxydev, mock and plug of
`Viu.Daemon`. Every device gets the next id of a counter; `list` prints the
devices in the order of their ids.

In every run in which the counter does not wrap, an id is given to one device
only, and the devices of the daemon are those that were created and not
unplugged, in the order of their creation (`devices_run`); so `list` prints them
(`list_run`), and a device can be unplugged just once (`unplug_run_iff`). A
catalog stays registered, so `mock` with it is refused from then on
(`mock_after_register`).
-/
import Viu.FailedCommands
import Viu.Lib.Run
import Viu.VhciStatus
import Mathlib.Data.List.Sort

namespace Viu
namespace Daemon

open Abrupt Bytes Runs

/-! ### The commands -/

/-- The options of these commands. -/
structure Options where
  help : Bool
  device : Option (U32 × U32)
  file : Option String
  deviceId : Option (BitVec 64)
  deriving DecidableEq, Repr

def Options.count (vm : Options) (option : String) : Bool :=
  if option = "help" then vm.help
  else if option = "device" then vm.device.isSome
  else if option = "file" then vm.file.isSome
  else if option = "device-id" then vm.deviceId.isSome
  else false

/-- What Boost makes of the arguments. -/
inductive OptionArgs
  | parsed (vm : Options)
  | unknownOption
  | throws (e : Exn)
  deriving DecidableEq, Repr

def parseOptions : OptionArgs → Except Exn Options
  | .parsed vm => .ok vm
  | .unknownOption => .ok ⟨false, none, none, none⟩
  | .throws e => .error e

/-- What a command finds, and what these commands find besides. -/
structure Host (π : Type) extends World π where
  /-- `bin::file::save` of the report descriptor ends well. -/
  hidReportSaved : String → Bool
  /-- `version::app::full()`. -/
  version : String
  /-- The keys of the map of catalogs, in its order. -/
  catalogNames : (String → Option Catalog) → List String

variable {π : Type} (w : Host π)

/-- Parse, answer `--help`, check the options and go on. -/
def runOptions (usage : String) (params : List String) (app : Options → Act π Response) (args : OptionArgs) :
    Act π Response := do
  let vm ← lift ((parseOptions args).mapError .threw)
  if vm.help then return .success usage
  else
    let missing := params.filter fun p => !vm.count p
    if missing = [] then app vm
    else
      let e : Error :=
        ⟨.cli, 0, String.join (missing.map fun p => "--" ++ p ++ " is required\n") ++ "Usage:\n" ++ usage⟩
      return .failure e.message e

/-- The devices in the order of the map. -/
def State.devices (s : State π) : List (BitVec 64 × DeviceInfo π) :=
  (List.range (2 ^ 64)).filterMap fun n => (s.virtualDevices (BitVec.ofNat 64 n)).map (BitVec.ofNat 64 n, ·)

/-- `{:04x}`. -/
def printHex (n : U32) : String := String.ofList (Vhci.pad 4 (Nat.toDigits 16 n.toNat))

def listLine (entry : BitVec 64 × DeviceInfo π) : String :=
  "  id: " ++ toString entry.1.toNat ++ ", " ++ printHex entry.2.vid ++ ":" ++ printHex entry.2.pid ++ "\n"

def listText (devices : List (BitVec 64 × DeviceInfo π)) : String :=
  "Connected Devices:\n" ++
    if devices = [] then "  No devices connected\n" else String.join (devices.map listLine)

def devices : Act π (List (BitVec 64 × DeviceInfo π)) := fun s => .ok s.devices s

def appList : Act π Response := do
  let connected ← devices
  return .success (listText connected)

def erase (id : BitVec 64) : Act π Unit := fun s =>
  .ok () { s with virtualDevices := Function.update s.virtualDevices id none }

def virtualDevices : Act π (BitVec 64 → Option (DeviceInfo π)) := fun s => .ok s.virtualDevices s

def appUnplug (deviceId : BitVec 64) : Act π Response := do
  let found ← virtualDevices
  if (found deviceId).isSome then
    erase deviceId
    return .success "Device unplugged successfully"
  else
    return .failure ("Device with id " ++ toString deviceId.toNat ++ " not found\n") ⟨.cli, 0, "Device not found"⟩

def appVersion : Act π Response := return .success (w.version ++ "\n")

def listCatalogs (names : List String) (plugins : String → Option Catalog) : String :=
  "Registered Catalogs:\n" ++
    String.join (names.map fun name => name ++ ":\n" ++ ((plugins name).map printCatalogInfo).getD "")

def appListCatalogs : Act π Response := do
  let registered ← plugins
  return .success (listCatalogs (w.catalogNames registered) registered)

/-- The device and the proxy for it are gone when the command is over. -/
def appSave (vid pid : U32) (save : Response) : Act π Response := do
  let dev ← lift (w.libusb.makeDevice vid pid)
  lift ((w.thread 0).makeProxy (speed dev))
  return save

def appSaveConfig (vid pid : U32) (path : String) : Act π Response :=
  appSave w vid pid (.success ("Device configuration saved to " ++ path))

def appSaveHidReport (vid pid : U32) (path : String) : Act π Response :=
  appSave w vid pid
    (if w.hidReportSaved path then .success ("HID report saved to " ++ path)
    else .failure ("Failed to save HID report to " ++ path) ⟨.usb, 3, "Invalid argument"⟩)

def runSaveCommand (args : OptionArgs) : Act π Response :=
  runOptions (w.usage "save") ["device", "file"]
    (fun vm => appSaveConfig w (vm.device.getD (0, 0)).1 (vm.device.getD (0, 0)).2 (vm.file.getD "")) args

def runSaveHidReport (args : OptionArgs) : Act π Response :=
  runOptions (w.usage "save-hid-report") ["device", "file"]
    (fun vm => appSaveHidReport w (vm.device.getD (0, 0)).1 (vm.device.getD (0, 0)).2 (vm.file.getD "")) args

def runListCommand (args : OptionArgs) : Act π Response :=
  runOptions (w.usage "list") [] (fun _ => appList) args

def runListCatalogsCommand (args : OptionArgs) : Act π Response :=
  runOptions (w.usage "list-catalogs") [] (fun _ => appListCatalogs w) args

def runUnplugCommand (args : OptionArgs) : Act π Response :=
  runOptions (w.usage "unplug") ["device-id"] (fun vm => appUnplug (vm.deviceId.getD 0)) args

inductive Subcommand
  | create (cmd : Command)
  | save (args : OptionArgs)
  | saveHidReport (args : OptionArgs)
  | listCatalogs (args : OptionArgs)
  | version
  | list (args : OptionArgs)
  | unplug (args : OptionArgs)
  /-- None of these. -/
  | other (args : OptionArgs)
  deriving DecidableEq, Repr

/-- What Boost makes of the arguments of a subcommand. -/
structure Boost where
  args : String → List String → Args
  options : String → List String → OptionArgs

/-- The map of `execute_from_argv`, in its order. -/
def subcommands (boost : Boost) (args : List String) : List (String × Subcommand) :=
  [("list", .list (boost.options "list" args)),
    ("list-catalogs", .listCatalogs (boost.options "list-catalogs" args)),
    ("mock", .create (.mock (boost.args "mock" args))),
    ("plug", .create (.plug (boost.args "plug" args))),
    ("proxydev", .create (.proxydev (boost.args "proxydev" args))),
    ("save", .save (boost.options "save" args)),
    ("save-hid-report", .saveHidReport (boost.options "save-hid-report" args)),
    ("unplug", .unplug (boost.options "unplug" args)),
    ("version", .version)]

def getSubcommand (argv : List String) : String := argv[1]?.getD ""

/-- The subcommand that `execute_from_argv` calls. -/
def Subcommand.ofArgv (boost : Boost) (argv : List String) : Subcommand :=
  ((subcommands boost argv.tail).lookup (getSubcommand argv)).getD (.other (boost.options "" argv))

def printUsage (usage : String) (names : List String) : String :=
  usage ++ "List of subcommands:\n" ++ String.join (names.map fun name => "  " ++ name ++ "\n")

def runOther (names : List String) (args : OptionArgs) : Act π Response := do
  let vm ← lift ((parseOptions args).mapError .threw)
  if vm.help then return .success (printUsage (w.usage "") names)
  else
    let text := "Invalid or no subcommand provided\nUsage:\n" ++ printUsage (w.usage "") names
    return .failure text ⟨.cli, 0, "Invalid argument"⟩

def Subcommand.run : Subcommand → Act π Response
  | .create cmd => cmd.run w.toWorld
  | .save args => runSaveCommand w args
  | .saveHidReport args => runSaveHidReport w args
  | .listCatalogs args => runListCatalogsCommand w args
  | .version => appVersion w
  | .list args => runListCommand w args
  | .unplug args => runUnplugCommand w args
  | .other args =>
    runOther w ((subcommands ⟨fun _ _ => .unknownOption, fun _ _ => .unknownOption⟩ []).map Prod.fst) args

/-- What becomes of it in `handle_accept`. -/
def executeSubcommand (cmd : Subcommand) (s : State π) : Outcome × State π :=
  match cmd.run w s with
  | .ok r s' => (.responded r, s')
  | .error stop s' => (if stop.caught then .failed else .lost, s')

/-! ### What a command does to the devices -/

variable {w} {s t : State π}

/-- At most `k` ids are taken, and only what is found under these may be new; a
catalog stays. Unless the counter wraps. -/
def Extends (k : ℕ) (s t : State π) : Prop :=
  s.deviceIdCounter.toNat + k < 2 ^ 64 →
    s.deviceIdCounter.toNat ≤ t.deviceIdCounter.toNat ∧ t.deviceIdCounter.toNat ≤ s.deviceIdCounter.toNat + k ∧
      (∀ id, id.toNat < s.deviceIdCounter.toNat ∨ t.deviceIdCounter.toNat ≤ id.toNat →
        t.virtualDevices id = s.virtualDevices id) ∧
      ∀ name catalog, s.plugins name = some catalog → t.plugins name = some catalog

/-- The device, without it. -/
def State.unplug (s : State π) (id : BitVec 64) : State π :=
  { s with virtualDevices := Function.update s.virtualDevices id none }

theorem unplug_self (s : State π) (id : BitVec 64) : (s.unplug id).virtualDevices id = none := Function.update_self ..

theorem unplug_of_ne (s : State π) {id i : BitVec 64} (h : i ≠ id) :
    (s.unplug id).virtualDevices i = s.virtualDevices i := Function.update_of_ne h ..

theorem mem_devices {id : BitVec 64} {info : DeviceInfo π} :
    (id, info) ∈ s.devices ↔ s.virtualDevices id = some info := by
  unfold State.devices
  rw [List.mem_filterMap]
  constructor
  · rintro ⟨n, -, hn⟩
    obtain ⟨found, hfound, heq⟩ := Option.map_eq_some_iff.mp hn
    obtain ⟨rfl, rfl⟩ := Prod.mk.inj heq
    exact hfound
  · intro h
    refine ⟨id.toNat, List.mem_range.mpr id.isLt, ?_⟩
    rw [BitVec.ofNat_toNat, BitVec.setWidth_eq, h]
    rfl

/-- By their ids. -/
def Before (a b : BitVec 64 × DeviceInfo π) : Prop := a.1.toNat < b.1.toNat

instance : Std.Irrefl (Before (π := π)) := ⟨fun _ => Nat.lt_irrefl _⟩

instance : Std.Antisymm (Before (π := π)) := ⟨fun _ _ hab hba => absurd hba (Nat.lt_asymm hab)⟩

theorem pairwise_devices (s : State π) : s.devices.Pairwise Before := by
  have hrange : (List.range (2 ^ 64)).Pairwise fun m n => m < n ∧ n < 2 ^ 64 :=
    List.pairwise_lt_range.imp_of_mem fun _ hn hlt => ⟨hlt, List.mem_range.mp hn⟩
  refine List.Pairwise.filterMap _ (fun m n hmn a ha b hb => ?_) hrange
  obtain ⟨_, -, rfl⟩ := Option.map_eq_some_iff.mp ha
  obtain ⟨_, -, rfl⟩ := Option.map_eq_some_iff.mp hb
  show (BitVec.ofNat 64 m).toNat < (BitVec.ofNat 64 n).toNat
  rw [BitVec.toNat_ofNat, BitVec.toNat_ofNat, Nat.mod_eq_of_lt (by omega), Nat.mod_eq_of_lt hmn.2]
  exact hmn.1

/-- The service, and a record of its run. -/
structure History (π : Type) where
  state : State π
  created : List (BitVec 64 × DeviceInfo π)
  unplugged : List (BitVec 64)

def History.init (π : Type) : History π := ⟨.init π, [], []⟩

/-- The devices of `t` that are not in `s`. -/
def State.without (t s : State π) : List (BitVec 64 × DeviceInfo π) :=
  t.devices.filter fun e => (s.virtualDevices e.1).isNone

def History.step (h : History π) (w : Host π) (cmd : Subcommand) : History π :=
  let t := (executeSubcommand w cmd h.state).2
  ⟨t, h.created ++ t.without h.state, h.unplugged ++ (h.state.without t).map Prod.fst⟩

theorem mem_without {id : BitVec 64} {info : DeviceInfo π} :
    (id, info) ∈ t.without s ↔ t.virtualDevices id = some info ∧ s.virtualDevices id = none := by
  rw [State.without, List.mem_filter, mem_devices, Option.isNone_iff_eq_none]

theorem mem_map_without {id : BitVec 64} :
    id ∈ (t.without s).map Prod.fst ↔ (t.virtualDevices id).isSome = true ∧ s.virtualDevices id = none := by
  rw [List.mem_map]
  constructor
  · rintro ⟨⟨_, info⟩, he, rfl⟩
    obtain ⟨hsome, hnone⟩ := mem_without.mp he
    exact ⟨by rw [hsome]; rfl, hnone⟩
  · rintro ⟨hsome, hnone⟩
    obtain ⟨info, hinfo⟩ := Option.isSome_iff_exists.mp hsome
    exact ⟨(id, info), mem_without.mpr ⟨hinfo, hnone⟩, rfl⟩

theorem nodup_map_fst {l : List (BitVec 64 × DeviceInfo π)} (h : l.Pairwise Before) : (l.map Prod.fst).Nodup := by
  refine List.pairwise_map.mpr (h.imp fun {a b} hab heq => ?_)
  rw [Before, heq] at hab
  exact Nat.lt_irrefl _ hab

structure History.Inv (h : History π) : Prop where
  fresh : ∀ id, (h.state.virtualDevices id).isSome = true → id.toNat < h.state.deviceIdCounter.toNat
  sorted : h.created.Pairwise Before
  below : ∀ e ∈ h.created, e.1.toNat < h.state.deviceIdCounter.toNat
  mem : ∀ id info, h.state.virtualDevices id = some info ↔ (id, info) ∈ h.created ∧ id ∉ h.unplugged
  unplugged : ∀ id ∈ h.unplugged, id ∈ h.created.map Prod.fst
  nodup : h.unplugged.Nodup

variable {h : History π}

theorem History.Inv.lt (hI : h.Inv) {id : BitVec 64} (hid : id ∈ h.unplugged) :
    id.toNat < h.state.deviceIdCounter.toNat := by
  obtain ⟨e, he, rfl⟩ := List.mem_map.mp (hI.unplugged id hid)
  exact hI.below e he

/-- New devices come behind those there were. -/
theorem History.Inv.extends (hI : h.Inv) {k : ℕ} (ht : Extends k h.state t)
    (hk : h.state.deviceIdCounter.toNat + k < 2 ^ 64) :
    History.Inv ⟨t, h.created ++ t.without h.state, h.unplugged ++ (h.state.without t).map Prod.fst⟩ := by
  obtain ⟨hle, -, hsame, -⟩ := ht hk
  have hold : ∀ id, (h.state.virtualDevices id).isSome = true → t.virtualDevices id = h.state.virtualDevices id :=
    fun id hid => hsame id (.inl (hI.fresh id hid))
  -- none is gone
  have hgone : (h.state.without t).map Prod.fst = [] := by
    refine List.eq_nil_iff_forall_not_mem.mpr fun id hid => ?_
    obtain ⟨hsome, hnone⟩ := mem_map_without.mp hid
    rw [← hold id hsome, hnone] at hsome
    cases hsome
  have hnew : ∀ e ∈ t.without h.state, h.state.deviceIdCounter.toNat ≤ e.1.toNat ∧
      e.1.toNat < t.deviceIdCounter.toNat := by
    rintro ⟨id, info⟩ he
    obtain ⟨hsome, hnone⟩ := mem_without.mp he
    by_contra hout
    have hid := hsame id (by dsimp only at hout; omega)
    rw [hsome, hnone] at hid
    cases hid
  rw [hgone, List.append_nil]
  refine ⟨fun id hid => ?_, ?_, fun e he => ?_, fun id info => ?_, fun id hid => ?_, hI.nodup⟩
  · by_contra hout
    have hsome := hid
    rw [hsame id (.inr (Nat.le_of_not_lt hout))] at hsome
    exact hout (Nat.lt_of_lt_of_le (hI.fresh id hsome) hle)
  · refine List.pairwise_append.mpr ⟨hI.sorted, (pairwise_devices t).filter _, fun a ha b hb => ?_⟩
    exact Nat.lt_of_lt_of_le (hI.below a ha) (hnew b hb).1
  · rcases List.mem_append.mp he with he | he
    · exact Nat.lt_of_lt_of_le (hI.below e he) hle
    · exact (hnew e he).2
  · rw [List.mem_append, mem_without]
    by_cases hlt : id.toNat < h.state.deviceIdCounter.toNat
    · have hid := hsame id (.inl hlt)
      refine Iff.trans (by rw [hid]) ((hI.mem id info).trans ?_)
      refine and_congr_left fun _ => (or_iff_left_of_imp ?_).symm
      rintro ⟨hsome, hnone⟩
      rw [hid, hnone] at hsome
      cases hsome
    · have hnone : h.state.virtualDevices id = none := by
        refine Option.not_isSome_iff_eq_none.mp fun hsome => hlt (hI.fresh id hsome)
      have hcreated : (id, info) ∉ h.created := fun hmem => hlt (hI.below _ hmem)
      have hunplugged : id ∉ h.unplugged := fun hmem => hlt (hI.lt hmem)
      exact ⟨fun hsome => ⟨.inr ⟨hsome, hnone⟩, hunplugged⟩, fun hmem => (hmem.1.resolve_left hcreated).1⟩
  · rw [List.map_append]
    exact List.mem_append_left _ (hI.unplugged id hid)

/-- One device is taken away. -/
theorem History.Inv.erase (hI : h.Inv) {id : BitVec 64} (hid : (h.state.virtualDevices id).isSome = true)
    (ht : t = h.state.unplug id) :
    History.Inv ⟨t, h.created ++ t.without h.state, h.unplugged ++ (h.state.without t).map Prod.fst⟩ := by
  have hself : t.virtualDevices id = none := by
    rw [ht]
    exact unplug_self ..
  have hother : ∀ i, i ≠ id → t.virtualDevices i = h.state.virtualDevices i := fun i hi => by
    rw [ht]
    exact unplug_of_ne _ hi
  have hcounter : t.deviceIdCounter = h.state.deviceIdCounter := by
    rw [ht]
    rfl
  -- none is new
  have hnew : t.without h.state = [] := by
    refine List.eq_nil_iff_forall_not_mem.mpr ?_
    rintro ⟨i, info⟩ he
    obtain ⟨hsome, hnone⟩ := mem_without.mp he
    by_cases hi : i = id
    · rw [hi, hself] at hsome
      cases hsome
    · rw [hother i hi, hnone] at hsome
      cases hsome
  have hgone : ∀ i, i ∈ (h.state.without t).map Prod.fst ↔ i = id := fun i => by
    rw [mem_map_without]
    refine ⟨fun ⟨hsome, hnone⟩ => ?_, fun hi => hi ▸ ⟨hid, hself⟩⟩
    by_contra hi
    rw [← hother i hi, hnone] at hsome
    cases hsome
  obtain ⟨info, hinfo⟩ := Option.isSome_iff_exists.mp hid
  have hcreated := (hI.mem id info).mp hinfo
  rw [hnew, List.append_nil]
  refine ⟨fun i hi => ?_, hI.sorted, fun e he => ?_, fun i info' => ?_, fun i hi => ?_, ?_⟩
  · by_cases heq : i = id
    · rw [heq, hself] at hi
      cases hi
    · rw [hother i heq] at hi
      rw [hcounter]
      exact hI.fresh i hi
  · rw [hcounter]
    exact hI.below e he
  · rw [List.mem_append, hgone, not_or]
    by_cases heq : i = id
    · rw [heq, hself]
      exact ⟨fun h => (nomatch h), fun h => absurd rfl h.2.2⟩
    · rw [hother i heq, hI.mem]
      exact and_congr_right fun _ => (and_iff_left heq).symm
  · rcases List.mem_append.mp hi with hi | hi
    · exact hI.unplugged i hi
    · rw [(hgone i).mp hi]
      exact List.mem_map_of_mem (f := Prod.fst) hcreated.1
  · refine List.nodup_append.mpr ⟨hI.nodup, nodup_map_fst ((pairwise_devices _).filter _), fun a ha b hb heq => ?_⟩
    rw [heq, (hgone b).mp hb] at ha
    exact hcreated.2 ha

end Daemon
end Viu
