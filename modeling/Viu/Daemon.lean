/-
# The commands of the daemon

`viu::daemon::service`: the commands proxydev, mock and plug, from the parsed
options to the registered catalogs and the virtual devices. An exception that
leaves a command is logged and the connection closed; what the command has done
by then stays. An assertion only logs, so where a catalog, a device or an entry
point is missing the code goes on with a value that is not there.

What a command finds outside the service is its `World`: the libraries of the
catalogs and their factories, the configuration files, the devices on the bus,
and how each construction of a proxy ends. A library is code of its own: what it
throws in a function that may not throw ends the daemon.
-/
import Viu.Json
import Viu.Device
import Viu.Lib.Abrupt
import Viu.Ports

namespace Viu
namespace Daemon

open Bytes

def LIBUSB_ERROR_NO_DEVICE : I32 := BitVec.ofInt 32 (-4)

inductive ErrorCategory
  | none
  | cli
  | usb
  | catalog
  deriving DecidableEq, Repr

structure Error where
  category : ErrorCategory
  code : ℕ
  message : String
  deriving DecidableEq, Repr

structure Response where
  message : String
  error : Option Error
  deriving DecidableEq, Repr

def Response.success (message : String) : Response := ⟨message, none⟩
def Response.failure (message : String) (error : Error) : Response := ⟨message, some error⟩

def Response.isSuccess (r : Response) : Bool := r.error.isNone

/-! ### The world -/

/-- How a command ends without a response. -/
inductive Stop
  | badConfig (e : LoadExn)
  | threw (e : Exn)
  /-- A call or an access through a null pointer, an index past the end, or `*` of an
  unexpected value. -/
  | undefined
  /-- An exception has left the thread of a device or a function that is `noexcept`, or
  is not a `std::exception`. -/
  | terminated
  deriving DecidableEq, Repr

/-- Caught in `handle_accept`. -/
def Stop.caught : Stop → Bool
  | .badConfig _ | .threw _ => true
  | .undefined | .terminated => false

/-- A catalog as its plugin has filled it in; `entries` are the names of the
devices. -/
structure Catalog where
  name : String
  version : String
  entries : List String
  deriving DecidableEq, Repr

/-- What comes of `dlopen` and `on_plug`. -/
inductive OnPlug
  /-- No library, or none with an `on_plug`. -/
  | missing
  | stops (stop : Stop)
  | plugged (catalog : Catalog)
  deriving DecidableEq, Repr

/-- A file that is not there is empty; `notJson` is one that the JSON library
rejects. -/
inductive ConfigFile
  | text (content : List Char)
  | json (root : Json)
  | notJson

def ConfigFile.load : ConfigFile → Except LoadExn Tree
  | .text content => Tree.load content
  | .json root => Tree.loadJson root
  | .notJson => Tree.load []

/-- A device on libusb's list. -/
structure UsbDevice where
  descriptor : LibusbDeviceDescriptor
  libusbOpen : I32
  /-- The interfaces of the active configuration, if there is one to be read. -/
  bNumInterfaces : Option U8
  libusbClaimInterface : U8 → I32

/-- Without an active configuration there is no pointer to count its interfaces by. -/
def UsbDevice.countInterfaces (dev : UsbDevice) : Except Stop U8 :=
  match dev.bNumInterfaces with
  | some n => .ok n
  | none => .error .undefined

def UsbDevice.openCloned (dev : UsbDevice) : Except Stop I32 :=
  if dev.libusbOpen = LIBUSB_SUCCESS then
    dev.countInterfaces.map fun n => forInterfaces dev.libusbClaimInterface 0 n.toNat LIBUSB_ERROR_OTHER
  else .ok dev.libusbOpen

/-- libusb, and the list of devices or the error in its place. -/
structure Libusb where
  init : I32
  deviceList : Except I32 (List UsbDevice)

/-- What the n-th device of a command meets. -/
structure Thread where
  /-- How the constructor of `proxy` ends. -/
  construct : Except Exn Unit
  /-- The driver's copy of the ports, and the ports when it attaches. -/
  devices : List Driver.VirtualDevice
  ports : List Vhci.Port
  /-- `attach` runs before the command is over. -/
  early : Bool

structure World (π : Type) where
  onPlug : String → OnPlug
  /-- The object a factory of a catalog makes for the n-th device, which may be null, or
  how it ends instead: `Name##_create` is `noexcept`, so a constructor that throws
  ends the daemon there, and the pointer that was registered may itself be null. -/
  factory : String → String → ℕ → Except Stop (Option π)
  config : String → ConfigFile
  libusb : Libusb
  thread : ℕ → Thread
  /-- The text that Boost prints for the options of a subcommand. -/
  usage : String → String

/-! ### The service -/

structure DeviceInfo (π : Type) where
  vid : U32
  pid : U32
  /-- The plugin behind the proxy. -/
  plugin : Option π
  deriving DecidableEq, Repr

structure State (π : Type) where
  plugins : String → Option Catalog
  virtualDevices : BitVec 64 → Option (DeviceInfo π)
  deviceIdCounter : BitVec 64

def State.init (π : Type) : State π := ⟨fun _ => none, fun _ => none, 0⟩

abbrev Act (π : Type) := EStateM Stop (State π)

variable {π : Type} (w : World π)

def UsbDevice.isMatch (vid pid : U32) (dev : UsbDevice) : Bool :=
  vid = dev.descriptor.idVendor.setWidth 32 ∧ pid = dev.descriptor.idProduct.setWidth 32

/-- The loop over the devices that match, up to the first that opens. -/
def openFirst : List UsbDevice → I32 → Except Stop (Option LibusbDeviceDescriptor)
  | [], result => if result = LIBUSB_SUCCESS then .ok none else .error (.threw (failedToCreate result))
  | dev :: devs, _ =>
    match dev.openCloned with
    | .error stop => .error stop
    | .ok result => if result = LIBUSB_SUCCESS then .ok (some dev.descriptor) else openFirst devs result

/-- `usb::device(vid, pid)`: the descriptor of the device it has opened, none if no
device matches. -/
def Libusb.makeDevice (usb : Libusb) (vid pid : U32) : Except Stop (Option LibusbDeviceDescriptor) :=
  if usb.init ≠ LIBUSB_SUCCESS then .error (.threw (failedToCreate usb.init))
  else
    match usb.deviceList with
    | .error code => .error (.threw (failedToCreate code))
    | .ok [] => .error (.threw (failedToCreate LIBUSB_ERROR_NO_DEVICE))
    | .ok devs => openFirst (devs.filter (·.isMatch vid pid)) LIBUSB_SUCCESS

/-- `speed()`, 0 where nothing was opened. -/
def speed (descriptor : Option LibusbDeviceDescriptor) : U16 := (descriptor.map (·.bcdUSB)).getD 0

/-- Attaching throws. -/
def Thread.attachThrows (thread : Thread) (bcdUSB : U16) : Bool :=
  (Vhci.attach thread.ports thread.devices (bcdUSB.setWidth 32)).1 = .terminated

/-- `make_unique<proxy>`, and the thread it starts. -/
def Thread.makeProxy (thread : Thread) (bcdUSB : U16) : Except Stop Unit :=
  match thread.construct with
  | .error e => .error (.threw e)
  | .ok () => if thread.early && thread.attachThrows bcdUSB then .error .terminated else .ok ()

/-! ### The registers -/

def plugins : Act π (String → Option Catalog) := fun s => .ok s.plugins s

def addPlugin (name : String) (catalog : Catalog) : Act π Unit := fun s =>
  .ok () { s with plugins := Function.update s.plugins name (some catalog) }

def fetchAdd : Act π (BitVec 64) := fun s =>
  .ok s.deviceIdCounter { s with deviceIdCounter := s.deviceIdCounter + 1 }

/-- `virtual_devices_.emplace`; an id that is taken stays as it is. -/
def emplace (id : BitVec 64) (info : DeviceInfo π) : Act π Unit := fun s =>
  .ok () { s with virtualDevices :=
    Function.update s.virtualDevices id (some ((s.virtualDevices id).getD info)) }

def lift {α : Type} (x : Except Stop α) : Act π α :=
  match x with
  | .ok a => pure a
  | .error e => throw e

def printCatalogInfo (catalog : Catalog) : String :=
  "Catalog Information:\n" ++ "  Name: " ++ catalog.name ++ "\n" ++ "  Version: " ++ catalog.version ++ "\n" ++
    "  Number of devices: " ++ toString catalog.entries.length ++ "\n" ++
    String.join (catalog.entries.mapIdx fun n name => "    Device " ++ toString n ++ ": " ++ name ++ "\n")

/-- Loads a catalog that is not registered. Without an `on_plug` the call goes through
a null pointer. -/
def registerCatalog (name : String) : Act π (Except Error Catalog) := do
  let registered ← plugins
  if (registered name).isSome then
    return .error ⟨.catalog, 1, "Catalog " ++ name ++ " already registered"⟩
  else
    match w.onPlug name with
    | .missing => throw .undefined
    | .stops stop => throw stop
    | .plugged catalog =>
      addPlugin name catalog
      return .ok catalog

/-- A device of a catalog, made by its factory for the n-th time in a command. -/
def device (n : ℕ) (catalogName deviceName : String) : Act π (Except Error (Option π)) := do
  let registered ← plugins
  match registered catalogName with
  | none => return .error ⟨.catalog, 0, ""⟩
  | some catalog =>
    if deviceName ∈ catalog.entries then
      let plugin ← lift (w.factory catalogName deviceName n)
      return .ok plugin
    else return .error ⟨.catalog, 0, ""⟩

/-- `*vd`, behind an assertion that logs. -/
def deref (vd : Except Error (Option π)) : Act π (Option π) :=
  match vd with
  | .ok plugin => pure plugin
  | .error _ => throw .undefined

def createMockDeviceFromCatalog (n : ℕ) (catalogPath deviceName : String) (devDesc : Tree) : Act π Unit := do
  let vd ← device w n catalogPath deviceName
  let plugin ← deref vd
  let id ← fetchAdd
  lift ((w.thread n).makeProxy devDesc.deviceDescriptor.bcdUSB)
  emplace id ⟨devDesc.deviceDescriptor.idVendor.setWidth 32, devDesc.deviceDescriptor.idProduct.setWidth 32, plugin⟩

def createProxyDeviceFromCatalog (vid pid : U32) (catalogPath deviceName : String) : Act π Unit := do
  let vd ← device w 0 catalogPath deviceName
  let plugin ← deref vd
  let dev ← lift (w.libusb.makeDevice vid pid)
  let id ← fetchAdd
  lift ((w.thread 0).makeProxy (speed dev))
  emplace id ⟨vid, pid, plugin⟩

/-- The loop of `app_mock` over the names from the n-th on. -/
def createMockDevices (catalogPath : String) (devDesc : Tree) : ℕ → List String → Act π Unit
  | _, [] => pure ()
  | n, name :: names => do
    createMockDeviceFromCatalog w n catalogPath name devDesc
    createMockDevices catalogPath devDesc (n + 1) names

/-- `device_name(0)` of a catalog without devices is past the end. -/
def deviceName (catalog : Catalog) (n : ℕ) : Act π String :=
  match catalog.entries[n]? with
  | some name => pure name
  | none => throw .undefined

def appProxy (vid pid : U32) (catalogPath : String) : Act π Response :=
  if catalogPath = "" then do
    let dev ← lift (w.libusb.makeDevice vid pid)
    let id ← fetchAdd
    lift ((w.thread 0).makeProxy (speed dev))
    emplace id ⟨vid, pid, none⟩
    return .success "Proxy device created successfully"
  else do
    match ← registerCatalog w catalogPath with
    | .error e => return .failure e.message e
    | .ok catalog =>
      let name ← deviceName catalog 0
      createProxyDeviceFromCatalog w vid pid catalogPath name
      return .success (printCatalogInfo catalog ++ "Proxy device created successfully using '" ++ catalog.name ++
        "' interface\n")

def load (path : String) : Act π Tree := lift ((w.config path).load.mapError .badConfig)

def appMock (deviceConfigPath catalogPath : String) : Act π Response := do
  let devDesc ← load w deviceConfigPath
  match ← registerCatalog w catalogPath with
  | .error e => return .failure e.message e
  | .ok catalog =>
    createMockDevices w catalogPath devDesc 0 catalog.entries
    return .success (printCatalogInfo catalog ++ "Mock devices started successfully\n")

def appPlug (configPath catalogPath deviceName : String) : Act π Response := do
  let devDesc ← load w configPath
  createMockDeviceFromCatalog w 0 catalogPath deviceName devDesc
  return .success ("Device '" ++ deviceName ++ "' plugged successfully\n")

/-! ### The commands -/

/-- The options of a command line. -/
structure VariablesMap where
  help : Bool
  device : Option (U32 × U32)
  config : Option String
  catalog : Option String
  deviceName : Option String
  deriving DecidableEq, Repr

def VariablesMap.count (vm : VariablesMap) (option : String) : Bool :=
  if option = "help" then vm.help
  else if option = "device" then vm.device.isSome
  else if option = "config" then vm.config.isSome
  else if option = "catalog" then vm.catalog.isSome
  else if option = "device-name" then vm.deviceName.isSome
  else false

/-- What Boost makes of the arguments. -/
inductive Args
  | parsed (vm : VariablesMap)
  | unknownOption
  | throws (e : Exn)
  deriving DecidableEq, Repr

/-- An unknown option is caught, and leaves no options. -/
def parseCommand : Args → Except Exn VariablesMap
  | .parsed vm => .ok vm
  | .unknownOption => .ok ⟨false, none, none, none, none⟩
  | .throws e => .error e

def checkCliParams (usage : String) (vm : VariablesMap) (params : List String) : Except Error Unit :=
  let missing := params.filter fun p => !vm.count p
  if missing = [] then .ok ()
  else .error ⟨.cli, 0, String.join (missing.map fun p => "--" ++ p ++ " is required\n") ++ "Usage:\n" ++ usage⟩

/-- Parse, answer `--help`, check the options and go on. -/
def runCommand (usage : String) (params : List String) (app : VariablesMap → Act π Response) (args : Args) :
    Act π Response := do
  let vm ← lift ((parseCommand args).mapError .threw)
  if vm.help then return .success usage
  else
    match checkCliParams usage vm params with
    | .error e => return .failure e.message e
    | .ok () => app vm

def runProxydevCommand (args : Args) : Act π Response :=
  runCommand (w.usage "proxydev") ["device"]
    (fun vm => appProxy w (vm.device.getD (0, 0)).1 (vm.device.getD (0, 0)).2 (vm.catalog.getD "")) args

def runMockCommand (args : Args) : Act π Response :=
  runCommand (w.usage "mock") ["config", "catalog"]
    (fun vm => appMock w (vm.config.getD "") (vm.catalog.getD "")) args

def runPlugCommand (args : Args) : Act π Response :=
  runCommand (w.usage "plug") ["config", "catalog", "device-name"]
    (fun vm => appPlug w (vm.config.getD "") (vm.catalog.getD "") (vm.deviceName.getD "")) args

inductive Command
  | proxydev (args : Args)
  | mock (args : Args)
  | plug (args : Args)
  deriving DecidableEq, Repr

def Command.run : Command → Act π Response
  | .proxydev args => runProxydevCommand w args
  | .mock args => runMockCommand w args
  | .plug args => runPlugCommand w args

/-- What becomes of a command in `handle_accept`. -/
inductive Outcome
  | responded (r : Response)
  /-- "Failed to execute command", and no response. -/
  | failed
  /-- The daemon is gone, or what it does is no longer defined. -/
  | lost
  deriving DecidableEq, Repr

def Outcome.succeeded : Outcome → Bool
  | .responded r => r.isSuccess
  | .failed | .lost => false

def Outcome.running : Outcome → Bool
  | .responded _ | .failed => true
  | .lost => false

def execute (cmd : Command) (s : State π) : Outcome × State π :=
  match cmd.run w s with
  | .ok r s' => (.responded r, s')
  | .error stop s' => (if stop.caught then .failed else .lost, s')

end Daemon
end Viu
