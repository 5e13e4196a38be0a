/-
# A plugin without handlers

`REGISTER_USB_MOCK` installs every hook of the plugin ABI; the hook of a
handler that the class lacks falls back on a value of its own (`dispatch_*`).
The device combines each hook's result with its own by a rule of its own: of
a real device `set_configuration` and `set_interface` ignore it, the transfer
hooks return nothing, and `submit_control_setup` puts it in the place of the
device's.

So a class without handlers is seen exactly in the control setups that the
device itself does not answer with LIBUSB_ERROR_NOT_SUPPORTED
(`empty_plugin_iff`).
-/
import Viu.Held

namespace Viu

open Bytes

variable {E : Order} {io : Io} {d : Device}

/-- A handler of a control setup: its result, `none` when it throws, and the buffer
it leaves. -/
structure SetupHandler where
  call : LibusbControlSetup → List U8 → I32 → Option I32 × List U8
  length_eq : ∀ setup data result, (call setup data result).2.length = data.length

/-- A class registered with `REGISTER_USB_MOCK`: the handlers it defines. A transfer
handler leaves the transfer it is given, also when it throws. -/
structure UsbMock where
  onTransferRequest : Option (LibusbTransfer → LibusbTransfer)
  onTransferComplete : Option (LibusbTransfer → LibusbTransfer)
  onControlSetup : Option SetupHandler
  onSetConfiguration : Option (U8 → Option I32)
  onSetInterface : Option (U8 → U8 → Option I32)

/-- A class that defines none. -/
def UsbMock.empty : UsbMock := ⟨none, none, none, none, none⟩

namespace UsbMock

variable (T : UsbMock)

def dispatchTransferRequest (xfer : LibusbTransfer) : LibusbTransfer :=
  match T.onTransferRequest with
  | some f => f xfer
  | none => xfer

def dispatchTransferComplete (xfer : LibusbTransfer) : LibusbTransfer :=
  match T.onTransferComplete with
  | some f => f xfer
  | none => xfer

def dispatchControlSetup : BufferCall :=
  match T.onControlSetup with
  | some f =>
    { call := fun s data result => ((f.call s data result).1.getD LIBUSB_ERROR_OTHER, (f.call s data result).2)
      length_eq := f.length_eq }
  | none => { call := fun _ data _ => (LIBUSB_ERROR_NOT_SUPPORTED, data), length_eq := fun _ _ _ => rfl }

def dispatchSetConfiguration (index : U8) : I32 :=
  match T.onSetConfiguration with
  | some f => (f index).getD LIBUSB_ERROR_OTHER
  | none => LIBUSB_ERROR_NOT_SUPPORTED

def dispatchSetInterface (interface altSetting : U8) : I32 :=
  match T.onSetInterface with
  | some f => (f interface altSetting).getD LIBUSB_ERROR_OTHER
  | none => LIBUSB_ERROR_NOT_SUPPORTED

end UsbMock

/-- The hooks behind `mock_iface_`: all those of a registered class, none without
a plugin. -/
def Io.withPlugin (io : Io) : Option UsbMock → Io
  | none => { io with onControlSetup := none, onSetConfiguration := none, onSetInterface := none }
  | some T => { io with
      onControlSetup := some T.dispatchControlSetup
      onSetConfiguration := some T.dispatchSetConfiguration
      onSetInterface := some T.dispatchSetInterface }

/-- `submit_transfer_impl` of a real device: the transfer that is submitted. -/
def submitTransferImpl (plugin : Option UsbMock) (xfer : LibusbTransfer) : LibusbTransfer :=
  match plugin with
  | none => xfer
  | some T => T.dispatchTransferRequest xfer

/-- `device::on_transfer_completed`: the hook, then the pending map. -/
def onTransferCompleted (E : Order) (plugin : Option UsbMock) (callback : Callback) (xfer : LibusbTransfer) :
    Option Proxy.Completion :=
  match plugin with
  | none => Proxy.onTransferCompletedImpl E callback xfer
  | some T => Proxy.onTransferCompletedImpl E callback (T.dispatchTransferComplete xfer)

/-- A call on `usb::device`, or a completion; each with what libusb answers during
it. -/
inductive DeviceCall
  | controlSetup (io : Io) (setup : LibusbControlSetup) (data : List U8)
  | setConfiguration (io : Io) (index : U8)
  | setInterface (io : Io) (interface altSetting : U8)
  | submit (callback : Callback) (xfer : LibusbTransfer)
  | complete (k : ℕ) (xfer : LibusbTransfer)

/-- What the proxy gets of a call, and what libusb is given. -/
inductive Observed
  | data (result : Except I32 (List U8))
  | code (result : I32)
  | submitted (xfer : LibusbTransfer)
  | completed (completion : Option (Option Proxy.Completion))

/-- The device and its pending transfers. -/
structure Opened where
  dev : Device
  pending : List (Callback × LibusbTransfer)

def Opened.respond (E : Order) (plugin : Option UsbMock) (s : Opened) : DeviceCall → Observed × Opened
  | .controlSetup io setup data => (.data (s.dev.submitControlSetup (io.withPlugin plugin) setup data), s)
  | .setConfiguration io index => (.code (s.dev.setConfiguration (io.withPlugin plugin) index), s)
  | .setInterface io interface altSetting =>
    let (result, dev) := s.dev.setInterface (io.withPlugin plugin) interface altSetting
    (.code result, { s with dev := dev })
  | .submit callback xfer =>
    let xfer := submitTransferImpl plugin xfer
    (.submitted xfer, { s with pending := s.pending ++ [(callback, xfer)] })
  | .complete k xfer =>
    (.completed (s.pending[k]?.map fun p => onTransferCompleted E plugin p.1 xfer),
      { s with pending := s.pending.eraseIdx k })

/-- What a sequence of calls gives. -/
def Opened.observe (E : Order) (plugin : Option UsbMock) : Opened → List DeviceCall → List Observed
  | _, [] => []
  | s, c :: calls => (s.respond E plugin c).1 :: (s.respond E plugin c).2.observe E plugin calls

/-- The device itself answers a control setup with LIBUSB_ERROR_NOT_SUPPORTED. -/
def DeviceCall.Unsupported : DeviceCall → Prop
  | .controlSetup io setup data =>
    (io.libusbControlTransfer.call setup (resize data setup.wLength.toNat) LIBUSB_ERROR_NOT_SUPPORTED).1 =
      LIBUSB_ERROR_NOT_SUPPORTED
  | _ => True

/-- The hook's result stands for the device's, whatever that was. -/
theorem submitControlSetup_empty (hd : d.isMock = false) (setup : LibusbControlSetup) (data : List U8) :
    d.submitControlSetup (io.withPlugin (some .empty)) setup data = .error LIBUSB_ERROR_NOT_SUPPORTED := by
  have hneg : ¬ 0 ≤ LIBUSB_ERROR_NOT_SUPPORTED.toInt := by decide
  simp only [Device.submitControlSetup, Device.controlSetupResult, hd, Io.withPlugin, UsbMock.dispatchControlSetup,
    UsbMock.empty, hneg, ↓reduceIte]

theorem submitControlSetup_none_iff (hd : d.isMock = false) (setup : LibusbControlSetup) (data : List U8) :
    d.submitControlSetup (io.withPlugin none) setup data = .error LIBUSB_ERROR_NOT_SUPPORTED ↔
      (DeviceCall.controlSetup io setup data).Unsupported := by
  have hneg : ¬ 0 ≤ LIBUSB_ERROR_NOT_SUPPORTED.toInt := by decide
  simp only [Device.submitControlSetup, Device.controlSetupResult, hd, Io.withPlugin, DeviceCall.Unsupported,
    Bool.false_eq_true, ↓reduceIte]
  by_cases hpos : 0 ≤ (io.libusbControlTransfer.call setup (resize data setup.wLength.toNat)
      LIBUSB_ERROR_NOT_SUPPORTED).1.toInt
  · rw [if_pos hpos]
    refine iff_of_false (fun h => nomatch h) fun h => ?_
    rw [h] at hpos
    exact hneg hpos
  · rw [if_neg hpos, Except.error.injEq]

/-- One call: the plugin is seen only in what a control setup returns. -/
theorem respond_empty_iff {s : Opened} (hd : s.dev.isMock = false) (c : DeviceCall) :
    (s.respond E (some .empty) c).2 = (s.respond E none c).2 ∧
      ((s.respond E (some .empty) c).1 = (s.respond E none c).1 ↔ c.Unsupported) := by
  cases c with
  | controlSetup io setup data =>
    refine ⟨rfl, ?_⟩
    rw [← submitControlSetup_none_iff hd]
    simp only [Opened.respond, submitControlSetup_empty hd, Observed.data.injEq]
    exact eq_comm
  | setConfiguration io index =>
    have hsame : s.dev.setConfiguration (io.withPlugin (some .empty)) index =
        s.dev.setConfiguration (io.withPlugin none) index := by
      simp only [Device.setConfiguration, hd]
      rfl
    exact ⟨rfl, iff_of_true (congrArg Observed.code hsame) trivial⟩
  | setInterface io interface altSetting =>
    have hsame : s.dev.setInterface (io.withPlugin (some .empty)) interface altSetting =
        s.dev.setInterface (io.withPlugin none) interface altSetting := by
      simp only [Device.setInterface, Device.onSetInterface, hd]
      rfl
    simp only [Opened.respond, hsame]
    exact ⟨trivial, iff_of_true trivial trivial⟩
  | submit callback xfer => exact ⟨rfl, iff_of_true rfl trivial⟩
  | complete k xfer => exact ⟨rfl, iff_of_true rfl trivial⟩

/-- No call makes a mock of a real device. -/
theorem respond_isMock (plugin : Option UsbMock) (s : Opened) (c : DeviceCall) :
    (s.respond E plugin c).2.dev.isMock = s.dev.isMock := by
  cases c with
  | setInterface io interface altSetting =>
    show (s.dev.setInterface (io.withPlugin plugin) interface altSetting).2.isMock = s.dev.isMock
    unfold Device.setInterface
    dsimp only
    split_ifs <;> rfl
  | _ => rfl

/-- **An empty plugin** is transparent over a sequence of calls on a real device
exactly when the device answers none of the control setups with anything but
LIBUSB_ERROR_NOT_SUPPORTED. -/
theorem empty_plugin_iff {s : Opened} {calls : List DeviceCall} (hd : s.dev.isMock = false) :
    s.observe E (some .empty) calls = s.observe E none calls ↔ ∀ c ∈ calls, c.Unsupported := by
  induction calls generalizing s with
  | nil => simp [Opened.observe]
  | cons c calls ih =>
    obtain ⟨hnext, hseen⟩ := respond_empty_iff (E := E) hd c
    have hd' : (s.respond E none c).2.dev.isMock = false := by rw [respond_isMock]; exact hd
    rw [Opened.observe, Opened.observe, List.cons.injEq, hnext, hseen, ih hd', List.forall_mem_cons]

/-- A real device that answers control setups with one byte. -/
def realDevice : Device := { Device.mock [] with isMock := false }

def Io.oneByte : Io := { Io.silent with libusbControlTransfer := .oneByte }

/-- The device's answer to a control setup is lost. -/
theorem empty_plugin_seen : ¬ ∀ (s : Opened) (calls : List DeviceCall), s.dev.isMock = false →
    s.observe .little (some .empty) calls = s.observe .little none calls := by
  intro h
  have hsame := h ⟨realDevice, []⟩ [.controlSetup .oneByte ⟨0xc0, 1, 0, 0, 1⟩ []] rfl
  have hresult : (1 : I32) = LIBUSB_ERROR_NOT_SUPPORTED := (respond_empty_iff rfl _).2.mp (List.cons.inj hsame).1
  exact absurd hresult (by decide)

theorem empty_plugin_transfers : Opened.observe .little (some .empty) ⟨realDevice, []⟩
      [.setInterface .silent 0 1, .submit .inn (fillBulk ⟨0x81, [0, 0], .inn, none⟩),
        .complete 0 { fillBulk ⟨0x81, [0, 0], .inn, none⟩ with actualLength := 2 }] =
    Opened.observe .little none ⟨realDevice, []⟩
      [.setInterface .silent 0 1, .submit .inn (fillBulk ⟨0x81, [0, 0], .inn, none⟩),
        .complete 0 { fillBulk ⟨0x81, [0, 0], .inn, none⟩ with actualLength := 2 }] :=
  (empty_plugin_iff rfl).mpr (by simp [DeviceCall.Unsupported])

end Viu
