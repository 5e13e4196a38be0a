/-
# Selectors of a descriptor request

A GET_DESCRIPTOR names what it wants: a configuration by its index, a report
descriptor by its interface. The tree has captured one of each, the
configuration active when the device was opened and the report descriptor of
interface 0, and both packing functions ignore the selector. The selector is
honoured exactly when what it selects and what was captured agree in the bytes
asked for (`selector_iff`).
-/
import Viu.LocalReplies
import Viu.Open

namespace Viu

open Bytes

variable {E : Order} {io : Io} {dev : LibusbDevice} {cmd : Command}

/-- A GET_DESCRIPTOR of a configuration or a report descriptor. -/
structure AsksSelected (E : Order) (cmd : Command) : Prop where
  isSubmit : cmd.isSubmit = true
  isIn : cmd.isIn = true
  inRequest : cmd.inRequest E = .getDescriptor
  type : typeFromValue (cmd.controlSetup E).wValue = LIBUSB_DT_CONFIG ∨
    typeFromValue (cmd.controlSetup E).wValue = LIBUSB_DT_REPORT

namespace LibusbDevice

/-- What the device has under the request's selector: the configuration of that
index, or the report descriptor of the interface in wIndex. -/
def selected (E : Order) (dev : LibusbDevice) (cmd : Command) : Option (List U8) :=
  let setup := cmd.controlSetup E
  if typeFromValue setup.wValue = LIBUSB_DT_CONFIG then
    (dev.configurations[(indexFromValue setup.wValue).toNat]?).map Config.pack
  else dev.reports setup.wIndex

/-- What was captured when the device was opened: the active configuration, or
4096 bytes of the report descriptor of interface 0. -/
def captured (E : Order) (dev : LibusbDevice) (cmd : Command) : List U8 :=
  if typeFromValue (cmd.controlSetup E).wValue = LIBUSB_DT_CONFIG then dev.activeConfig.pack
  else ((dev.reports 0).map (·.take 4096)).getD []

/-- The proxy's device answers the request with what it selects, up to wLength, and
fails if there is no such descriptor. -/
def HonoursSelector (E : Order) (io : Io) (dev : LibusbDevice) (d : Device) (cmd : Command) : Prop :=
  match dev.selected E cmd with
  | some packed => Replies E io d cmd 0 (packed.take (cmd.controlSetup E).wLength.toNat)
  | none => ∃ status payload, Replies E io d cmd status payload ∧ status ≠ 0

/-- What is selected was captured, as far as it is asked for; what does not exist
was not captured either. -/
def CapturedSelected (E : Order) (dev : LibusbDevice) (cmd : Command) : Prop :=
  match dev.selected E cmd with
  | some packed => dev.captured E cmd ≠ [] ∧
      (dev.captured E cmd).take (cmd.controlSetup E).wLength.toNat =
        packed.take (cmd.controlSetup E).wLength.toNat
  | none => dev.captured E cmd = []

/-- Whatever the selector, the answer is what was captured; status 1 if that is
nothing. -/
theorem replies_captured (h : AsksSelected E cmd) : Replies E io (Device.opened E dev) cmd
    (if (dev.captured E cmd).isEmpty then 1 else 0)
    ((dev.captured E cmd).take (cmd.controlSetup E).wLength.toNat) := by
  have hne : LIBUSB_DT_CONFIG ≠ LIBUSB_DT_DEVICE := by decide
  have hne' : LIBUSB_DT_REPORT ≠ LIBUSB_DT_DEVICE ∧ LIBUSB_DT_REPORT ≠ LIBUSB_DT_CONFIG ∧
      LIBUSB_DT_REPORT ≠ LIBUSB_DT_BOS := by decide
  rcases h.type with ht | ht
  · have hpacked : (Device.opened E dev).packedAlone (typeFromValue (cmd.controlSetup E).wValue) =
        some dev.activeConfig.pack := by
      simp only [Device.packedAlone, ht, hne, ↓reduceIte]
      rfl
    apply replies_descriptor h.isSubmit h.isIn h.inRequest hpacked
    simp only [captured, Device.packedFor, ht, hne, ↓reduceIte]
  · have hpacked : (Device.opened E dev).packedAlone (typeFromValue (cmd.controlSetup E).wValue) =
        some (((dev.reports 0).map (·.take 4096)).getD []) := by
      simp only [Device.packedAlone, ht, hne', ↓reduceIte]
      rfl
    apply replies_descriptor h.isSubmit h.isIn h.inRequest hpacked
    simp only [captured, Device.packedFor, ht, hne', ↓reduceIte]

/-- **Selectors**: of a device that has been opened, a request is answered with what it
selects exactly when that was captured. -/
theorem selector_iff {libusbOpen : I32} {libusbClaimInterface : U8 → I32} {d : Device}
    (ho : Device.open E dev libusbOpen libusbClaimInterface = .ok d) (h : AsksSelected E cmd) :
    HonoursSelector E io dev d cmd ↔ CapturedSelected E dev cmd := by
  have hreplies : Replies E io d cmd _ _ := Device.eq_opened ho ▸ replies_captured h
  unfold HonoursSelector CapturedSelected
  by_cases hnil : dev.captured E cmd = []
  · -- the answer is a failure
    have hempty : (dev.captured E cmd).isEmpty = true := by simp [hnil]
    rw [if_pos hempty] at hreplies
    cases dev.selected E cmd with
    | some packed =>
      refine iff_of_false (fun hok => ?_) fun hok => hok.1 hnil
      exact absurd (hreplies.unique hok).1 (by decide)
    | none => exact iff_of_true ⟨_, _, hreplies, by decide⟩ hnil
  · have hempty : ¬ (dev.captured E cmd).isEmpty = true := by simpa using hnil
    rw [if_neg hempty] at hreplies
    cases dev.selected E cmd with
    | some packed =>
      constructor
      · exact fun hok => ⟨hnil, (hreplies.unique hok).2⟩
      · rintro ⟨-, heq⟩
        rwa [heq] at hreplies
    | none =>
      refine iff_of_false ?_ hnil
      rintro ⟨status, payload, hfail, hstatus⟩
      exact hstatus (hreplies.unique hfail).1.symm

end LibusbDevice

/-- GET_DESCRIPTOR of configuration `k`, in 9 bytes. -/
def getConfiguration (k : U8) : Command := .control USBIP_DIR_IN #v[0x80, 6, k, 2, 0, 0, 9, 0] 9

/-- A device with two configurations, the first active. -/
def twoConfigurations : LibusbDevice :=
  { LibusbDevice.plain with
    deviceDescriptor := ⟨18, 1, 0x200, 0, 0, 0, 64, 0, 0, 0, 0, 0, 0, 2⟩
    configurations := [.oneInterface 1 0x80, .oneInterface 2 0xc0]
    activeConfig_mem := List.mem_cons_self
    bNumConfigurations_eq := rfl }

theorem open_twoConfigurations : Device.open .little twoConfigurations LIBUSB_SUCCESS (fun _ => LIBUSB_SUCCESS) =
    .ok (.opened .little twoConfigurations) := rfl

theorem getConfiguration_asks : AsksSelected .little (getConfiguration 0) ∧
    AsksSelected .little (getConfiguration 1) := by
  refine ⟨⟨rfl, rfl, ?_, .inl ?_⟩, ⟨rfl, rfl, ?_, .inl ?_⟩⟩ <;> decide +kernel

/-- Configuration 1 is answered with configuration 0. -/
theorem selector_ignored : ¬ ∀ (dev : LibusbDevice) (d : Device) (cmd : Command),
    Device.open .little dev LIBUSB_SUCCESS (fun _ => LIBUSB_SUCCESS) = .ok d → AsksSelected .little cmd →
    LibusbDevice.HonoursSelector .little Io.silent dev d cmd := by
  intro h
  have hhonours := h twoConfigurations _ (getConfiguration 1) open_twoConfigurations getConfiguration_asks.2
  have hcaptured : Replies .little Io.silent (.opened .little twoConfigurations) (getConfiguration 1) _ _ :=
    LibusbDevice.replies_captured getConfiguration_asks.2
  exact absurd (hcaptured.unique hhonours).2 (by decide +kernel)

theorem selector_active : LibusbDevice.HonoursSelector .little Io.silent twoConfigurations
    (.opened .little twoConfigurations) (getConfiguration 0) :=
  (LibusbDevice.selector_iff open_twoConfigurations getConfiguration_asks.1).mpr ⟨by decide +kernel, rfl⟩

end Viu
