/-
# The ports of the kernel

The virtual host controller has a high speed and a super speed hub, with ports
that it lists in the order of their numbers. A write to the `attach` attribute
names a port and a speed; the kernel takes it when the port is on the hub of
that speed and is free, and refuses it otherwise.
-/
import Viu.Usbip

namespace Viu
namespace Vhci

inductive HubSpeed
  | high
  | super
  deriving DecidableEq, Repr

inductive UsbDeviceSpeed
  | unknown
  | low
  | full
  | high
  | wireless
  | super
  | superPlus
  deriving DecidableEq, Repr

/-- The VDEV_ST_ values of `usbip_device_status`. -/
inductive VdevStatus
  | null
  | notAssigned
  | used
  | error
  deriving DecidableEq, Repr

/-- A port of the kernel's table, which lists them in the order of their numbers. -/
structure Port where
  hub : HubSpeed
  status : VdevStatus
  deriving DecidableEq, Repr

def toSpeedEnum (bcdVersion : U16) : Except Exn UsbDeviceSpeed :=
  match bcdVersion with
  | 0x0100#16 | 0x0101#16 | 0x0110#16 => .ok .full
  | 0x0200#16 | 0x0201#16 | 0x0210#16 => .ok .high
  | 0x0300#16 => .ok .super
  | 0x0310#16 | 0x0320#16 => .ok .superPlus
  | _ => .error (.runtimeError
      ("Unsupported bcd usb version: " ++ String.ofList (Nat.toDigits 16 bcdVersion.toNat)))

def hubSpeed (speed : UsbDeviceSpeed) : HubSpeed :=
  if speed = .super ∨ speed = .superPlus then .super else .high

/-- Free for a device of this speed. -/
def Port.Free (speed : UsbDeviceSpeed) (p : Port) : Prop := p.hub = hubSpeed speed ∧ p.status = .null

instance (speed : UsbDeviceSpeed) (p : Port) : Decidable (p.Free speed) := inferInstanceAs (Decidable (_ ∧ _))

/-- Port `n` is free. -/
def FreeAt (speed : UsbDeviceSpeed) (ports : List Port) (n : ℕ) : Prop :=
  ∃ p, ports[n]? = some p ∧ p.Free speed

instance (speed : UsbDeviceSpeed) (ports : List Port) (n : ℕ) : Decidable (FreeAt speed ports n) :=
  decidable_of_iff (∃ p ∈ ports[n]?, p.Free speed) (by simp [FreeAt])

/-- The kernel's side of a write to the `attach` attribute: `none` is a refusal. -/
def attachStore (ports : List Port) (port : U8) (speed : UsbDeviceSpeed) : Option (List Port) :=
  ports[port.toNat]?.bind fun p =>
    if p.Free speed then some (ports.set port.toNat { p with status := .notAssigned }) else none

/-- `attach_device`: the write names no speed above USB_SPEED_SUPER. -/
def attachDevice (ports : List Port) (port : U8) (speed : UsbDeviceSpeed) : Option (List Port) :=
  attachStore ports port (if speed = .superPlus then .super else speed)

variable {ports ports' : List Port} {port : U8} {speed : UsbDeviceSpeed}

/-- The kernel takes the write exactly for a free port, which is then no longer
free. -/
theorem attachStore_eq_some (h : attachStore ports port speed = some ports') :
    FreeAt speed ports port.toNat ∧ ports'.length = ports.length ∧
      ∀ q, FreeAt speed ports' q ↔ FreeAt speed ports q ∧ q ≠ port.toNat := by
  obtain ⟨p, hp, hfree⟩ := Option.bind_eq_some_iff.mp h
  by_cases hf : p.Free speed
  · rw [if_pos hf] at hfree
    cases hfree
    refine ⟨⟨p, hp, hf⟩, List.length_set, fun q => ?_⟩
    have hlt : port.toNat < ports.length := (List.getElem?_eq_some_iff.mp hp).1
    by_cases hq : q = port.toNat
    · subst hq
      refine iff_of_false ?_ fun h => h.2 rfl
      rintro ⟨p', hp', -, hnull⟩
      rw [List.getElem?_set_self hlt] at hp'
      cases hp'
      cases hnull
    · simp only [FreeAt, List.getElem?_set_ne (Ne.symm hq), ne_eq, hq, not_false_eq_true, and_true]
  · rw [if_neg hf] at hfree
    cases hfree

/-- The speed that is written has the same hub. -/
theorem attachDevice_eq (ports : List Port) (port : U8) (speed : UsbDeviceSpeed) :
    attachDevice ports port speed = attachStore ports port speed := by
  unfold attachDevice
  by_cases hs : speed = .superPlus
  · subst hs
    rfl
  · rw [if_neg hs]

theorem attachStore_of_free (h : FreeAt speed ports port.toNat) :
    ∃ ports', attachStore ports port speed = some ports' := by
  obtain ⟨p, hp, hf⟩ := h
  exact ⟨_, by rw [attachStore, hp, Option.bind_some, if_pos hf]⟩

end Vhci
end Viu
