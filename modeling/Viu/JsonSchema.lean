/-
# The schema of JSON configurations

The files of `json/schema`, keyword by keyword. A byte or a word is written as
an integer in range or as a hexadecimal string (`usbByte`, `usbWord`). A
`Document` is a JSON text that the schema allows, by the value it stands for.
-/
import Viu.Json

namespace Viu

open Bytes Text Tokens Json Json.Schema

namespace Schema

/-! ### types.schema.json -/

def isHexDigit (c : Char) : Bool := digitValue c < 16

/-- `^0[xX][0-9a-fA-F]{1,n}$` -/
def hex (n : ℕ) (s : String) : Bool :=
  match s.toList with
  | '0' :: x :: ds => (x = 'x' ∨ x = 'X') ∧ ds ≠ [] ∧ ds.length ≤ n ∧ ds.all isHexDigit
  | _ => false

/-- An integer up to `max`, or a hexadecimal number of at most `digits` digits. -/
def usbNumber (max digits : ℕ) : Schema :=
  oneOf [allOf [integer, minimum 0, maximum max], allOf [isString, pattern (hex digits)]]

def usbByte : Schema := usbNumber 255 2
def usbWord : Schema := usbNumber 65535 4
def usbDWord : Schema := usbNumber 4294967295 8
def daUsbBytes : Schema := arrayOf usbByte

/-! ### The descriptors -/

def endpointCompanionFields : List (String × Schema) :=
  [("bLength", usbByte), ("bDescriptorType", usbByte), ("bMaxBurst", usbByte), ("bmAttributes", usbByte),
    ("wBytesPerInterval", usbWord)]

def endpointCompanion : Schema := closed endpointCompanionFields (endpointCompanionFields.map (·.1))

def endpointDescriptorFields : List (String × Schema) :=
  [("bLength", usbByte), ("bDescriptorType", usbByte), ("bEndpointAddress", usbByte), ("bmAttributes", usbByte),
    ("wMaxPacketSize", usbWord), ("bInterval", usbByte), ("bRefresh", usbByte), ("bSynchAddress", usbByte)]

def endpointDescriptor : Schema :=
  closed endpointDescriptorFields
    ["bLength", "bDescriptorType", "bEndpointAddress", "bmAttributes", "wMaxPacketSize", "bInterval"]

def endpointFields : List (String × Schema) :=
  [("Endpoint Descriptor", endpointDescriptor), ("Endpoint Companion", endpointCompanion), ("daExtra", daUsbBytes)]

def endpoint : Schema := closed endpointFields ["Endpoint Descriptor"]

def interfaceDescriptorFields : List (String × Schema) :=
  [("bLength", usbByte), ("bDescriptorType", usbByte), ("bInterfaceNumber", usbByte), ("bAlternateSetting", usbByte),
    ("bNumEndpoints", usbByte), ("bInterfaceClass", usbByte), ("bInterfaceSubClass", usbByte),
    ("bInterfaceProtocol", usbByte), ("iInterface", usbByte), ("aofEndpoints", arrayOf endpoint),
    ("daExtra", daUsbBytes)]

def interfaceDescriptor : Schema :=
  closed interfaceDescriptorFields
    ["bLength", "bDescriptorType", "bInterfaceNumber", "bAlternateSetting", "bNumEndpoints", "bInterfaceClass",
      "bInterfaceSubClass", "bInterfaceProtocol", "iInterface", "aofEndpoints"]

def interfaceFields : List (String × Schema) := [("Interface Descriptor", interfaceDescriptor)]

def interface : Schema := closed interfaceFields ["Interface Descriptor"]

def altsettingFields : List (String × Schema) := [("aofInterfaces", arrayOf interface)]

def altsetting : Schema := closed altsettingFields ["aofInterfaces"]

def configurationDescriptorFields : List (String × Schema) :=
  [("bLength", usbByte), ("bDescriptorType", usbByte), ("wTotalLength", usbWord),
    ("bNumInterfaces", allOf [usbByte, minimum 1]), ("bConfigurationValue", usbByte), ("iConfiguration", usbByte),
    ("bmAttributes", usbByte), ("MaxPower", usbByte), ("aofAltsettings", arrayOf altsetting)]

def configurationDescriptor : Schema :=
  closed configurationDescriptorFields (configurationDescriptorFields.map (·.1))

def configurationFields : List (String × Schema) :=
  [("Configuration Descriptor", configurationDescriptor), ("daExtra", daUsbBytes)]

def configuration : Schema := closed configurationFields ["Configuration Descriptor"]

def stringDescriptorFields : List (String × Schema) :=
  [("bLength", usbByte), ("bDescriptorType", usbByte), ("string", fun v => isString v || isArray v)]

def stringDescriptor : Schema := closed stringDescriptorFields (stringDescriptorFields.map (·.1))

def stringEntryFields : List (String × Schema) := [("StringDescriptor", stringDescriptor)]

def stringEntry : Schema := closed stringEntryFields ["StringDescriptor"]

def languageFields : List (String × Schema) := [("wLanguageId", usbWord), ("aofStrings", arrayOf stringEntry)]

def language : Schema := closed languageFields ["wLanguageId", "aofStrings"]

def usb2ExtensionFields : List (String × Schema) := [("bmAttributes", usbDWord)]

def usb2Extension : Schema := closed usb2ExtensionFields ["bmAttributes"]

def superspeedUsbFields : List (String × Schema) :=
  [("bmAttributes", usbByte), ("wSpeedSupported", usbWord), ("bFunctionalitySupport", usbByte),
    ("bU1DevExitLat", usbByte), ("bU2DevExitLat", usbWord)]

def superspeedUsb : Schema := closed superspeedUsbFields (superspeedUsbFields.map (·.1))

def bosDevcapFields : List (String × Schema) :=
  [("bLength", usbByte), ("bDescriptorType", usbByte), ("bDevCapabilityType", usbByte),
    ("USB 2.0 Extension", usb2Extension), ("SuperSpeed USB", superspeedUsb), ("daDevCapability", daUsbBytes)]

/-- `"bDevCapabilityType"` is there and is `n`. -/
def hasCapabilityType (n : ℚ) : Schema :=
  allOf [properties [("bDevCapabilityType", const n)], required ["bDevCapabilityType"]]

def anything : Schema := fun _ => true

/-- The one object that may have other properties. -/
def bosDevcap : Schema :=
  allOf [isObject, properties bosDevcapFields, required ["bLength", "bDescriptorType", "bDevCapabilityType"],
    ifThenElse (hasCapabilityType 2)
      (allOf [required ["USB 2.0 Extension"], not (required ["SuperSpeed USB", "daDevCapability"])])
      (ifThenElse (hasCapabilityType 3)
        (allOf [required ["SuperSpeed USB"], not (required ["USB 2.0 Extension", "daDevCapability"])])
        anything)]

def bosFields : List (String × Schema) :=
  [("bLength", usbByte), ("bDescriptorType", usbByte), ("wTotalLength", usbWord), ("bNumDeviceCaps", usbByte),
    ("aofDeviceCaps", arrayOf bosDevcap)]

def bos : Schema := closed bosFields (bosFields.map (·.1))

def deviceDescriptorFields : List (String × Schema) :=
  [("bLength", usbByte), ("bDescriptorType", usbByte), ("bcdUSB", usbWord), ("bDeviceClass", usbByte),
    ("bDeviceSubClass", usbByte), ("bDeviceProtocol", usbByte), ("bMaxPacketSize0", usbByte), ("idVendor", usbWord),
    ("idProduct", usbWord), ("bcdDevice", usbWord), ("iManufacturer", usbByte), ("iProduct", usbByte),
    ("iSerial", usbByte), ("bNumConfigurations", allOf [usbByte, minimum 1]),
    ("aofConfigurations", arrayOf configuration)]

def deviceDescriptor : Schema := closed deviceDescriptorFields (deviceDescriptorFields.map (·.1))

def deviceFields : List (String × Schema) :=
  [("Device Descriptor", deviceDescriptor), ("aofStringDescriptors", arrayOf language),
    ("daReportDescriptor", daUsbBytes), ("BOS Descriptor", bos)]

/-- No section is required. -/
def device : Schema := closed deviceFields []

def rootFields : List (String × Schema) := [("aofDevices", arrayOf device)]

def root : Schema := closed rootFields ["aofDevices"]

end Schema

/-! ### Documents -/

/-- The most elements the JSON library puts in an array or an object. -/
def maxStructuredSize : ℕ := 0x7ffffffe

/-- What the JSON library can make of one value: the kind of an integer tells its
range, and the members of an object have different names. -/
def parsedNode : Json → Bool
  | int64 n => -2 ^ 63 ≤ n ∧ n < 2 ^ 63
  | uint64 n => 2 ^ 63 ≤ n ∧ n < 2 ^ 64
  | array vs => vs.length ≤ maxStructuredSize
  | object ms => ms.length ≤ maxStructuredSize ∧ (ms.map (·.1)).Nodup
  | _ => true

def notDouble : Json → Bool
  | double _ => false
  | _ => true

/-- A JSON text, by the value it stands for, valid under the schema. How deep it may be
nested the schema does not say: `jsonParse` does. -/
structure Document where
  root : Json
  parsed : root.all parsedNode = true
  valid : Schema.root root = true

end Viu
