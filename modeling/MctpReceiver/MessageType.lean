import MctpReceiver.Text

/-!
# Message types

The low seven bits of the first byte of a message tell its type, the top bit whether the message
ends with an integrity check. A type is identified by its code alone: `unassigned c` may also be
written for a code that has a name, and `MessageType.ofCode` gives the name where there is one.
-/

namespace MctpReceiver

inductive MessageType where
  | control
  | pldm
  | ncSi
  | ethernet
  | nvmeMi
  | spdm
  | securedMessage
  | cxlFmApi
  | cxlCci
  /-- Defined by a vendor with a PCI number. -/
  | vendorDefinedPci
  /-- Defined by a vendor with an enterprise number. -/
  | vendorDefinedIana
  | unassigned (code : UInt8)
  deriving DecidableEq, Repr

namespace MessageType

def code : MessageType → UInt8
  | control => 0x00
  | pldm => 0x01
  | ncSi => 0x02
  | ethernet => 0x03
  | nvmeMi => 0x04
  | spdm => 0x05
  | securedMessage => 0x06
  | cxlFmApi => 0x07
  | cxlCci => 0x08
  | vendorDefinedPci => 0x7e
  | vendorDefinedIana => 0x7f
  | unassigned c => c

def assigned : List MessageType :=
  [control, pldm, ncSi, ethernet, nvmeMi, spdm, securedMessage, cxlFmApi, cxlCci,
    vendorDefinedPci, vendorDefinedIana]

/-- The message type of a number, by name if it has one. -/
def ofCode (c : UInt8) : MessageType := (assigned.find? (·.code == c)).getD (unassigned c)

/-- The bits of the first byte of a message that tell its type. -/
def typeMask : UInt8 := 0x7f

/-- The bit of the first byte of a message that announces an integrity check. -/
def integrityCheckMask : UInt8 := 0x80

/-- The message type in the first byte of a message. -/
def ofTypeByte (byte : UInt8) : MessageType := ofCode (byte &&& typeMask)

/-- The first byte of a message announces an integrity check at its end. -/
def integrityCheck (byte : UInt8) : Bool := byte &&& integrityCheckMask != 0

/-- The name of a message type, with the number where it has no name of its own. -/
def name : MessageType → String
  | control => "Control"
  | pldm => "Pldm"
  | ncSi => "NcSi"
  | ethernet => "Ethernet"
  | nvmeMi => "NvmeMi"
  | spdm => "Spdm"
  | securedMessage => "SecuredMessage"
  | cxlFmApi => "CxlFmApi"
  | cxlCci => "CxlCci"
  | vendorDefinedPci => "VendorDefinedPci"
  | vendorDefinedIana => "VendorDefinedIana"
  | unassigned c => s!"Unassigned({c})"

instance : ToString MessageType where
  toString t := "0x" ++ Text.hexByte t.code

@[simp] theorem code_ofCode (c : UInt8) : (ofCode c).code = c := by
  unfold ofCode
  cases h : assigned.find? (·.code == c) with
  | none => rfl
  | some t => simpa using List.find?_some h

end MessageType

end MctpReceiver
