import BoardRpc.Text.Numeral

/-! Selectors: which USB device is meant. -/

namespace BoardRpc

/-- The vendor of the boards that are looked for by default. -/
def defaultVendorId : UInt16 := 0x1d50

/-- The product that is looked for by default. -/
def defaultProductId : UInt16 := 0x60e6

/-- Characters of a serial number as devices report it. -/
def serialNumberLength : Nat := 32

/-- Which USB device to open. -/
structure DeviceSelector where
  vendorId : UInt16 := defaultVendorId
  productId : UInt16 := defaultProductId
  serialNumber : Option String := none
  deriving DecidableEq, Repr, Inhabited

namespace DeviceSelector

/-- The serial number as devices report it, with zeros in front. -/
def paddedSerialNumber (selector : DeviceSelector) : Option String :=
  selector.serialNumber.map fun serial =>
    String.ofList (Text.padZeros serialNumberLength serial.toList)

/-- The selector as messages show it. -/
def describe (selector : DeviceSelector) : String :=
  let ids :=
    Text.hexPadded 4 selector.vendorId.toNat ++ ":" ++ Text.hexPadded 4 selector.productId.toNat
  match selector.serialNumber with
  | some serial => ids ++ " serial " ++ serial
  | none => ids

end DeviceSelector

end BoardRpc
