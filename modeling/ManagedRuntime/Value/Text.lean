import ManagedRuntime.Value.Slot
import ManagedRuntime.Decimal.Shortest
import ManagedRuntime.Text.Hex

/-!
Diagnostic text of values and slots. A reference is shown by the text of the object it refers to,
which the caller supplies.
-/
namespace ManagedRuntime

def ObjectId.address (o : ObjectId) : String := "0x" ++ Text.hex o.index

def Value.text (describe : ObjectId → String) : Value → String
  | .boolean v => "boolean(" ++ (if v then "true" else "false") ++ ")"
  | .byte v => "byte(" ++ toString v.toInt ++ ")"
  | .char v => "char(0x" ++ Text.hex v.toNat ++ ")"
  | .short v => "short(" ++ toString v.toInt ++ ")"
  | .int v => "int(" ++ toString v.toInt ++ ")"
  | .float bits => "float(" ++ Decimal.text Binary.single bits.toNat ++ ")"
  | .long v => "long(" ++ toString v.toInt ++ ")"
  | .double bits => "double(" ++ Decimal.text Binary.double bits.toNat ++ ")"
  | .ref none => "null"
  | .ref (some o) => "ref(" ++ describe o ++ "@" ++ o.address ++ ")"

def Slot.text : Slot → String
  | .int bits => "Int(0x" ++ Text.hex bits.toNat ++ ")"
  | .wide bits => "Wide(0x" ++ Text.hex bits.toNat ++ ")"
  | .wideTail => "WideTail"
  | .ref none => "Ref(null)"
  | .ref (some o) => "Ref(" ++ o.address ++ ")"
  | .empty => "Empty"

end ManagedRuntime
