import EdgeDNS.Utils.Vector

/-!
# Wire data of the records

`RData::generateRData` turns the text of a record into its wire data. Type 6
(SOA) takes two names and then numbers, type 1 (A) an address, type 16 (TXT) a
text; every other type is taken for a name. The numbers of an SOA may throw.
-/

set_option autoImplicit false

namespace EdgeDNS.RData

open Utils Wire

/-- One token of an SOA: a name in the first two places, a number behind. -/
def soaPart (sindex : Nat) (part : List UInt8) : Except StdException (List UInt8) :=
  if sindex ≤ 1 then .ok (stringToWire part true)
  else (stoul part).map fun value => be32 value.toUInt32

/-- The tokens of an SOA from the given place on. -/
def soaParts : Nat → List (List UInt8) → Except StdException (List UInt8)
  | _, [] => .ok []
  | sindex, part :: parts => do
      let wire ← soaPart sindex part
      let others ← soaParts (sindex + 1) parts
      return wire ++ others

/-- The wire data of a value in presentation form. -/
def generateRData (data : List UInt8) (type : Int) : Except StdException (List UInt8) :=
  if type = 6 then soaParts 0 (splitBySpace data)
  else if type = 1 then .ok (ipv4ToWire data)
  else if type = 16 then .ok (txtToWire data)
  else .ok (stringToWire data true)

end EdgeDNS.RData
