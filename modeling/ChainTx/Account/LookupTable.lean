import ChainTx.Wire.Reader
import ChainTx.Key.Text
/-!
# Address lookup tables

A lookup table account lists addresses that a versioned message may refer to by a one-byte index
instead of carrying them. Its data is a 56-byte header (type, deactivation slot, last extended
slot and its start index, an optional authority, two bytes of padding) followed by the addresses.
A table is active while its deactivation slot is the largest 64-bit value.
-/

namespace ChainTx

/-- The contents of a lookup table account. -/
structure LookupTableState where
  typeIndex : UInt32
  deactivationSlot : UInt64
  lastExtendedSlot : UInt64
  lastExtendedSlotStartIndex : UInt8
  authority : Option Address
  addresses : List Address
  deriving DecidableEq

/-- A lookup table with the address of its account. -/
structure LookupTable where
  key : Address
  state : LookupTableState
  deriving DecidableEq

namespace LookupTableState

/-- The size of the header before the addresses. -/
def headerSize : Nat := 56

/-- An active table of the given addresses. -/
def ofAddresses (addresses : List Address) : LookupTableState :=
  ⟨1, 0xFFFFFFFFFFFFFFFF, 0, 0, none, addresses⟩

/-- The account data of a table. -/
def encode (s : LookupTableState) : List UInt8 :=
  leBytes 4 s.typeIndex.toNat ++ leBytes 8 s.deactivationSlot.toNat ++
    leBytes 8 s.lastExtendedSlot.toNat ++ [s.lastExtendedSlotStartIndex] ++
    (match s.authority with
      | some a => 1 :: a.bytes
      | none => 0 :: List.replicate 32 0) ++
    [0, 0] ++ s.addresses.flatMap (·.bytes)

/-- The addresses of a region whose length is a multiple of 32. -/
def addressesOf (region : List UInt8) : List Address :=
  if region.length < 32 then []
  else
    match Address.ofBytes? (region.take 32) with
    | some a => a :: addressesOf (region.drop 32)
    | none => addressesOf (region.drop 32)
termination_by region.length
decreasing_by all_goals simp; omega

/-- Reads account data as a table. -/
def decode (data : List UInt8) : Except SolError LookupTableState :=
  if data.length < headerSize then .error (.invalidLookupTable (.tooShort data.length))
  else if (data.length - headerSize) % 32 ≠ 0 then
    .error (.invalidLookupTable (.misaligned (data.length - headerSize)))
  else
    let typeIndex := leValue (data.take 4)
    let deactivation := leValue ((data.drop 4).take 8)
    let lastExtended := leValue ((data.drop 12).take 8)
    let startIndex := data.getD 20 0
    let tag := data.getD 21 0
    let authorityBytes := (data.drop 22).take 32
    let authority : Except SolError (Option Address) :=
      if tag = 0 then .ok none
      else if tag = 1 then .ok (Address.ofBytes? authorityBytes)
      else .error (.invalidLookupTable (.badAuthorityTag tag.toNat))
    authority.map fun auth =>
      ⟨typeIndex.toUInt32, deactivation.toUInt64, lastExtended.toUInt64, startIndex, auth,
        addressesOf (data.drop headerSize)⟩

end LookupTableState

namespace LookupTable

/-- An active table of the given addresses, with no authority. -/
def ofAddresses (key : Address) (addresses : List Address) : LookupTable :=
  ⟨key, LookupTableState.ofAddresses addresses⟩

/-- Whether the table has not been deactivated. -/
def isActive (t : LookupTable) : Bool := t.state.deactivationSlot = 0xFFFFFFFFFFFFFFFF

/-- The addresses of the table. -/
def addresses (t : LookupTable) : List Address := t.state.addresses

/-- The address at an index. -/
def get (t : LookupTable) (index : Nat) : Except SolError Address :=
  match t.state.addresses[index]? with
  | some a => .ok a
  | none => .error (.lookupTableIndexOutOfRange t.key index)

end LookupTable

end ChainTx
