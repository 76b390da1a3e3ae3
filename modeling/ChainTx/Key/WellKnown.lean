import ChainTx.Key.Address
/-!
# Well-known addresses

The programs and system variables that the builders and the instruction registry name.
-/

namespace ChainTx.Address

/-- The system program: all zero. -/
def systemProgram : Address := zero

/-- The compute-budget program. -/
def computeBudgetProgram : Address :=
  ⟨[0x03, 0x06, 0x46, 0x6f, 0xe5, 0x21, 0x17, 0x32,
    0xff, 0xec, 0xad, 0xba, 0x72, 0xc3, 0x9b, 0xe7,
    0xbc, 0x8c, 0xe5, 0xbb, 0xc5, 0xf7, 0x12, 0x6b,
    0x2c, 0x43, 0x9b, 0x3a, 0x40, 0x00, 0x00, 0x00], rfl⟩

/-- The memo program. -/
def memoProgram : Address :=
  ⟨[0x05, 0x4a, 0x53, 0x5a, 0x99, 0x29, 0x21, 0x06,
    0x4d, 0x24, 0xe8, 0x71, 0x60, 0xda, 0x38, 0x7c,
    0x7c, 0x35, 0xb5, 0xdd, 0xbc, 0x92, 0xbb, 0x81,
    0xe4, 0x1f, 0xa8, 0x40, 0x41, 0x05, 0x44, 0x8d], rfl⟩

/-- The first memo program. -/
def memoV1Program : Address :=
  ⟨[0x05, 0x4a, 0x53, 0x50, 0xf8, 0x5d, 0xc8, 0x82,
    0xd6, 0x14, 0xa5, 0x56, 0x72, 0x78, 0x8a, 0x29,
    0x6d, 0xdf, 0x1e, 0xab, 0xab, 0xd0, 0xa6, 0x06,
    0x78, 0x88, 0x49, 0x32, 0xf4, 0xee, 0xf6, 0xa0], rfl⟩

/-- The address lookup table program. -/
def lookupTableProgram : Address :=
  ⟨[0x02, 0x77, 0xa6, 0xaf, 0x97, 0x33, 0x9b, 0x7a,
    0xc8, 0x8d, 0x18, 0x92, 0xc9, 0x04, 0x46, 0xf5,
    0x00, 0x02, 0x30, 0x92, 0x66, 0xf6, 0x2e, 0x53,
    0xc1, 0x18, 0x24, 0x49, 0x82, 0x00, 0x00, 0x00], rfl⟩

/-- The token program. -/
def tokenProgram : Address :=
  ⟨[0x06, 0xdd, 0xf6, 0xe1, 0xd7, 0x65, 0xa1, 0x93,
    0xd9, 0xcb, 0xe1, 0x46, 0xce, 0xeb, 0x79, 0xac,
    0x1c, 0xb4, 0x85, 0xed, 0x5f, 0x5b, 0x37, 0x91,
    0x3a, 0x8c, 0xf5, 0x85, 0x7e, 0xff, 0x00, 0xa9], rfl⟩

/-- The associated token account program. -/
def associatedTokenProgram : Address :=
  ⟨[0x8c, 0x97, 0x25, 0x8f, 0x4e, 0x24, 0x89, 0xf1,
    0xbb, 0x3d, 0x10, 0x29, 0x14, 0x8e, 0x0d, 0x83,
    0x0b, 0x5a, 0x13, 0x99, 0xda, 0xff, 0x10, 0x84,
    0x04, 0x8e, 0x7b, 0xd8, 0xdb, 0xe9, 0xf8, 0x59], rfl⟩

/-- The recent-blockhashes sysvar. -/
def recentBlockhashesSysvar : Address :=
  ⟨[0x06, 0xa7, 0xd5, 0x17, 0x19, 0x2c, 0x56, 0x8e,
    0xe0, 0x8a, 0x84, 0x5f, 0x73, 0xd2, 0x97, 0x88,
    0xcf, 0x03, 0x5c, 0x31, 0x45, 0xb2, 0x1a, 0xb3,
    0x44, 0xd8, 0x06, 0x2e, 0xa9, 0x40, 0x00, 0x00], rfl⟩

/-- The rent sysvar. -/
def rentSysvar : Address :=
  ⟨[0x06, 0xa7, 0xd5, 0x17, 0x19, 0x2c, 0x5c, 0x51,
    0x21, 0x8c, 0xc9, 0x4c, 0x3d, 0x4a, 0xf1, 0x7f,
    0x58, 0xda, 0xee, 0x08, 0x9b, 0xa1, 0xfd, 0x44,
    0xe3, 0xdb, 0xd9, 0x8a, 0x00, 0x00, 0x00, 0x00], rfl⟩

end ChainTx.Address
