/-
This file names the devices of a circuit.

All the devices of a circuit live in one arena and refer to each other by their
position in it. A position is kept in 32 bits, so an identifier made from a
larger number names the position given by its low 32 bits. Below `2 ^ 32` an
identifier and its position determine each other.
-/

namespace Combinational

/-- The position of a device in the arena of its circuit. -/
structure DeviceId where
  /-- The position, in 32 bits. -/
  val : UInt32
deriving DecidableEq, Inhabited

namespace DeviceId

/-- The identifier of a position, which keeps its low 32 bits. -/
def ofIndex (index : Nat) : DeviceId :=
  ⟨UInt32.ofNat index⟩

/-- The position that an identifier names. -/
def index (id : DeviceId) : Nat :=
  id.val.toNat

/-- The letter `d` and the position. -/
def text (id : DeviceId) : String :=
  "d" ++ id.index.repr

theorem index_ofIndex (index : Nat) : (ofIndex index).index = index % UInt32.size := by
  simp [ofIndex, DeviceId.index]

theorem index_ofIndex_of_lt {index : Nat} (small : index < UInt32.size) :
    (ofIndex index).index = index := by
  rw [index_ofIndex, Nat.mod_eq_of_lt small]

theorem index_lt (id : DeviceId) : id.index < UInt32.size :=
  id.val.toNat_lt

@[simp] theorem ofIndex_index (id : DeviceId) : ofIndex id.index = id := by
  simp [ofIndex, DeviceId.index]

/-- Two identifiers of one position are equal. -/
theorem index_injective {first second : DeviceId} (equal : first.index = second.index) :
    first = second := by
  rw [← ofIndex_index first, equal, ofIndex_index]

end DeviceId

end Combinational
