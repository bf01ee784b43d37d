import AntRegister.Text.Units
/-!
The content hash of an ant, which is also its place in the display order: the polynomial in 31
over the UTF-16 units of the content, kept in 32-bit words and reduced modulo `2 ^ 31 - 1`.
-/

namespace AntRegister

/-- The modulus of content hashes, `2 ^ 31 - 1`. -/
def hashModulus : Nat := 2147483647

/-- One step of the hash: shifting by five and subtracting multiplies by 31. -/
def hashStep (h : UInt32) (u : UInt16) : UInt32 := (h <<< 5) - h + u.toUInt32

theorem toNat_hashStep (h : UInt32) (u : UInt16) :
    (hashStep h u).toNat = (31 * h.toNat + u.toNat) % 4294967296 := by
  have hlt := h.toNat_lt
  have hu : u.toUInt32.toNat = u.toNat := UInt16.toNat_toUInt32 u
  have hs : (h <<< 5).toNat = 32 * h.toNat % 4294967296 := by
    rw [UInt32.toNat_shiftLeft, show ((5 : UInt32).toNat % 32) = 5 from rfl, Nat.shiftLeft_eq]
    omega
  rw [hashStep, UInt32.toNat_add, UInt32.toNat_sub, hs, hu]
  omega

/-- The hash as a 32-bit word, before it is reduced. -/
def hashWord (content : String) : UInt32 := (Text.units content).foldl hashStep 0

def contentHash (content : String) : Nat := (hashWord content).toNat % hashModulus

theorem contentHash_lt (content : String) : contentHash content < hashModulus :=
  Nat.mod_lt _ (by decide)

end AntRegister
