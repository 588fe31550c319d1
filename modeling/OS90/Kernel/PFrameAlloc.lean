import OS90.Kernel.Type
import OS90.Lib.Arith

/-!
# The page frame allocator

`PFrameAlloc.c` has the arithmetic of addresses of its allocator, and the allocator itself is not
written. `AddrAlign` rounds an address up, and `CHECK_ALIGN` is a macro that leaves for a label when
an address is not at the start of a page.

Both are modelled with the 32 bits of C: the sum wraps at the top of the address space, where a page
boundary above the address does not exist, and the theorems say below which address that cannot
happen. What a bound other than a power of two would give is not spoken of, as the mask of the code
means nothing for one.

The macro is a function here that answers whether it would leave, since the label it goes to is in
the function it is expanded in.
-/

namespace OS90.Kernel

/-- A comparison is an `int` in C. -/
def relation (b : Bool) : DWORD := if b then 1 else 0

/-- `CHECK_ALIGN(address, if_unaligned)`: if it goes to the label. `!=` binds tighter than `&`. -/
def checkAlign (address : PTR) : Bool := address &&& relation (0xFFF#32 != 0#32) != 0#32

/-- `AddrAlign`. -/
def addrAlign (addr : PTR) (bound : DWORD) : DWORD :=
  (addr + bound - 1#32) &&& ~~~(bound - 1#32)

/-- It is the lowest bit that is checked, and not whether the address is that of a page. -/
theorem checkAlign_iff (address : PTR) : checkAlign address = true ↔ address.toNat % 2 = 1 := by
  have hbit : address.getLsbD 0 = decide (address.toNat % 2 = 1) := Nat.testBit_zero _
  have hmask : relation (0xFFF#32 != 0#32) = 1#32 := rfl
  unfold checkAlign
  rw [hmask, BitVec.and_one_eq_setWidth_ofBool_getLsbD, hbit]
  by_cases h : address.toNat % 2 = 1
  · rw [decide_eq_true h]
    exact iff_of_true rfl h
  · rw [decide_eq_false h]
    exact iff_of_false (by decide) h

section Powers

variable {addr : PTR} {bound : DWORD} {k : Nat} (hbound : bound.toNat = 2 ^ k)

include hbound

/-- The sum is taken in 32 bits, and the result rounded down. -/
theorem addrAlign_toNat :
    (addrAlign addr bound).toNat =
      (addr.toNat + bound.toNat - 1) % 2 ^ 32 / bound.toNat * bound.toNat := by
  have hpos := Nat.two_pow_pos k
  have hlt := bound.isLt
  have hmask : (bound - 1#32).toNat = 2 ^ k - 1 := by
    rw [BitVec.toNat_sub_of_le (by rw [BitVec.le_def, hbound]; exact hpos), hbound]
    rfl
  have hsum : (addr + bound - 1#32).toNat = (addr.toNat + bound.toNat - 1) % 2 ^ 32 := by
    rw [BitVec.toNat_sub, BitVec.toNat_add]
    simp only [BitVec.toNat_ofNat]
    omega
  unfold addrAlign
  rw [Align.and_not_toNat _ hmask, hsum, ← hbound]

/-- What the function answers is a multiple of the bound, also when the sum wraps to zero. -/
theorem dvd_addrAlign : bound.toNat ∣ (addrAlign addr bound).toNat := by
  rw [addrAlign_toNat hbound]
  exact Nat.dvd_mul_left _ _

/-- An address that has a multiple above it in memory is rounded up to the first of them. -/
theorem addrAlign_isLeast {n : Nat}
    (hn : IsLeast {m : Nat | bound.toNat ∣ m ∧ addr.toNat ≤ m} n) (hlt : n < 2 ^ 32) :
    (addrAlign addr bound).toNat = n := by
  have hpos : 0 < bound.toNat := hbound ▸ Nat.two_pow_pos k
  have hup := hn.unique (Align.alignUp_isLeast hpos)
  have htop : bound.toNat ∣ 2 ^ 32 := by
    have hpow : 2 ^ k < 2 ^ 32 := hbound ▸ bound.isLt
    have hk : k < 32 := (Nat.pow_lt_pow_iff_right (by decide)).mp hpow
    rw [hbound]
    exact Nat.pow_dvd_pow 2 (Nat.le_of_lt hk)
  have hfits := Align.add_le_of_alignUp_lt hpos htop (hup ▸ hlt)
  rw [addrAlign_toNat hbound, Nat.mod_eq_of_lt (by omega), hup]
  rfl

/-- The addresses that stay are the multiples of the bound, for a bound that is a power of two. -/
theorem addrAlign_eq_self_iff : addrAlign addr bound = addr ↔ bound.toNat ∣ addr.toNat := by
  constructor
  · intro h
    exact h ▸ dvd_addrAlign hbound
  · intro h
    apply BitVec.eq_of_toNat_eq
    exact addrAlign_isLeast hbound ⟨⟨h, le_rfl⟩, fun m hm => hm.2⟩ addr.isLt

end Powers

end OS90.Kernel
