import OS90.Boot.ExtAlloc
import OS90.Kernel.PFrameAlloc

/-!
# Pages that addresses are rounded to

An address is rounded up to a page in the page frame allocator, which has also a test for addresses
that need none, and in the boot program, which looks for the first page of its block.

`PageAlignLaw` is that `AddrAlign` rounds an address up, and that `CHECK_ALIGN` goes to its label
just for the addresses that rounding to a page would change. The rounding is right at every bound
that is a power of two and up to the top of memory (`addrAlign_isLeast`). The check is of the lowest
bit and not of the low twelve, so it goes wrong at the even addresses within a page
(`pageAlignLaw_iff`).

`AlignLaw` is what the loader should find out about a block of extended memory: the first page in
it, and how far it is to it, so that what is moved there is what the page tables map. The page is
always right (`AllocEntry.kernelAddr_toNat`). The distance is right only for blocks whose low half
takes no carry from the rounding (`alignLaw_iff`).
-/

namespace OS90.Laws

open OS90.Ia32 OS90.Ia32.Cpu OS90.Kernel OS90.Boot

/-! ## The allocator -/

structure PageAlignLaw (address : PTR) : Prop where
  /-- Above the last multiple of the bound in memory nothing is said. -/
  rounds : ∀ bound : DWORD, (∃ k, bound.toNat = 2 ^ k) →
    ∀ n, IsLeast {m : Nat | bound.toNat ∣ m ∧ address.toNat ≤ m} n → n < 2 ^ 32 →
      (addrAlign address bound).toNat = n
  agrees : checkAlign address = true ↔ addrAlign address 4096 ≠ address

/-- Rounding to a page changes the addresses that are not on a page boundary, and those only. -/
theorem addrAlign_page_ne_iff (address : PTR) :
    addrAlign address 4096 ≠ address ↔ ¬ 4096 ∣ address.toNat := by
  have hpage : (4096 : DWORD).toNat = 2 ^ 12 := rfl
  exact not_congr (addrAlign_eq_self_iff hpage)

/-- For every address: the roundings are right, and the check agrees with the rounding to a page
exactly when the address is odd or the start of a page. The roundings need no condition, and the
check alone fails. -/
theorem pageAlignLaw_iff (address : PTR) :
    PageAlignLaw address ↔ address.toNat % 2 = 1 ∨ 4096 ∣ address.toNat := by
  constructor
  · intro hlaw
    have hagree := hlaw.agrees
    rw [checkAlign_iff, addrAlign_page_ne_iff] at hagree
    by_cases hpage : 4096 ∣ address.toNat
    · exact Or.inr hpage
    · exact Or.inl (hagree.mpr hpage)
  · intro h
    refine ⟨?_, ?_⟩
    · rintro bound ⟨k, hbound⟩ n hn hlt
      exact addrAlign_isLeast hbound hn hlt
    · rw [checkAlign_iff, addrAlign_page_ne_iff]
      rcases h with hodd | hpage
      · exact ⟨fun _ => by omega, fun _ => hodd⟩
      · exact ⟨fun hodd => by omega, fun hne => absurd hpage hne⟩

/-- The middle of a page passes the check for a page boundary, as its lowest bit is clear. -/
theorem pageAlignLaw_middle : ¬ PageAlignLaw 0x800 := by
  intro hlaw
  have hgoes : checkAlign 0x800 = true := hlaw.agrees.mpr (by decide)
  exact absurd hgoes (by decide)

/-! ## The block -/

section BootAlign

variable {l : Labels} (e : AllocEntry l)

structure AlignLaw : Prop where
  page : IsLeast {n : Nat | 4096 ∣ n ∧ e.block.toNat ≤ n} e.kernelAddr.toNat
  distance : e.args.desoff.toNat = e.kernelAddr.toNat - e.block.toNat
  /-- What is moved to an offset above `XMM.desoff` lands where `PageSetup` maps it. -/
  lands : ∀ o, e.block + (e.args.desoff + o) = frame e.kernelAddr + o

/-- `KernelAddr` is the least page boundary that is not below the block, for every block that the
address space has room to round up. -/
theorem kernelAddr_isLeast :
    IsLeast {n : Nat | 4096 ∣ n ∧ e.block.toNat ≤ n} e.kernelAddr.toNat := by
  rw [e.kernelAddr_toNat]
  exact Align.alignUp_isLeast (by decide)

/-- For every place of the program, every state of the machine and every block that ends within the
address space: the loader finds the first page of it and the distance to it exactly when the low
half of its address is at most F000h. The page is right for every block; it is the distance that the
condition is about. -/
theorem alignLaw_iff : AlignLaw e ↔ e.low ≤ 0xF000 := by
  have hpage := e.kernelAddr_toNat
  have hdistance := e.desoff_toNat
  constructor
  · intro hlaw
    by_contra hcarry
    rw [hlaw.distance, if_pos (by omega)] at hdistance
    omega
  · intro hlow
    rw [if_neg (by omega), Nat.add_zero] at hdistance
    refine ⟨kernelAddr_isLeast e, hdistance, fun o => ?_⟩
    have hsum : e.block + e.args.desoff = e.kernelAddr := by
      apply BitVec.eq_of_toNat_eq
      rw [BitVec.toNat_add, hdistance]
      omega
    rw [frame_eq_self (by omega), ← hsum, BitVec.add_assoc]

/-- The loader with a block at 10F800h, whose first page is at 110000h. -/
def blockWithCarry : AllocEntry boot386 where
  c :=
    { gpr := fun r => if r = .esp then 0xFFFE else 0
      seg := fun _ => 0x1000
      eip := 0
      eflags := 0x202
      mem := fun _ => 0
      tss := ⟨0, 0, 0⟩
      env := ⟨⟨5, 4096, fun _ => 0x90, 0⟩, [], 0⟩ }
  placed := ⟨rfl, by decide, by decide⟩
  block := 0x10F800
  fits := by decide

/-- With a block whose low half carries when it is rounded, the distance is found to be 64 KiB too
far. -/
theorem alignLaw_carry : ¬ AlignLaw blockWithCarry := by
  intro hlaw
  have hdistance := blockWithCarry.desoff_toNat
  have hlow : blockWithCarry.low = 0xF800 := rfl
  rw [hlaw.distance, hlow, if_pos (by decide)] at hdistance
  omega

end BootAlign

end OS90.Laws
