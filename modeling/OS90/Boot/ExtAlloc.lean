import OS90.Boot.LoadKernel
import OS90.Boot.PageSetup
import OS90.Lib.Arith

/-!
# Aligning the extended memory block

`ExtAllocSuccess` of `boot386.asm`. The driver answers the lock of the block with its physical
address in DX:BX. The loader rounds it up to a page for the page tables (`KernelAddr`) and takes the
distance for the moves (`XMM.desoff`), in halves of sixteen bits.

The code adds and subtracts by halves, with the carry and the borrow between them, and does the
subtraction in the wrong order. Each instruction is modelled with its flag, so that what is lost
shows in the result: `kernelAddr_toNat` is what the rounding should give, for every block, and
`desoff_toNat` has a second summand.

A block is one that ends within the address space (`AllocEntry`), which is what a driver can answer.
The labels are where the program has them, apart from each other, and everything else about the
machine is open. What the moves do with the distance is in the modules about the loader.
-/

namespace OS90.Boot

open OS90.Ia32 OS90.Ia32.Cpu OS90.Kernel

/-- `mov ah, 0Ch`, and the call of the driver. The program overwrites AX without a look at it, so a
lock that is refused differs from one that is granted in DX:BX alone, and `block` is whatever the
driver leaves there. -/
def xmsLock (block : DWORD) (c : Loader) : Loader :=
  c.set16 .eax 1#16 |>.set16 .edx (block.extractLsb' 16 16) |>.set16 .ebx (block.setWidth 16)

section Code

variable (l : Labels) (block : DWORD)

/-- From the lock to CX:AX, the address of the block rounded up. -/
def alignBlock (c : Loader) : Loader :=
  let c := xmsLock block (c.setHigh8 .eax 0x0C#8)
  let c := c.set16 .eax (c.reg16 .ebx) |>.set16 .ecx (c.reg16 .edx)
  c.add16 .eax 4095#16 |>.adc16 .ecx 0#16 |>.and16 .eax (~~~4095#16)

/-- The subtraction, high halves first. -/
def blockOffset (c : Loader) : Loader :=
  let c := c.sub16 .ecx (c.reg16 .edx)
  c.sbb16 .eax (c.reg16 .ebx)

/-- CX:AX is stored at an offset in the segment. -/
def storeHalves (off : Nat) (c : Loader) : Loader :=
  let c := c.store16 (linear (c.seg .ds) (BitVec.ofNat 16 off)) (c.reg16 .eax)
  c.store16 (linear (c.seg .ds) (BitVec.ofNat 16 (off + 2))) (c.reg16 .ecx)

/-- `ExtAllocSuccess`. -/
def extAllocSuccess (c : Loader) : Loader :=
  let c := c.store16 (linear (c.seg .ds) (BitVec.ofNat 16 (l.xmm + 10))) (c.reg16 .edx)
  let c := storeHalves l.kernelAddr (alignBlock block c)
  storeHalves (l.xmm + 12) (blockOffset c)

end Code

/-! ## Halves -/

/-- A dword put together from two halves counts the high one 65536 times, which is how `KernelAddr`
and `XMM.desoff` are read off CX:AX. -/
theorem toNat_halves (high low : WORD) : (high ++ low).toNat = high.toNat * 65536 + low.toNat := by
  have hlow := low.isLt
  rw [BitVec.toNat_append, ← Nat.shiftLeft_add_eq_or_of_lt hlow, Nat.shiftLeft_eq]

/-- A dword counted by its halves, in the other direction: this is how the address of the block is
taken apart where the code takes it apart. -/
theorem toNat_eq_halves (block : DWORD) :
    block.toNat = (block.extractLsb' 16 16).toNat * 65536 + (block.setWidth 16).toNat := by
  have hlt := block.isLt
  rw [BitVec.extractLsb'_toNat, BitVec.toNat_setWidth, Nat.shiftRight_eq_div_pow]
  omega

/-- `and ax, ~4095` as arithmetic on the low half alone, which is why it cannot carry into the high
one. -/
theorem and_page_toNat (w : WORD) : (w &&& ~~~4095#16).toNat = w.toNat / 4096 * 4096 :=
  Align.and_not_toNat w (show (4095#16).toNat = 2 ^ 12 - 1 from rfl)

/-! ## What is computed -/

section Registers

variable (block : DWORD) (c : Loader)

/-- The rounding is done in registers alone, so that the segment the stores go through is the one
the program has set. -/
theorem alignBlock_seg : (alignBlock block c).seg = c.seg := rfl

/-- What the lock leaves in the registers: DX:BX is the address of the block, and CX:AX is going to
start as the same. -/
theorem xmsLock_reg16 (q : Reg) : (xmsLock block c).reg16 q =
    if q = .ebx then block.setWidth 16 else if q = .edx then block.extractLsb' 16 16
      else if q = .eax then 1#16 else c.reg16 q := by
  unfold xmsLock
  rw [set16_reg16, set16_reg16, set16_reg16]

/-- The rounding leaves DX:BX alone: the subtraction that follows still finds the address of the
block there. -/
theorem alignBlock_block : (alignBlock block c).reg16 .edx = block.extractLsb' 16 16 ∧
    (alignBlock block c).reg16 .ebx = block.setWidth 16 := by
  unfold alignBlock
  constructor <;> simp only [and16_reg16, adc16_reg16, add16_reg16, set16_reg16, xmsLock_reg16,
    reduceCtorEq, if_false, if_true]

/-- The low half after the rounding is the low half of the block plus 4095, cut off to a page. What
is carried out of the sum is in the high half. -/
theorem alignBlock_eax :
    (alignBlock block c).reg16 .eax = (block.setWidth 16 + 4095#16) &&& ~~~4095#16 := by
  unfold alignBlock
  simp only [and16_reg16, adc16_reg16, add16_reg16, set16_reg16, xmsLock_reg16, reduceCtorEq,
    if_false, if_true]

/-- The high half takes the carry of the low one, so that the rounding is right across it. -/
theorem alignBlock_ecx : ((alignBlock block c).reg16 .ecx).toNat =
    ((block.extractLsb' 16 16).toNat +
      if 2 ^ 16 ≤ (block.setWidth 16).toNat + 4095 then 1 else 0) % 2 ^ 16 := by
  unfold alignBlock
  simp only [and16_reg16, adc16_reg16, add16_reg16, set16_reg16, xmsLock_reg16, reduceCtorEq,
    if_false, if_true, BitVec.toNat_add, carryIn_toNat, add16_carry, decide_eq_true_eq,
    BitVec.toNat_ofNat]
  split <;> omega

theorem blockOffset_seg : (blockOffset c).seg = c.seg := rfl

/-- The subtraction stores nothing, so that `KernelAddr` stays as it was stored. -/
theorem blockOffset_mem : (blockOffset c).mem = c.mem := rfl

/-- The high halves are subtracted first, and so without the borrow of the low ones. -/
theorem blockOffset_ecx :
    (blockOffset c).reg16 .ecx = c.reg16 .ecx - c.reg16 .edx := by
  unfold blockOffset
  simp only [sbb16_reg16, sub16_reg16, reduceCtorEq, if_false, if_true]

/-- If the high halves leave no borrow, the low half is the plain difference. The borrow it takes is
theirs, and its own is given to nobody. -/
theorem blockOffset_eax (h : (c.reg16 .edx).toNat ≤ (c.reg16 .ecx).toNat) :
    (blockOffset c).reg16 .eax = c.reg16 .eax - c.reg16 .ebx := by
  have hborrow : (c.sub16 .ecx (c.reg16 .edx)).carryIn = 0#16 := by
    unfold carryIn
    rw [sub16_carry, if_neg]
    rw [decide_eq_true_eq]
    omega
  unfold blockOffset
  simp only [sbb16_reg16, sub16_reg16, reduceCtorEq, if_false, if_true, hborrow, BitVec.sub_zero]

end Registers

section Store

variable (off : Nat) (c : Loader)

theorem storeHalves_seg : (storeHalves off c).seg = c.seg := by
  unfold storeHalves
  dsimp only
  rw [store16_seg, store16_seg]

theorem storeHalves_reg16 (q : Reg) : (storeHalves off c).reg16 q = c.reg16 q := by
  unfold storeHalves
  dsimp only
  rw [store16_reg16, store16_reg16]

/-- Both halves are stored in the segment of the program, the low one first. The premise is that the
dword does not reach the end of the segment. -/
theorem storeHalves_mem (hoff : off + 4 ≤ 2 ^ 16) : (storeHalves off c).mem =
    (c.mem.write16 (base c + BitVec.ofNat 32 off) (c.reg16 .eax)).write16
      (base c + BitVec.ofNat 32 off + 2#32) (c.reg16 .ecx) := by
  have hlow := linear_ofNat (c.seg .ds) (show off < 2 ^ 16 by omega)
  have hhigh := linear_ofNat (c.seg .ds) (show off + 2 < 2 ^ 16 by omega)
  have hnext : base c + BitVec.ofNat 32 off + 2#32 = base c + BitVec.ofNat 32 (off + 2) :=
    Mem.add_ofNat_add _ off 2
  rw [hnext]
  unfold base
  rw [← hlow, ← hhigh]
  rfl

/-- The dword that has been stored reads back as CX:AX, provided that it ends within the segment. -/
theorem storeHalves_read (hoff : off + 4 ≤ 2 ^ 16) :
    (storeHalves off c).mem.read32 (base c + BitVec.ofNat 32 off) =
      c.reg16 .ecx ++ c.reg16 .eax := by
  rw [storeHalves_mem off c hoff, Mem.read32_write16_write16]

/-- A stored dword changes four bytes and no others, which is what keeps the two results of the
allocation apart. -/
theorem storeHalves_within (hoff : off + 4 ≤ 2 ^ 16) :
    Mem.Within (base c + BitVec.ofNat 32 off) 4 c.mem (storeHalves off c).mem := by
  have hlow : Mem.Within (base c + BitVec.ofNat 32 off) 4 c.mem
      (c.mem.write16 (base c + BitVec.ofNat 32 off) (c.reg16 .eax)) :=
    Mem.splice_within_object _ _ _ le_rfl (by omega) (by omega)
  have hhigh := Mem.splice_within_object (j := off) (n := 4) (e := off + 2) (w := 2)
    (c.mem.write16 (base c + BitVec.ofNat 32 off) (c.reg16 .eax)) (base c)
    (fun i => (c.reg16 .ecx).extractLsb' (8 * i) 8) (by omega) (by omega) (by omega)
  rw [storeHalves_mem off c hoff]
  refine hlow.trans ?_
  rw [show base c + BitVec.ofNat 32 off + 2#32 = base c + BitVec.ofNat 32 (off + 2) from
    Mem.add_ofNat_add _ off 2]
  exact hhigh

end Store

/-! ## The block -/

/-- The loader as the driver has given it a block, which ends within the address space. -/
structure AllocEntry (l : Labels) where
  c : Loader
  placed : l.Placed c
  block : DWORD
  fits : block.toNat ≤ 2 ^ 32 - 4096

namespace AllocEntry

variable {l : Labels} (e : AllocEntry l)

def after : Loader := extAllocSuccess l e.block e.c

/-- `[KernelAddr]`. -/
def kernelAddr : DWORD := e.after.mem.read32 (base e.c + BitVec.ofNat 32 l.kernelAddr)

/-- `XMM`. -/
def args : MoveStruct := moveStructAt e.after.mem (base e.c + BitVec.ofNat 32 l.xmm)

/-- The low half of the block's address. -/
def low : Nat := (e.block.setWidth 16).toNat

/-- The machine that `KernelAddr` is stored from. -/
def aligned : Loader :=
  alignBlock e.block (e.c.store16 (linear (e.c.seg .ds) (BitVec.ofNat 16 (l.xmm + 10)))
    (e.c.reg16 .edx))

/-- The machine that `XMM.desoff` is stored from. -/
def subtracted : Loader := blockOffset (storeHalves l.kernelAddr e.aligned)

/-- The routine ends with the store of CX:AX into `XMM.desoff`. -/
theorem after_eq : e.after = storeHalves (l.xmm + 12) e.subtracted := rfl

/-- The program has the same segment when `KernelAddr` is stored as when it was entered. -/
theorem base_aligned : base e.aligned = base e.c := by
  unfold base aligned
  rw [alignBlock_seg, store16_seg]

/-- The same when `XMM.desoff` is stored. -/
theorem base_subtracted : base e.subtracted = base e.c := by
  rw [← e.base_aligned]
  unfold base subtracted
  rw [blockOffset_seg, storeHalves_seg]

/-- `KernelAddr` is CX:AX after the rounding. The later store of `XMM.desoff` is apart from it by
the placement of the labels. -/
theorem kernelAddr_eq : e.kernelAddr = e.aligned.reg16 .ecx ++ e.aligned.reg16 .eax := by
  obtain ⟨hkernel, hxmm, hmap, hroom, hlt⟩ := e.placed.bounds
  have hlater := storeHalves_within (l.xmm + 12) e.subtracted (by omega)
  rw [e.base_subtracted] at hlater
  have hkeep := hlater.read32_object (e := l.kernelAddr) (.inl (by omega)) (by omega) (by omega)
  have hstored := storeHalves_read l.kernelAddr e.aligned (by omega)
  rw [e.base_aligned] at hstored
  unfold kernelAddr
  rw [e.after_eq, hkeep, ← hstored]
  unfold subtracted
  rw [blockOffset_mem]

/-- `XMM.desoff` is CX:AX after the subtraction, the last thing the routine stores. -/
theorem desoff_eq : e.args.desoff = e.subtracted.reg16 .ecx ++ e.subtracted.reg16 .eax := by
  obtain ⟨hkernel, hxmm, hmap, hroom, hlt⟩ := e.placed.bounds
  have hplace : base e.c + BitVec.ofNat 32 l.xmm + 12#32 =
      base e.c + BitVec.ofNat 32 (l.xmm + 12) := Mem.add_ofNat_add _ l.xmm 12
  have hstored := storeHalves_read (l.xmm + 12) e.subtracted (by omega)
  rw [e.base_subtracted, ← e.after_eq] at hstored
  unfold args moveStructAt
  dsimp only
  rw [hplace, hstored]

/-- `KernelAddr` is the address of the block rounded up to a page, for every block that ends within
the address space. -/
theorem kernelAddr_toNat : e.kernelAddr.toNat = (e.block.toNat + 4095) / 4096 * 4096 := by
  have hfits := e.fits
  have hblock := toNat_eq_halves e.block
  rw [kernelAddr_eq, toNat_halves]
  unfold aligned
  rw [alignBlock_eax, alignBlock_ecx, and_page_toNat, BitVec.toNat_add, BitVec.toNat_ofNat]
  split <;> omega

/-- `XMM.desoff` is the distance, or 64 KiB more if the low half has a carry: the borrow the high
half should give back for it comes from the low half, which is subtracted after it. -/
theorem desoff_toNat : e.args.desoff.toNat =
    e.kernelAddr.toNat - e.block.toNat + if 0xF000 < e.low then 0x10000 else 0 := by
  have hfits := e.fits
  have hblock := toNat_eq_halves e.block
  have hlow := (e.block.setWidth 16).isLt
  have hhigh := (e.block.extractLsb' 16 16).isLt
  obtain ⟨hedx, hebx⟩ := alignBlock_block e.block (e.c.store16
    (linear (e.c.seg .ds) (BitVec.ofNat 16 (l.xmm + 10))) (e.c.reg16 .edx))
  have hecx := alignBlock_ecx e.block (e.c.store16
    (linear (e.c.seg .ds) (BitVec.ofNat 16 (l.xmm + 10))) (e.c.reg16 .edx))
  have hnoborrow : ((storeHalves l.kernelAddr e.aligned).reg16 .edx).toNat ≤
      ((storeHalves l.kernelAddr e.aligned).reg16 .ecx).toNat := by
    rw [storeHalves_reg16, storeHalves_reg16]
    unfold aligned
    rw [hedx, hecx]
    split <;> omega
  have hcx : (e.subtracted.reg16 .ecx).toNat = if 0xF000 < e.low then 1 else 0 := by
    unfold subtracted
    rw [blockOffset_ecx, storeHalves_reg16, storeHalves_reg16]
    unfold aligned low
    rw [BitVec.toNat_sub, hecx, hedx]
    split <;> split <;> omega
  have hax : (e.subtracted.reg16 .eax).toNat =
      (2 ^ 16 - (e.block.setWidth 16).toNat +
        ((e.block.setWidth 16).toNat + 4095) % 2 ^ 16 / 4096 * 4096) % 2 ^ 16 := by
    unfold subtracted
    rw [blockOffset_eax _ hnoborrow, storeHalves_reg16, storeHalves_reg16]
    unfold aligned
    rw [hebx, alignBlock_eax, BitVec.toNat_sub, and_page_toNat, BitVec.toNat_add]
    rfl
  rw [desoff_eq, toNat_halves, kernelAddr_toNat, hcx, hax]
  unfold low
  split <;> omega

end AllocEntry

end OS90.Boot
