import OS90.Kernel.Ia32Struct
import OS90.Kernel.V86Entry

/-!
# KernelMain

`Main.c`, where the kernel starts: the processor's tables, and a BIOS call that writes a letter to
the screen. Of the context for the call, four entries are assigned. The fields of the task state
segment that the kernel changes are kept apart from memory (`tssFields`).

`kernelMain` goes up to the first instruction of the BIOS. Memory is in three parts: what real mode
can reach, the tables, and the stack with the context on it (`MainSite`).

The task register is not reloaded by anything here, and the processor reads the fields it needs from
memory; `tssFields` is that reading, and the lemmas about the tables say what it finds.

What the loader has done before is the premise, and not a result of this module: the structure is in
memory as it was linked, the segments are flat, and the stack is somewhere apart from the rest. The
laws about the start of the kernel put the two together.
-/

namespace OS90.Kernel

open OS90.Ia32 OS90.Ia32.Cpu

/-- Where the tables are, the frames of the two calls, and the local array. -/
structure MainFrame where
  tables : StructSite
  call : Frame
  regparm : PTR

/-- The entries of `regparm` that are assigned. -/
def mainRegparm (regparm : PTR) (m : Machine) : Machine :=
  m.store (regparm + tf RD.eax) (0xE#32 <<< 8 ||| 0x41#32)
    |>.store (regparm + tf RD.ebx) 0#32
    |>.store (regparm + tf RD.ss) 0x9000#32
    |>.store (regparm + tf RD.esp) 0xFFFE#32

section Code

variable (layout : Layout) (afterTss afterLdt : PTR) (f : MainFrame)

/-- `KernelMain`, up to its call of `ScVirtual86_Int`. -/
def mainCalls (m : Machine) : Option Machine := do
  let i ← initIA32 layout afterTss afterLdt f.tables m
  return mainRegparm f.regparm { i.machine with tss := tssFields f.tables.base i.machine.mem }

/-- `KernelMain`, up to the BIOS. -/
def kernelMain (m : Machine) : Option Machine := do
  let m ← mainCalls layout afterTss afterLdt f m
  return virtual86Entered layout f.call f.regparm 0x10 m

end Code

/-! ## Places -/

/-- Bytes that are out of reach of real mode. -/
structure High (a : PTR) (n : Nat) : Prop where
  low : realModeLimit ≤ a.toNat
  fits : a.toNat + n ≤ 2 ^ 32

/-- What lies above the conventional memory is apart from whatever lies in it. -/
theorem High.outside {a x : PTR} {n : Nat} (h : High a n) (hx : x.toNat < realModeLimit) :
    n ≤ (x - a).toNat := by
  have hlow := h.low
  have hfits := h.fits
  rw [BitVec.toNat_sub]
  omega

/-- The vector table is apart from what is above the conventional memory. -/
theorem High.ivt {a : PTR} {n : Nat} (h : High a n) : Mem.Apart 0#32 1024 a n := by
  intro i hi
  refine h.outside ?_
  have hlimit : realModeLimit = 0x110000 := rfl
  rw [BitVec.zero_add, BitVec.toNat_ofNat]
  omega

/-- The kernel's memory when `KernelMain` runs. Entering V86 mode takes 64 bytes of stack below the
frame of the call. -/
structure MainSite extends MainFrame where
  tables_high : High tables.base sizeofIa32Struct
  args_high : High (tables.esp - 16#32) 16
  regparm_high : High regparm 68
  stack_high : High (call.below 64) (64 + call.size)
  tables_stack : Mem.Apart tables.base sizeofIa32Struct (call.below 64) (64 + call.size)
  tables_regparm : Mem.Apart tables.base sizeofIa32Struct regparm 68
  regparm_stack : Mem.Apart regparm 68 (call.below 64) (64 + call.size)
  regparm_args : Mem.Apart regparm 68 (tables.esp - 16#32) 16

/-- The local array of `ScVirtual86_Int` is on the stack, and so apart from what the stack is apart
from. -/
theorem Frame.apart_newContext {f : Frame} {a : PTR} {d k : Nat} (hd : d ≤ 0x1000000)
    (h : Mem.Apart a k (f.below d) (d + f.size)) : Mem.Apart a k f.newContext 68 := by
  intro i hi
  have hout := h i hi
  have hplace := f.place_le
  have hsize := f.size_lt
  have hdist : a + BitVec.ofNat 32 i - f.newContext =
      (a + BitVec.ofNat 32 i - f.below d) - BitVec.ofNat 32 (d + f.place) := by
    unfold Frame.newContext Frame.below
    rw [BitVec.ofNat_add]
    grind
  rw [hdist, BitVec.toNat_sub, BitVec.toNat_ofNat]
  omega

/-! ## The context -/

/-- The context of the call, where `regparm` was `found`. -/
def mainContext (found : Context) : Context := fun i =>
  if i = RD.esp then 0xFFFE else if i = RD.ss then 0x9000 else if i = RD.ebx then 0
  else if i = RD.eax then 0x0E41 else found i

/-- The registers for the first call of real mode, as `KernelMain` fills them in: the others are
those that were in memory. -/
theorem contextAt_mainRegparm (regparm : PTR) (m : Machine) :
    contextAt (mainRegparm regparm m).mem regparm = mainContext (contextAt m.mem regparm) := by
  funext i
  unfold mainRegparm
  rw [contextAt_store, contextAt_store, contextAt_store, contextAt_store]
  rfl

/-- They are stored in the structure and nowhere else. -/
theorem mainRegparm_within (regparm : PTR) (m : Machine) :
    Mem.Within regparm 68 m.mem (mainRegparm regparm m).mem :=
  (store_tf_within regparm RD.eax _).trans ((store_tf_within regparm RD.ebx _).trans
    ((store_tf_within regparm RD.ss _).trans (store_tf_within regparm RD.esp _)))

/-! ## The tables -/

/-- `InitSpec` is about the bytes of the structure, and holds of every memory with the same ones. -/
theorem InitSpec.congr {layout : Layout} {base : PTR} {i : Initialised} {m : Machine}
    (h : InitSpec layout base i)
    (hbytes : ∀ k < sizeofIa32Struct, m.mem.byte base k = i.machine.mem.byte base k) :
    InitSpec layout base { i with machine := m } := by
  have hsize := sizeofIa32Struct_eq
  have hoffsets : idtOffset = 65616 ∧ tssOffset = 67664 ∧ sizeofTss = 16486 := ⟨rfl, rfl, rfl⟩
  refine ⟨fun g => ?_, h.tr, h.ldtr, ?_, fun k hk => ?_⟩
  · have hg := g.val_lt
    rw [← h.gdt g]
    refine Mem.descriptor_congr fun j hj => ?_
    rw [gdtEntry_byte, gdtEntry_byte]
    exact hbytes _ (by omega)
  · rw [← h.idt]
    funext v
    have hv := v.isLt
    refine idtTable_congr fun j hj => ?_
    unfold idtEntry
    rw [Mem.byte_add, Mem.byte_add]
    exact hbytes _ (by omega)
  · rw [← h.tss k hk]
    unfold tssAt
    rw [Mem.byte_add, Mem.byte_add]
    exact hbytes _ (by omega)

/-- SS0 is the data segment of the kernel, in the fields the processor reads. -/
theorem InitSpec.ss0 {layout : Layout} {base : PTR} {i : Initialised} (h : InitSpec layout base i) :
    (tssFields base i.machine.mem).ss0 = 0x10 := by
  have hplace : tssAt base + 8#32 = tssAt base + BitVec.ofNat 32 8 := rfl
  unfold tssFields
  dsimp only
  rw [hplace, Mem.read16_add, h.tss _ (by decide), h.tss _ (by decide)]
  decide

/-- To enter V86 mode changes ESP0 and keeps SS0. -/
theorem virtual86Entered_ss0 (layout : Layout) (f : Frame) (context : PTR) (vector : BYTE)
    (m : Machine) : (virtual86Entered layout f context vector m).tss.ss0 = m.tss.ss0 := by
  have hcopy : ∀ (dst src : PTR) (m : Machine), (copyContext dst src m).tss = m.tss := by
    intro dst src m
    unfold copyContext
    induction List.finRange 17 generalizing m with
    | nil => rfl
    | cons i l ih => exact (ih _).trans rfl
  have hbegun : (virtual86IntBegin f.newContext context vector m).tss.ss0 = m.tss.ss0 := by
    unfold virtual86IntBegin iaIOPB_Allow
    dsimp only
    rw [store_tss, store_tss, hcopy]
  unfold virtual86Entered
  rw [scEnterV86_tss]
  generalize virtual86IntBegin f.newContext context vector m = begun at hbegun ⊢
  exact hbegun

end OS90.Kernel
