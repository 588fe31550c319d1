import OS90.Ia32.Segment
import OS90.Kernel.Ia32

/-!
# The processor's tables in memory

`_ia32_struct` of `IA32.c`, byte for byte: its static initialiser, `AppendAddress` of `StartK.asm`,
and `InitIA32`, at whatever address the structure lies. An object is looked at from the address of
the structure, so that a law is about offsets. `InitIA32` runs after the loader has put the
initialiser in memory; its part for the interrupt controllers is `initPics`.

The structure is one object, and its parts are found by their offsets in it, as the compiler lays
them out: the GDT first, the LDT and the IDT, the task state segment and its two permission maps.
That they do not overlap is a matter of these numbers, and `decide` settles it.

`SetGdtBase` and the macros over it are one definition with the entry as a parameter. The routine in
assembly that puts an address into a descriptor works on the stack of its caller, which is required
to lie apart from the structure (`StructSite`).
-/

namespace OS90.Kernel

open OS90.Ia32 OS90.Ia32.Cpu

/-! ## The structure -/

/-- `SEGMENT_DESCRIPTOR`. -/
structure SEGMENT_DESCRIPTOR where
  limit : WORD
  base0 : WORD
  base1 : BYTE
  access : BYTE
  limitGr : BYTE
  base2 : BYTE
deriving DecidableEq, Repr

/-- A byte of the packed structure. -/
def SEGMENT_DESCRIPTOR.byte (d : SEGMENT_DESCRIPTOR) : Nat → BYTE
  | 0 => d.limit.extractLsb' 0 8
  | 1 => d.limit.extractLsb' 8 8
  | 2 => d.base0.extractLsb' 0 8
  | 3 => d.base0.extractLsb' 8 8
  | 4 => d.base1
  | 5 => d.access
  | 6 => d.limitGr
  | _ => d.base2

/-- The entries of the GDT, in order. -/
inductive GdtEntry where
  | null
  | kcode
  | kdata
  | ucode
  | udata
  | tssd
  | ldt
  | pnpcs
  | pnpOsDs
  | pnpBiosDs
deriving DecidableEq, Repr

/-- An enumerator's value. -/
def GdtEntry.val (g : GdtEntry) : Nat := g.ctorIdx

def GDT_ENTRIES : Nat := 10

def LDT_SIZE : Nat := 8192

def TYPE_TSS : BYTE := 0x9

def TYPE_DATA : BYTE := 0x12

def TYPE_LDT : BYTE := 0x2

def TYPE_CODE : BYTE := 0x1B

/-- `ACCESS_RIGHTS`. The ring is shifted by six. -/
def accessRights (present ring type : BYTE) : BYTE := present <<< 7 ||| ring <<< 6 ||| type

/-- Offsets in `COMPLETE_TSS`, after its twenty-five dwords, and its size. -/
def iobpOffset : Nat := 4 * 25

def iopbAllowAll : Nat := iobpOffset + 2

def iopbDenyAll : Nat := iopbAllowAll + 8192

def sizeofTss : Nat := iopbDenyAll + 8192

/-- Offsets in `IA32_STRUCT`. -/
def ldtOffset : Nat := 8 * GDT_ENTRIES

def idtOffset : Nat := ldtOffset + 8 * LDT_SIZE

def tssOffset : Nat := idtOffset + 8 * 256

/-- The structure is padded to a multiple of 64 bytes. -/
def sizeofIa32Struct : Nat := (tssOffset + sizeofTss + 63) / 64 * 64

/-- The initialiser of the GDT. -/
def gdtInit : GdtEntry → SEGMENT_DESCRIPTOR
  | .null => ⟨0, 0, 0, 0, 0, 0⟩
  | .kcode => ⟨0xFFFF, 0, 0, accessRights 1 0 TYPE_CODE, 0xCF, 0⟩
  | .kdata => ⟨0xFFFF, 0, 0, accessRights 1 0 TYPE_DATA, 0xCF, 0⟩
  | .ucode => ⟨0xFFFF, 0, 0, accessRights 1 3 TYPE_CODE, 0xCF, 0⟩
  | .udata => ⟨0xFFFF, 0, 0, accessRights 1 3 TYPE_DATA, 0xCF, 0⟩
  | .tssd => ⟨BitVec.ofNat 16 (sizeofTss - 1), 0, 0, accessRights 1 3 TYPE_TSS, 0, 0⟩
  | .ldt => ⟨BitVec.ofNat 16 (LDT_SIZE - 1), 0, 0, accessRights 1 0 TYPE_LDT, 0, 0⟩
  | .pnpcs => ⟨0xFFFF, 0, 0, accessRights 1 0 TYPE_CODE, 0, 0⟩
  | .pnpBiosDs => ⟨0xFFFF, 0, 0, accessRights 1 0 TYPE_DATA, 0, 0⟩
  | .pnpOsDs => ⟨0xFFFF, 0, 0, accessRights 1 0 TYPE_DATA, 0, 0⟩

/-- The bytes the structure is loaded with. -/
def staticImage (k : Nat) : BYTE :=
  if k < ldtOffset then (gdtInit (.ofNat (k / 8))).byte (k % 8) else 0

/-- The loader has put the kernel in memory, with the structure at `base`. -/
def loadStruct (base : PTR) (m : Mem) : Mem := m.splice base sizeofIa32Struct staticImage

/-- The initialiser of `gdtr`, of which `_ia32_struct.gdt` is the first object. -/
def gdtrInit (base : PTR) : TableRegister := ⟨BitVec.ofNat 16 (8 * GDT_ENTRIES - 1), base⟩

/-- The initialiser of `idtr`. -/
def idtrInit (base : PTR) : TableRegister :=
  ⟨BitVec.ofNat 16 (256 * 8 - 1), base + BitVec.ofNat 32 idtOffset⟩

/-- `&_ia32_struct.gdt[g]`. -/
def gdtEntry (base : PTR) (g : GdtEntry) : PTR := base + BitVec.ofNat 32 (8 * g.val)

/-- `&_ia32_struct.ldt`. -/
def ldtAt (base : PTR) : PTR := base + BitVec.ofNat 32 ldtOffset

/-- `&_ia32_struct.tss`. -/
def tssAt (base : PTR) : PTR := base + BitVec.ofNat 32 tssOffset

/-- The fields of `_ia32_struct.tss` that the kernel's functions use. -/
def tssFields (base : PTR) (m : Mem) : Tss where
  esp0 := m.read32 (tssAt base + 4#32)
  ss0 := m.read16 (tssAt base + 8#32)
  iobpOff := m.read16 (tssAt base + BitVec.ofNat 32 iobpOffset)

/-- `_ia32_struct.idt[vector]`. -/
def idtEntry (base : PTR) (vector : BYTE) : PTR :=
  base + BitVec.ofNat 32 (idtOffset + 8 * vector.toNat)

/-- The interrupt descriptor table as a table. -/
def idtTable (base : PTR) (m : Mem) : IDT := fun vector =>
  let a := idtEntry base vector
  { offset15_0 := m.read16 a
    selector := m.read16 (a + 2#32)
    zero := m (a + 4#32)
    attr := m (a + 5#32)
    offset16_31 := m.read16 (a + 6#32) }

/-! ## Functions -/

/-- `AppendAddress`, from the instruction after the `call`. -/
def appendAddress (m : Machine) : Machine :=
  let m := m.pushReg .ebp
  let m := m.set .ebp (m.gpr .esp)
  let m := m.load .ebx (m.gpr .ebp + 8#32)
  let m := m.load16 .eax (m.gpr .ebp + 12#32)
  let m := m.store16 (m.gpr .ebx + 2#32) ((m.gpr .eax).setWidth 16)
  let m := m.load8 .eax (m.gpr .ebp + 14#32)
  let m := m.store8 (m.gpr .ebx + 4#32) ((m.gpr .eax).setWidth 8)
  let m := m.load8 .eax (m.gpr .ebp + 15#32)
  let m := m.store8 (m.gpr .ebx + 7#32) ((m.gpr .eax).setWidth 8)
  -- `leave`
  let m := m.set .esp (m.gpr .ebp)
  m.pop .ebp

/-- A C function's call of it: the arguments are on the stack, and the caller drops them. -/
def callAppendAddress (ret entry address : PTR) (m : Machine) : Machine :=
  ((m.push address).push entry |>.call ret appendAddress).drop 2

/-- `_SetIntVector`, in memory. -/
def setIntVectorAt (base : PTR) (vector attr : BYTE) (address : PTR) (m : Mem) : Mem :=
  let a := idtEntry base vector
  m.write8 (a + 5#32) attr
    |>.write16 (a + 0#32) ((address &&& 0xFFFF#32).setWidth 16)
    |>.write16 (a + 6#32) ((address >>> 16).setWidth 16)
    |>.write8 (a + 4#32) 0
    |>.write16 (a + 2#32) (GDT_KCODE <<< 3)

/-- `FillIDT`, in memory. -/
def fillIDTAt (layout : Layout) (base : PTR) (m : Mem) : Mem :=
  let m := (List.finRange 15).foldl
    (fun m v => setIntVectorAt base (exceptVector v) (0x80 ||| 0 <<< 4 ||| IDT_INT386)
      (layout.addr (.lowExcept (exceptName v))) m) m
  (List.finRange 16).foldl
    (fun m irq => setIntVectorAt base IRQ_BASE (0x80 ||| IDT_INT386) (layout.addr (.low irq)) m) m

/-- Where the kernel's data and stack are when a C function calls `AppendAddress`: the structure,
and ESP before the arguments. The four dwords a call takes are not in the structure. -/
structure StructSite where
  base : PTR
  esp : PTR
  apart : Mem.Apart base sizeofIa32Struct (esp - 16#32) 16

/-- `AppendAddress(&_ia32_struct.gdt[g], address)`. -/
def setGdtBase (g : GdtEntry) (ret address : PTR) (site : StructSite) (m : Machine) : Machine :=
  callAppendAddress ret (gdtEntry site.base g) address (m.set .esp site.esp)

/-- `PnSetBiosDsegBase`. -/
def pnSetBiosDsegBase : PTR → PTR → StructSite → Machine → Machine := setGdtBase .pnpBiosDs

def pnSetOsDsegBase : PTR → PTR → StructSite → Machine → Machine := setGdtBase .pnpOsDs

def pnSetBiosCsegBase : PTR → PTR → StructSite → Machine → Machine := setGdtBase .pnpcs

/-- The machine after `InitIA32`, with the two registers it has loaded. -/
structure Initialised where
  machine : Machine
  tr : Descriptor
  ldtr : Descriptor

/-- What `InitIA32` does once the two registers are loaded. -/
def initTables (layout : Layout) (base : PTR) (m : Mem) : Mem :=
  m.write32 (tssAt base + 8#32) (BitVec.ofNat 32 GdtEntry.kdata.val <<< 3)
    |>.fill (tssAt base + BitVec.ofNat 32 iopbDenyAll) 0x2000 0xFF
    |> fillIDTAt layout base

/-- `InitIA32`. The two addresses are those its calls return to. -/
def initIA32 (layout : Layout) (afterTss afterLdt : PTR) (site : StructSite) (m : Machine) :
    Option Initialised := do
  let base := site.base
  let m := setGdtBase .tssd afterTss (tssAt base) site m
  let (tr, mem) ← ltr base (BitVec.ofNat 16 GdtEntry.tssd.val <<< 3) m.mem
  let m := setGdtBase .ldt afterLdt (ldtAt base) site { m with mem := mem }
  let ldtr ← lldt base (BitVec.ofNat 16 GdtEntry.ldt.val <<< 3) m.mem
  return ⟨{ m with mem := initTables layout base m.mem }, tr, ldtr⟩

/-! ## AppendAddress -/

/-- What `AppendAddress` writes. -/
def appendedBase (entry address : PTR) (m : Mem) : Mem :=
  m.write16 (entry + 2#32) (address.setWidth 16)
    |>.write8 (entry + 4#32) (address.extractLsb' 16 8)
    |>.write8 (entry + 7#32) (address.extractLsb' 24 8)

section AppendAddress

variable {m : Machine} {entry address : PTR}

/-- A store into the descriptor leaves the dword argument on the stack alone. -/
theorem splice_argument {esp : PTR} (hapart : Mem.Apart entry 8 esp 16) (q : Mem) {e w i : Nat}
    (f : Nat → BYTE) (hew : e + w ≤ 8) (hi : i < 4) :
    q.splice (entry + BitVec.ofNat 32 e) w f (esp + 12#32 + BitVec.ofNat 32 i) =
      q (esp + 12#32 + BitVec.ofNat 32 i) := by
  have hdist : esp + 12#32 + BitVec.ofNat 32 i - esp = 12#32 + BitVec.ofNat 32 i := by grind
  refine hapart.splice hew ?_
  rw [hdist, BitVec.toNat_add, BitVec.toNat_ofNat, BitVec.toNat_ofNat]
  omega

/-- The dword argument from below, in a memory that leaves it alone. -/
theorem argument_byte {p : Machine} {q : Mem} (harg : p.mem.read32 (p.gpr .esp + 12#32) = address)
    {i : Nat} (hi : i < 4) (hkeep : q (p.gpr .esp + 12#32 + BitVec.ofNat 32 i) =
      p.mem (p.gpr .esp + 12#32 + BitVec.ofNat 32 i)) :
    q (p.gpr .esp + BitVec.ofNat 32 (12 + i)) = address.extractLsb' (8 * i) 8 := by
  rw [← Mem.add_ofNat_add, ← harg]
  exact hkeep.trans (Mem.byte_eq_read32 p.mem _ hi)

/-- Memory after the base has been put into a descriptor. The stack of the routine is required to
lie apart from the descriptor, as its push would else overwrite it. -/
theorem appendAddress_mem (hentry : m.stack 1 = entry) (haddress : m.stack 2 = address)
    (hapart : Mem.Apart entry 8 (m.gpr .esp - 4#32) 16) :
    (appendAddress m).mem = appendedBase entry address (m.pushReg .ebp).mem := by
  obtain ⟨p, hp⟩ : ∃ p, p = m.pushReg .ebp := ⟨_, rfl⟩
  have hesp : p.gpr .esp = m.gpr .esp - 4#32 := by
    rw [hp]
    exact push_gpr _ _ _
  have hebx : p.mem.read32 (p.gpr .esp + 8#32) = entry := by
    rw [hp]
    exact (stack_push_succ m _ (i := 1) (by decide)).trans hentry
  have harg : p.mem.read32 (p.gpr .esp + 12#32) = address := by
    rw [hp]
    exact (stack_push_succ m _ (i := 2) (by decide)).trans haddress
  have hlow : p.mem.read16 (p.gpr .esp + 12#32) = address.setWidth 16 := by
    rw [Mem.read16_eq_read32, harg]
  rw [← hesp] at hapart
  obtain ⟨m₁, hm₁⟩ : ∃ m₁, m₁ = p.mem.write16 (entry + 2#32) (address.setWidth 16) := ⟨_, rfl⟩
  obtain ⟨m₂, hm₂⟩ : ∃ m₂, m₂ = m₁.write8 (entry + 4#32) (address.extractLsb' 16 8) := ⟨_, rfl⟩
  have hfirst : ∀ i < 4, m₁ (p.gpr .esp + 12#32 + BitVec.ofNat 32 i) =
      p.mem (p.gpr .esp + 12#32 + BitVec.ofNat 32 i) := by
    intro i hi
    rw [hm₁]
    exact splice_argument hapart p.mem _ (by decide) hi
  have hsecond : ∀ i < 4, m₂ (p.gpr .esp + 12#32 + BitVec.ofNat 32 i) =
      p.mem (p.gpr .esp + 12#32 + BitVec.ofNat 32 i) := by
    intro i hi
    rw [hm₂]
    exact (splice_argument hapart m₁ _ (by decide) hi).trans (hfirst i hi)
  have h14 : m₁ (p.gpr .esp + 14#32) = address.extractLsb' 16 8 :=
    argument_byte harg (i := 2) (by decide) (hfirst 2 (by decide))
  have h15 : m₂ (p.gpr .esp + 15#32) = address.extractLsb' 24 8 :=
    argument_byte harg (i := 3) (by decide) (hsecond 3 (by decide))
  have hword : (((address.setWidth 16 : WORD).setWidth 32).setWidth 16 : WORD) =
      address.setWidth 16 := by
    simp
  have hzero : ∀ b : BYTE, ((b.setWidth 32).setWidth 8 : BYTE) = b := by
    intro b
    simp
  unfold appendedBase
  simp only [appendAddress, pop_mem, set_mem, store8_mem, load8_mem, store16_mem, load16_mem,
    load_mem, set_gpr, store8_gpr, store16_gpr, load_gpr, load16_gpr, load8_gpr, reduceCtorEq,
    if_true, if_false]
  rw [← hp, hebx, hlow, hword, ← hm₁, h14, hzero, ← hm₂, h15, hzero]

/-- A byte of the result depends on the same byte of memory before, which the routine passes on or
replaces. -/
theorem appendedBase_congr {m m' : Mem} {x : PTR} (h : m' x = m x) :
    appendedBase entry address m' x = appendedBase entry address m x := by
  unfold appendedBase Mem.write8 Mem.write16
  exact Mem.splice_congr (Mem.splice_congr (Mem.splice_congr h))

/-- A call writes the four bytes of the base, and sixteen bytes of stack. -/
theorem callAppendAddress_mem (ret : PTR)
    (hapart : Mem.Apart entry 8 (m.gpr .esp - 16#32) 16) {x : PTR}
    (hx : 16 ≤ (x - (m.gpr .esp - 16#32)).toNat) :
    (callAppendAddress ret entry address m).mem x = appendedBase entry address m.mem x := by
  let c := ((m.push address).push entry).push ret
  have hpushed : Pushed 4 m (c.pushReg .ebp) :=
    (Pushed.refl m).push _ |>.push _ |>.push _ |>.push _
  have hbottom : (c.pushReg .ebp).gpr .esp = m.gpr .esp - 16#32 := hpushed.esp
  have hesp : c.gpr .esp - 4#32 = m.gpr .esp - 16#32 := by
    rw [← hbottom]
    exact ((push_gpr c .esp (c.gpr .ebp)).trans (if_pos rfl)).symm
  have hargs : c.stack 1 = entry ∧ c.stack 2 = address := by
    show (((m.push address).push entry).push ret).stack (0 + 1) = entry ∧
      (((m.push address).push entry).push ret).stack (1 + 1) = address
    rw [stack_push_succ _ _ (by decide), stack_push_succ _ _ (by decide),
      stack_push_succ _ _ (i := 0) (by decide)]
    exact ⟨stack_push_zero _ _, stack_push_zero _ _⟩
  have hmem : (callAppendAddress ret entry address m).mem = appendedBase entry address
      (c.pushReg .ebp).mem := by
    rw [← appendAddress_mem hargs.1 hargs.2 (by rw [hesp]; exact hapart)]
    rfl
  rw [hmem]
  refine appendedBase_congr (hpushed.mem x ?_)
  rw [hbottom]
  exact hx

/-- No more than the eight bytes of the descriptor are written. -/
theorem appendedBase_within (m : Mem) : Mem.Within entry 8 m (appendedBase entry address m) := by
  have hwithin : ∀ (q : Mem) {e w : Nat} (f : Nat → BYTE), e + w ≤ 8 →
      Mem.Within entry 8 q (q.splice (entry + BitVec.ofNat 32 e) w f) := by
    intro q e w f hew
    refine (Mem.splice_within q _ w f).mono ?_
    have hdist : entry + BitVec.ofNat 32 e - entry = BitVec.ofNat 32 e := by grind
    rw [hdist, BitVec.toNat_ofNat]
    omega
  unfold appendedBase Mem.write16 Mem.write8
  exact (hwithin m (e := 2) (w := 2) _ (by decide)).trans
    ((hwithin _ (e := 4) (w := 1) _ (by decide)).trans (hwithin _ (e := 7) (w := 1) _ (by decide)))

/-- The routine leaves the stack where it found it. -/
theorem appendAddress_esp : (appendAddress m).gpr .esp = m.gpr .esp := by
  simp only [appendAddress, pop, drop, pushReg, set_gpr, load8_gpr, store8_gpr, load16_gpr,
    store16_gpr, load_gpr, push_gpr, if_true, reduceCtorEq, if_false]
  bv_omega

/-- It uses EAX and EBX. EBP is saved. -/
theorem appendAddress_of_not_mem {r : Reg} (hr : r ∉ [Reg.eax, .ebx, .ebp, .esp]) :
    (appendAddress m).gpr r = m.gpr r := by
  simp only [List.mem_cons, List.not_mem_nil, or_false, not_or] at hr
  obtain ⟨heax, hebx, hebp, hesp⟩ := hr
  simp [appendAddress, pop, drop, pushReg, heax, hebx, hebp, hesp]

/-- EBX is not what it was: it is the argument of the caller when the routine returns, whatever the
caller had there. -/
theorem appendAddress_ebx : (appendAddress m).gpr .ebx = m.stack 1 := by
  refine Eq.trans ?_ (stack_push_succ m (m.gpr .ebp) (i := 1) (by decide))
  simp [appendAddress, pop, drop, pushReg, stack]

/-- What it has pushed, its return address and its arguments are still there at its `ret`. -/
theorem appendAddress_frame (hapart : Mem.Apart (m.stack 1) 8 (m.gpr .esp - 4#32) 16) {i : Nat}
    (hi : i < 4) :
    (appendAddress m).mem.read32 ((m.pushReg .ebp).gpr .esp + BitVec.ofNat 32 (4 * i)) =
      (m.pushReg .ebp).stack i := by
  have hesp : (m.pushReg .ebp).gpr .esp = m.gpr .esp - 4#32 := push_gpr _ _ _
  unfold stack
  rw [appendAddress_mem rfl rfl hapart, hesp]
  exact (appendedBase_within _).read32_apart hapart.symm (by omega)

/-- EBP is popped as it was pushed, for the descriptor is apart from the stack. -/
theorem appendAddress_ebp (hapart : Mem.Apart (m.stack 1) 8 (m.gpr .esp - 4#32) 16) :
    (appendAddress m).gpr .ebp = m.gpr .ebp := by
  have hframe := appendAddress_frame hapart (i := 0) (by decide)
  refine Eq.trans ?_ (hframe.trans (stack_push_zero m (m.gpr .ebp)))
  simp [appendAddress, pop, drop, pushReg, stack]

/-- For the same reason the return address is still there. -/
theorem appendAddress_ret (hapart : Mem.Apart (m.stack 1) 8 (m.gpr .esp - 4#32) 16) :
    (appendAddress m).stack 0 = m.stack 0 := by
  have hframe := appendAddress_frame hapart (i := 1) (by decide)
  have hplace : (m.pushReg .ebp).gpr .esp + BitVec.ofNat 32 (4 * 1) =
      m.gpr .esp + BitVec.ofNat 32 (4 * 0) := by
    have hesp : (m.pushReg .ebp).gpr .esp = m.gpr .esp - 4#32 := push_gpr _ _ _
    rw [hesp]
    bv_omega
  rw [hplace] at hframe
  unfold stack
  rw [appendAddress_esp, hframe]
  exact stack_push_succ m (m.gpr .ebp) (i := 0) (by decide)

/-- The bytes of the descriptor afterwards: four of them are the address, and the others are
left. -/
theorem appendedBase_byte (m : Mem) {k : Nat} (hk : k < 8) :
    (appendedBase entry address m).byte entry k =
      if k = 7 then address.extractLsb' 24 8
      else if k = 4 then address.extractLsb' 16 8
      else if 2 ≤ k ∧ k < 4 then (address.setWidth 16).extractLsb' (8 * (k - 2)) 8
      else m.byte entry k := by
  unfold appendedBase
  rw [Mem.byte_write8 _ (by decide) (by omega), Mem.byte_write8 _ (by decide) (by omega),
    Mem.byte_write16 _ (by decide) (by omega)]

/-- The descriptor has the address for its base, and is otherwise as it was. -/
theorem descriptor_appendedBase (m : Mem) :
    (appendedBase entry address m).descriptor entry =
      { m.descriptor entry with base := address } := by
  have hbase : address.extractLsb' 24 8 ++ address.extractLsb' 16 8 ++
      (address.setWidth 16).extractLsb' 8 8 ++ (address.setWidth 16).extractLsb' 0 8 = address := by
    rw [BitVec.extractLsb'_setWidth_of_le (by decide),
      BitVec.extractLsb'_setWidth_of_le (by decide)]
    exact Mem.extractLsb'_append address
  unfold Mem.descriptor Descriptor.decode
  simp (disch := decide) only [appendedBase_byte, Nat.reduceEqDiff, if_true, if_false,
    Nat.reduceLeDiff, Nat.reduceLT, and_true, and_false, Nat.reduceSub, Nat.reduceMul]
  rw [hbase]

end AppendAddress
/-! ## The interrupt descriptor table -/

section Idt

variable (base : PTR) (vector attr : BYTE) (address : PTR) (m : Mem)

/-- A gate is eight bytes, and its store touches no other gate. -/
theorem setIntVectorAt_within :
    Mem.Within (idtEntry base vector) 8 m (setIntVectorAt base vector attr address m) := by
  have hwithin : ∀ (q : Mem) {e w : Nat} (f : Nat → BYTE), e + w ≤ 8 →
      Mem.Within (idtEntry base vector) 8 q
        (q.splice (idtEntry base vector + BitVec.ofNat 32 e) w f) := by
    intro q e w f hew
    have hobject := Mem.splice_within_object q (idtEntry base vector) (j := 0) f (Nat.zero_le e)
      (by omega : e + w ≤ 0 + 8) (by decide)
    rw [BitVec.add_zero] at hobject
    exact hobject
  unfold setIntVectorAt Mem.write16 Mem.write8
  exact (hwithin m (e := 5) (w := 1) _ (by decide)).trans
    ((hwithin _ (e := 0) (w := 2) _ (by decide)).trans
      ((hwithin _ (e := 6) (w := 2) _ (by decide)).trans
        ((hwithin _ (e := 4) (w := 1) _ (by decide)).trans
          (hwithin _ (e := 2) (w := 2) _ (by decide)))))

/-- Entries of two vectors have no byte in common, so that the order in which they are filled is of
no matter. -/
theorem idtEntry_apart {v w : BYTE} (hne : w ≠ v) :
    Mem.Apart (idtEntry base w) 8 (idtEntry base v) 8 := by
  intro i hi
  have hval : w.toNat ≠ v.toNat := fun h => hne (BitVec.eq_of_toNat_eq h)
  have hv := v.isLt
  have hw := w.isLt
  unfold idtEntry
  rw [Mem.add_ofNat_add, Mem.byte_distance base]
  · unfold idtOffset ldtOffset LDT_SIZE GDT_ENTRIES
    omega
  · unfold idtOffset ldtOffset LDT_SIZE GDT_ENTRIES
    omega
  · unfold idtOffset ldtOffset LDT_SIZE GDT_ENTRIES
    omega

/-- A descriptor of the table, by the bytes of memory that it is read from. -/
theorem idtTable_apply (w : BYTE) : idtTable base m w =
    { offset15_0 := m.byte (idtEntry base w) 1 ++ m.byte (idtEntry base w) 0
      selector := m.byte (idtEntry base w) 3 ++ m.byte (idtEntry base w) 2
      zero := m.byte (idtEntry base w) 4
      attr := m.byte (idtEntry base w) 5
      offset16_31 := m.byte (idtEntry base w) 7 ++ m.byte (idtEntry base w) 6 } := by
  unfold idtTable
  dsimp only
  rw [Mem.read16_eq_byte, Mem.read16_add, Mem.read16_add]
  rfl

/-- An entry of the IDT depends on its own eight bytes. -/
theorem idtTable_congr {base : PTR} {m m' : Mem} {w : BYTE}
    (h : ∀ i < 8, m'.byte (idtEntry base w) i = m.byte (idtEntry base w) i) :
    idtTable base m' w = idtTable base m w := by
  rw [idtTable_apply, idtTable_apply, h 0 (by decide), h 1 (by decide), h 2 (by decide),
    h 3 (by decide), h 4 (by decide), h 5 (by decide), h 6 (by decide), h 7 (by decide)]

/-- In the table, `_SetIntVector` is an assignment to one entry. The model of the table is used from
here on. -/
theorem idtTable_setIntVectorAt :
    idtTable base (setIntVectorAt base vector attr address m) =
      setIntVector vector attr address (idtTable base m) := by
  funext w
  by_cases hw : w = vector
  · subst hw
    rw [setIntVector, Function.update_self, idtTable_apply]
    unfold setIntVectorAt
    simp (disch := decide) only [Mem.byte_write8, Mem.byte_write16, Nat.reduceEqDiff, if_true,
      if_false, Nat.reduceAdd, Nat.reduceLeDiff, Nat.reduceLT, and_true, and_false, Nat.reduceSub,
      Nat.reduceMul, Mem.extractLsb'_append16]
    rfl
  · have hkeep : ∀ i < 8, (setIntVectorAt base vector attr address m).byte (idtEntry base w) i =
        m.byte (idtEntry base w) i := fun i hi =>
      (setIntVectorAt_within base vector attr address m).byte (idtEntry_apart base hw) hi
    rw [setIntVector, Function.update_of_ne hw]
    exact idtTable_congr hkeep

/-- Any number of entries, each of them assigned in the table, and no byte outside the table
written. -/
theorem setIntVectorAt_foldl {ι : Type} (l : List ι) (key : ι → BYTE) (val : ι → PTR) :
    idtTable base (l.foldl (fun m x => setIntVectorAt base (key x) attr (val x) m) m) =
        l.foldl (fun t x => setIntVector (key x) attr (val x) t) (idtTable base m) ∧
      Mem.Within (base + BitVec.ofNat 32 idtOffset) (8 * 256) m
        (l.foldl (fun m x => setIntVectorAt base (key x) attr (val x) m) m) := by
  induction l generalizing m with
  | nil => exact ⟨rfl, Mem.Within.refl _ _ _⟩
  | cons x l ih =>
    obtain ⟨htable, hwithin⟩ := ih (setIntVectorAt base (key x) attr (val x) m)
    rw [List.foldl_cons, List.foldl_cons, htable, idtTable_setIntVectorAt]
    refine ⟨rfl, Mem.Within.trans ?_ hwithin⟩
    refine (setIntVectorAt_within base (key x) attr (val x) m).mono ?_
    have hkey := (key x).isLt
    unfold idtEntry
    rw [Mem.byte_distance base]
    · omega
    · decide
    · unfold idtOffset ldtOffset LDT_SIZE GDT_ENTRIES
      omega

/-- `FillIDT` in memory is `FillIDT` of the table, and writes nothing but the table. -/
theorem fillIDTAt_spec (layout : Layout) :
    idtTable base (fillIDTAt layout base m) = fillIDT layout (idtTable base m) ∧
      Mem.Within (base + BitVec.ofNat 32 idtOffset) (8 * 256) m (fillIDTAt layout base m) := by
  obtain ⟨hexcept, hexceptWithin⟩ := setIntVectorAt_foldl base (0x80 ||| 0 <<< 4 ||| IDT_INT386) m
    (List.finRange 15) exceptVector (fun v => layout.addr (.lowExcept (exceptName v)))
  obtain ⟨hirq, hirqWithin⟩ := setIntVectorAt_foldl base (0x80 ||| IDT_INT386)
    ((List.finRange 15).foldl (fun m v => setIntVectorAt base (exceptVector v)
      (0x80 ||| 0 <<< 4 ||| IDT_INT386) (layout.addr (.lowExcept (exceptName v))) m) m)
    (List.finRange 16) (fun _ => IRQ_BASE) (fun irq => layout.addr (.low irq))
  refine ⟨?_, hexceptWithin.trans hirqWithin⟩
  unfold fillIDTAt fillIDT
  dsimp only
  rw [hirq, hexcept]
  rfl

end Idt
section SetGdtBase

variable (g : GdtEntry) (ret address : PTR) (site : StructSite) (m : Machine)

/-- The GDT has ten entries. -/
theorem GdtEntry.val_lt (g : GdtEntry) : g.val < 10 := by
  cases g <;> decide

/-- No two names of the GDT are for one entry. -/
theorem GdtEntry.val_injective : Function.Injective GdtEntry.val := by
  intro g h hval
  cases g <;> cases h <;> first | rfl | exact absurd hval (by decide)

/-- The size of `KERNEL_IA32_STRUCT` as the compiler lays it out. -/
theorem sizeofIa32Struct_eq : sizeofIa32Struct = 84160 := rfl

/-- A byte of the structure after the base of a descriptor was set, by what the assembly routine
writes. -/
theorem setGdtBase_byte {k : Nat} (hk : k < sizeofIa32Struct) :
    (setGdtBase g ret address site m).mem.byte site.base k =
      (appendedBase (gdtEntry site.base g) address m.mem).byte site.base k := by
  have hg := g.val_lt
  refine callAppendAddress_mem ret ?_ ?_
  · rw [set_gpr, if_pos rfl]
    exact site.apart.sub (by rw [sizeofIa32Struct_eq]; omega)
  · rw [set_gpr, if_pos rfl]
    exact site.apart k hk

/-- Bytes of the structure outside that descriptor are as before. -/
theorem setGdtBase_outside {k : Nat} (hk : k < sizeofIa32Struct)
    (hout : k < 8 * g.val ∨ 8 * g.val + 8 ≤ k) :
    (setGdtBase g ret address site m).mem.byte site.base k = m.mem.byte site.base k := by
  have hg := g.val_lt
  rw [sizeofIa32Struct_eq] at hk
  rw [setGdtBase_byte g ret address site m hk]
  refine appendedBase_within m.mem _ ?_
  unfold gdtEntry
  rw [Mem.byte_distance site.base (by omega) (by omega)]
  omega

/-- The descriptor takes the address for its base, and the others are as before. -/
theorem setGdtBase_descriptor (h : GdtEntry) :
    (setGdtBase g ret address site m).mem.descriptor (gdtEntry site.base h) =
      if h = g then { m.mem.descriptor (gdtEntry site.base h) with base := address }
      else m.mem.descriptor (gdtEntry site.base h) := by
  have hh := h.val_lt
  have hfit : ∀ i < 8, 8 * h.val + i < sizeofIa32Struct := by
    intro i hi
    rw [sizeofIa32Struct_eq]
    omega
  by_cases hgh : h = g
  · subst hgh
    rw [if_pos rfl, ← descriptor_appendedBase]
    refine Mem.descriptor_congr fun i hi => ?_
    unfold gdtEntry
    rw [Mem.byte_add, Mem.byte_add]
    exact setGdtBase_byte h ret address site m (hfit i hi)
  · have hval : h.val ≠ g.val := fun hval => hgh (GdtEntry.val_injective hval)
    rw [if_neg hgh]
    refine Mem.descriptor_congr fun i hi => ?_
    unfold gdtEntry
    rw [Mem.byte_add, Mem.byte_add]
    exact setGdtBase_outside g ret address site m (hfit i hi) (by omega)

/-- Memory that is neither the structure nor the stack is as before. -/
theorem setGdtBase_elsewhere {x : PTR} (hstack : 16 ≤ (x - (site.esp - 16#32)).toNat)
    (hstruct : sizeofIa32Struct ≤ (x - site.base).toNat) :
    (setGdtBase g ret address site m).mem x = m.mem x := by
  have hg := g.val_lt
  rw [sizeofIa32Struct_eq] at hstruct
  have hbase : (m.set .esp site.esp).gpr .esp = site.esp := (set_gpr _ _ _ _).trans (if_pos rfl)
  have hcall : (setGdtBase g ret address site m).mem x =
      appendedBase (gdtEntry site.base g) address m.mem x := by
    refine callAppendAddress_mem ret ?_ ?_
    · rw [hbase]
      exact site.apart.sub (by rw [sizeofIa32Struct_eq]; omega)
    · rw [hbase]
      exact hstack
  rw [hcall]
  refine appendedBase_within m.mem x ?_
  have hdist : x - gdtEntry site.base g = x - site.base - BitVec.ofNat 32 (8 * g.val) := by
    unfold gdtEntry
    grind
  have hlt := (x - site.base).isLt
  rw [hdist, BitVec.toNat_sub, BitVec.toNat_ofNat]
  omega

end SetGdtBase

/-! ## InitIA32 -/

/-- The machine `InitIA32` starts in. -/
def StructSite.loaded (site : StructSite) (m : Machine) : Machine :=
  { m with mem := loadStruct site.base m.mem }

/-- The initialiser of an entry, as the processor reads it. -/
def gdtStatic (g : GdtEntry) : Descriptor := .decode (gdtInit g).byte

/-- And the entry after `InitIA32`: two have their base, and the task state segment is busy. -/
def gdtAfterInit (base : PTR) : GdtEntry → Descriptor
  | .tssd =>
    { gdtStatic .tssd with base := tssAt base, type := (gdtStatic .tssd).type ||| 2 }
  | .ldt => { gdtStatic .ldt with base := ldtAt base }
  | g => gdtStatic g

/-- A byte of the task state segment after `InitIA32`. -/
def tssAfterInit (k : Nat) : BYTE :=
  if iopbDenyAll ≤ k then 0xFF
  else if 8 ≤ k ∧ k < 12 then (0x10#32).extractLsb' (8 * (k - 8)) 8
  else 0

structure InitSpec (layout : Layout) (base : PTR) (i : Initialised) : Prop where
  gdt : ∀ g, i.machine.mem.descriptor (gdtEntry base g) = gdtAfterInit base g
  tr : i.tr = { gdtStatic .tssd with base := tssAt base }
  ldtr : i.ldtr = gdtAfterInit base .ldt
  idt : idtTable base i.machine.mem = fillIDT layout .zero
  tss : ∀ k < sizeofTss, i.machine.mem.byte (tssAt base) k = tssAfterInit k

/-- A byte of the structure at the start of the kernel is the one its initialiser gives. -/
theorem loaded_byte (site : StructSite) (m : Machine) {k : Nat} (hk : k < sizeofIa32Struct) :
    (site.loaded m).mem.byte site.base k = staticImage k := by
  have hk' : k < 2 ^ 32 := Nat.lt_trans hk (by decide)
  exact (Mem.byte_splice_self m.mem site.base staticImage (by decide) (by decide) hk').trans
    (if_pos hk)

/-- The GDT is at the beginning of the structure. -/
theorem gdtEntry_byte (m : Mem) (base : PTR) (g : GdtEntry) (i : Nat) :
    m.byte (gdtEntry base g) i = m.byte base (8 * g.val + i) := Mem.byte_add _ _ _ _

/-- A descriptor of the GDT at the start is the static one. Those that need an address have a base
of zero at this time. -/
theorem loaded_descriptor (site : StructSite) (m : Machine) (g : GdtEntry) :
    (site.loaded m).mem.descriptor (gdtEntry site.base g) = gdtStatic g := by
  have hg := g.val_lt
  have hof : GdtEntry.ofNat g.val = g := by
    cases g <;> rfl
  refine Descriptor.decode_congr fun i hi => ?_
  rw [gdtEntry_byte, loaded_byte site m (by rw [sizeofIa32Struct_eq]; omega)]
  unfold staticImage
  have hdiv : (8 * g.val + i) / 8 = g.val := by omega
  have hmod : (8 * g.val + i) % 8 = i := by omega
  rw [if_pos (by unfold ldtOffset GDT_ENTRIES; omega), hdiv, hmod, hof]

/-- Writes above the GDT leave its descriptors, which are the first thing in the structure. -/
theorem descriptor_of_within {base : PTR} {j n : Nat} {m m' : Mem}
    (h : Mem.Within (base + BitVec.ofNat 32 j) n m m') (hj : ldtOffset ≤ j) (hn : j + n ≤ 2 ^ 32)
    (g : GdtEntry) : m'.descriptor (gdtEntry base g) = m.descriptor (gdtEntry base g) := by
  have hg := g.val_lt
  unfold ldtOffset GDT_ENTRIES at hj
  exact Mem.descriptor_congr fun i hi =>
    h.byte (Mem.apart_object base (by omega) (by omega) hn) hi

/-- Memory once SS0 and the second map are set. -/
def tssPrepared (base : PTR) (m : Mem) : Mem :=
  (m.write32 (tssAt base + 8#32) (BitVec.ofNat 32 GdtEntry.kdata.val <<< 3)).fill
    (tssAt base + BitVec.ofNat 32 iopbDenyAll) 0x2000 0xFF

/-- The task state segment before the IDT is filled: the permission map is all ones, SS0 is set, and
every other byte keeps its value. -/
theorem tssPrepared_byte (base : PTR) (m : Mem) {k : Nat} (hk : k < sizeofIa32Struct) :
    (tssPrepared base m).byte base k =
      if tssOffset + iopbDenyAll ≤ k ∧ k < tssOffset + iopbDenyAll + 0x2000 then 0xFF
      else if tssOffset + 8 ≤ k ∧ k < tssOffset + 8 + 4 then
        (0x10#32).extractLsb' (8 * (k - (tssOffset + 8))) 8
      else m.byte base k := by
  have hk' : k < 2 ^ 32 := Nat.lt_trans hk (by decide)
  unfold tssPrepared tssAt
  rw [Mem.add_ofNat_add base tssOffset 8, Mem.add_ofNat_add,
    Mem.byte_fill _ (by decide) (by decide) hk', Mem.byte_write32 _ (by decide) hk']
  rfl

/-- Below the task state segment nothing is set, the GDT and the IDT among it. -/
theorem tssPrepared_byte_of_lt (base : PTR) (m : Mem) {k : Nat} (hk : k < tssOffset) :
    (tssPrepared base m).byte base k = m.byte base k := by
  have hk' : k < sizeofIa32Struct := Nat.lt_trans hk (by decide)
  rw [tssPrepared_byte base m hk', if_neg (by omega), if_neg (by omega)]

section Tables

variable (layout : Layout) (base : PTR) (m : Mem)

/-- The tables are prepared in two parts, first the task state segment and then the IDT. -/
theorem initTables_eq : initTables layout base m = fillIDTAt layout base (tssPrepared base m) := rfl

/-- Neither of them is the GDT. -/
theorem initTables_descriptor (g : GdtEntry) :
    (initTables layout base m).descriptor (gdtEntry base g) = m.descriptor (gdtEntry base g) := by
  obtain ⟨_, hwithin⟩ := fillIDTAt_spec base (tssPrepared base m) layout
  rw [initTables_eq, descriptor_of_within hwithin (by decide) (by decide)]
  refine Mem.descriptor_congr fun i hi => ?_
  have hg := g.val_lt
  have hoffset : tssOffset = 67664 := rfl
  rw [gdtEntry_byte, gdtEntry_byte, tssPrepared_byte_of_lt base m (by omega)]

/-- The IDT that is made is the one `fillIDT` specifies over an empty table. It rests on the premise
that the structure was zero past the GDT. -/
theorem initTables_idt (hzero : ∀ k, ldtOffset ≤ k → k < sizeofIa32Struct → m.byte base k = 0) :
    idtTable base (initTables layout base m) = fillIDT layout .zero := by
  have hoffsets : idtOffset = 65616 ∧ tssOffset = 67664 ∧ ldtOffset = 80 := ⟨rfl, rfl, rfl⟩
  obtain ⟨htable, _⟩ := fillIDTAt_spec base (tssPrepared base m) layout
  have hempty : idtTable base (tssPrepared base m) = .zero := by
    funext w
    have hw := w.isLt
    have hclear : ∀ i < 8, (tssPrepared base m).byte (idtEntry base w) i = 0 := by
      intro i hi
      have hk : idtOffset + 8 * w.toNat + i < sizeofIa32Struct := by
        rw [sizeofIa32Struct_eq]
        omega
      unfold idtEntry
      rw [Mem.byte_add, tssPrepared_byte_of_lt base m (by omega)]
      exact hzero _ (by omega) hk
    rw [idtTable_apply, hclear 0 (by decide), hclear 1 (by decide), hclear 2 (by decide),
      hclear 3 (by decide), hclear 4 (by decide), hclear 5 (by decide), hclear 6 (by decide),
      hclear 7 (by decide)]
    rfl
  rw [initTables_eq, htable, hempty]

/-- Under the same premise the task state segment reads as `tssAfterInit` says, in each of its
bytes. -/
theorem initTables_tss (hzero : ∀ k, ldtOffset ≤ k → k < sizeofIa32Struct → m.byte base k = 0)
    {k : Nat} (hk : k < sizeofTss) :
    (initTables layout base m).byte (tssAt base) k = tssAfterInit k := by
  have hoffsets : idtOffset = 65616 ∧ tssOffset = 67664 ∧ ldtOffset = 80 ∧ iopbDenyAll = 8294 ∧
      sizeofTss = 16486 := ⟨rfl, rfl, rfl, rfl, rfl⟩
  obtain ⟨_, hwithin⟩ := fillIDTAt_spec base (tssPrepared base m) layout
  have hk' : tssOffset + k < sizeofIa32Struct := by
    rw [sizeofIa32Struct_eq]
    omega
  have hkeep : (fillIDTAt layout base (tssPrepared base m)).byte base (tssOffset + k) =
      (tssPrepared base m).byte base (tssOffset + k) := by
    refine hwithin _ ?_
    rw [Mem.byte_distance base (by omega) (by omega)]
    omega
  unfold tssAt
  rw [initTables_eq, Mem.byte_add, hkeep, tssPrepared_byte base m hk']
  unfold tssAfterInit
  by_cases hdeny : iopbDenyAll ≤ k
  · rw [if_pos (by omega), if_pos hdeny]
  · rw [if_neg (by omega), if_neg hdeny, hzero _ (by omega) hk']
    by_cases hss0 : 8 ≤ k ∧ k < 12
    · have hplace : tssOffset + k - (tssOffset + 8) = k - 8 := by omega
      rw [if_pos (by omega), if_pos hss0, hplace]
    · rw [if_neg (by omega), if_neg hss0]

end Tables

/-- The tables in the second page of the kernel, and the stack above them. -/
def StructSite.linked : StructSite where
  base := 0xC0101000#32
  esp := 0xC0180000#32
  apart := by
    intro i hi
    rw [sizeofIa32Struct_eq] at hi
    have hdist : 0xC0101000#32 + BitVec.ofNat 32 i - (0xC0180000#32 - 16#32) =
        BitVec.ofNat 32 i - 0x7EFF0#32 := by grind
    rw [hdist, BitVec.toNat_sub, BitVec.toNat_ofNat, BitVec.toNat_ofNat]
    omega

section Busy

variable (base : PTR) (m : Mem) (v : BYTE)

/-- The busy bit of the task's descriptor is in byte 45 of the structure. -/
theorem busy_byte {k : Nat} (hne : k ≠ 45) (hk : k < sizeofIa32Struct) :
    (m.write8 (gdtEntry base .tssd + 5#32) v).byte base k = m.byte base k := by
  have hbusy : gdtEntry base .tssd + 5#32 = base + BitVec.ofNat 32 45 :=
    Mem.add_ofNat_add base 40 5
  rw [sizeofIa32Struct_eq] at hk
  rw [hbusy, Mem.byte_write8 v (by decide) (by omega), if_neg hne]

/-- `ltr` marks the descriptor of the task busy and leaves the others. -/
theorem busy_descriptor {g : GdtEntry} (hg : g ≠ .tssd) :
    (m.write8 (gdtEntry base .tssd + 5#32) v).descriptor (gdtEntry base g) =
      m.descriptor (gdtEntry base g) := by
  have hval : g.val ≠ 5 := fun hval => hg (GdtEntry.val_injective hval)
  have hlt := g.val_lt
  refine Mem.descriptor_congr fun i hi => ?_
  have hfit : 8 * g.val + i < sizeofIa32Struct := by
    rw [sizeofIa32Struct_eq]
    omega
  rw [gdtEntry_byte, gdtEntry_byte]
  exact busy_byte base m v (by omega) hfit

end Busy

section Init

variable (layout : Layout) (afterTss afterLdt : PTR) (site : StructSite) (m : Machine)

/-- The task register is loaded with the base that was just set, and the descriptor is marked busy
in memory. -/
theorem init_ltr {m₁ : Machine} (hm₁ : m₁ = setGdtBase .tssd afterTss (tssAt site.base) site
      (site.loaded m)) :
    ∃ mem, ltr site.base (BitVec.ofNat 16 GdtEntry.tssd.val <<< 3) m₁.mem =
        some ({ gdtStatic .tssd with base := tssAt site.base }, mem) ∧
      (∀ g, mem.descriptor (gdtEntry site.base g) = if g = .tssd then gdtAfterInit site.base .tssd
        else gdtStatic g) ∧
      ∀ k, ldtOffset ≤ k → k < sizeofIa32Struct → mem.byte site.base k = 0 := by
  have hentry : selected site.base (BitVec.ofNat 16 GdtEntry.tssd.val <<< 3) =
      gdtEntry site.base .tssd := rfl
  have hdesc : m₁.mem.descriptor (gdtEntry site.base .tssd) =
      { gdtStatic .tssd with base := tssAt site.base } := by
    rw [hm₁, setGdtBase_descriptor, if_pos rfl, loaded_descriptor]
  refine ⟨m₁.mem.write8 (gdtEntry site.base .tssd + 5#32)
    (m₁.mem.byte (gdtEntry site.base .tssd) 5 ||| 2#8), ?_, fun g => ?_, fun k hlow hk => ?_⟩
  · rw [ltr_eq (by rw [hentry, hdesc]; rfl) (by rw [hentry, hdesc]; rfl), hentry, hdesc]
  · by_cases hg : g = .tssd
    · rw [if_pos hg, hg, Mem.descriptor_busy, hdesc]
      rfl
    · rw [if_neg hg, busy_descriptor site.base _ _ hg, hm₁, setGdtBase_descriptor, if_neg hg,
        loaded_descriptor]
  · have hout : 8 * GdtEntry.tssd.val + 8 ≤ k := Nat.le_trans (by decide) hlow
    have hne : k ≠ 45 := by
      unfold ldtOffset GDT_ENTRIES at hlow
      omega
    rw [busy_byte site.base _ _ hne hk, hm₁, setGdtBase_outside _ _ _ _ _ hk (Or.inr hout),
      loaded_byte site m hk]
    exact if_neg (Nat.not_lt.mpr hlow)

/-- The LDT register is loaded in the same way. Both descriptors are then as `gdtAfterInit` has
them. -/
theorem init_lldt {mem : Mem} {m₂ : Machine} (hmem : m₂.mem = mem)
    (hdesc : ∀ g, mem.descriptor (gdtEntry site.base g) = if g = .tssd then
      gdtAfterInit site.base .tssd else gdtStatic g) :
    (∀ g, (setGdtBase .ldt afterLdt (ldtAt site.base) site m₂).mem.descriptor
        (gdtEntry site.base g) = gdtAfterInit site.base g) ∧
      lldt site.base (BitVec.ofNat 16 GdtEntry.ldt.val <<< 3)
        (setGdtBase .ldt afterLdt (ldtAt site.base) site m₂).mem =
          some (gdtAfterInit site.base .ldt) := by
  have hentry : selected site.base (BitVec.ofNat 16 GdtEntry.ldt.val <<< 3) =
      gdtEntry site.base .ldt := rfl
  have hall : ∀ g, (setGdtBase .ldt afterLdt (ldtAt site.base) site m₂).mem.descriptor
      (gdtEntry site.base g) = gdtAfterInit site.base g := by
    intro g
    rw [setGdtBase_descriptor, hmem, hdesc]
    cases g <;> rfl
  refine ⟨hall, ?_⟩
  rw [lldt_eq (by rw [hentry, hall]; rfl) (by rw [hentry, hall]; rfl), hentry, hall]

/-- The outcome of `InitIA32` from the memory its calls of the assembly routine leave: all of
`InitSpec` follows from the descriptors there and from the zeros after them. -/
theorem initTables_spec {m₃ : Machine} (hdesc : ∀ g, m₃.mem.descriptor (gdtEntry site.base g) =
      gdtAfterInit site.base g)
    (hzero : ∀ k, ldtOffset ≤ k → k < sizeofIa32Struct → m₃.mem.byte site.base k = 0) :
    InitSpec layout site.base ⟨{ m₃ with mem := initTables layout site.base m₃.mem },
      { gdtStatic .tssd with base := tssAt site.base }, gdtAfterInit site.base .ldt⟩ where
  gdt g := (initTables_descriptor layout site.base m₃.mem g).trans (hdesc g)
  tr := rfl
  ldtr := rfl
  idt := initTables_idt layout site.base m₃.mem hzero
  tss _ hk := initTables_tss layout site.base m₃.mem hzero hk

/-- `InitIA32` comes to its end wherever the structure is, and leaves the tables so. Neither of the
two loads faults. -/
theorem initIA32_spec : ∃ i, initIA32 layout afterTss afterLdt site (site.loaded m) = some i ∧
    InitSpec layout site.base i := by
  obtain ⟨m₁, hm₁⟩ : ∃ m₁, m₁ = setGdtBase .tssd afterTss (tssAt site.base) site (site.loaded m) :=
    ⟨_, rfl⟩
  obtain ⟨mem, hltr, hdesc, hzero⟩ := init_ltr afterTss site m hm₁
  let m₂ : Machine := { m₁ with mem := mem }
  obtain ⟨m₃, hm₃⟩ : ∃ m₃, m₃ = setGdtBase .ldt afterLdt (ldtAt site.base) site m₂ := ⟨_, rfl⟩
  have hmem : m₂.mem = mem := rfl
  obtain ⟨hdesc₃, hlldt⟩ := init_lldt afterLdt site hmem hdesc
  rw [← hm₃] at hdesc₃ hlldt
  have hzero₃ : ∀ k, ldtOffset ≤ k → k < sizeofIa32Struct → m₃.mem.byte site.base k = 0 := by
    intro k hlow hk
    have hout : 8 * GdtEntry.ldt.val + 8 ≤ k := Nat.le_trans (by decide) hlow
    rw [hm₃, setGdtBase_outside _ _ _ _ _ hk (Or.inr hout)]
    exact hzero k hlow hk
  refine ⟨_, ?_, initTables_spec layout site hdesc₃ hzero₃⟩
  unfold initIA32
  dsimp only
  rw [← hm₁, hltr, Option.bind_eq_bind, Option.bind_some]
  dsimp only
  rw [← hm₃, hlldt, Option.bind_eq_bind, Option.bind_some]
  rfl

/-- `InitIA32` writes to the structure, and to sixteen bytes of the stack, and to nothing else. -/
theorem initIA32_elsewhere {i : Initialised} (h : initIA32 layout afterTss afterLdt site m = some i)
    {x : PTR} (hstack : 16 ≤ (x - (site.esp - 16#32)).toNat)
    (hstruct : sizeofIa32Struct ≤ (x - site.base).toNat) : i.machine.mem x = m.mem x := by
  obtain ⟨⟨tr, mem⟩, hltr, h⟩ := Option.bind_eq_some_iff.mp h
  obtain ⟨ldtr, _, h⟩ := Option.bind_eq_some_iff.mp h
  cases h
  have hsize := sizeofIa32Struct_eq
  have hkeep : ∀ {q q' : Mem} {j n : Nat}, Mem.Within (site.base + BitVec.ofNat 32 j) n q q' →
      j + n ≤ sizeofIa32Struct → q' x = q x := by
    intro q q' j n hwithin hfit
    have hdist : site.base + BitVec.ofNat 32 j - site.base = BitVec.ofNat 32 j := by grind
    have hpart : Mem.Within site.base (j + n) q q' := by
      refine hwithin.mono ?_
      rw [hdist, BitVec.toNat_ofNat]
      omega
    exact hpart x (by omega)
  -- the busy bit
  have hbusy : mem x = (setGdtBase .tssd afterTss (tssAt site.base) site m).mem x := by
    unfold ltr at hltr
    dsimp only at hltr
    split at hltr
    · cases hltr
      refine hkeep (j := 45) (n := 1) ?_ (by decide)
      have hplace : selected site.base (BitVec.ofNat 16 GdtEntry.tssd.val <<< 3) + 5#32 =
          site.base + BitVec.ofNat 32 45 := Mem.add_ofNat_add site.base 40 5
      rw [hplace]
      exact Mem.splice_within _ _ _ _
    · cases hltr
  -- the tables
  have htables : ∀ q : Mem, initTables layout site.base q x = q x := by
    intro q
    have hss0 : tssAt site.base + 8#32 = site.base + BitVec.ofNat 32 (tssOffset + 8) :=
      Mem.add_ofNat_add site.base tssOffset 8
    have hmap : tssAt site.base + BitVec.ofNat 32 iopbDenyAll =
        site.base + BitVec.ofNat 32 (tssOffset + iopbDenyAll) := Mem.add_ofNat_add _ _ _
    have hidt : fillIDTAt layout site.base (tssPrepared site.base q) x =
        tssPrepared site.base q x :=
      hkeep (fillIDTAt_spec site.base (tssPrepared site.base q) layout).2 (by decide)
    obtain ⟨q₁, hq₁⟩ : ∃ q₁, q₁ = q.write32 (tssAt site.base + 8#32)
      (BitVec.ofNat 32 GdtEntry.kdata.val <<< 3) := ⟨_, rfl⟩
    have hfirst : q₁ x = q x := by
      rw [hq₁, hss0]
      exact hkeep (Mem.write32_within _ _ _) (by decide)
    rw [initTables_eq, hidt, ← hfirst]
    unfold tssPrepared
    rw [← hq₁, hmap]
    exact hkeep (n := 0x2000) (Mem.splice_within _ _ _ _) (by decide)
  show initTables layout site.base _ x = m.mem x
  rw [htables, setGdtBase_elsewhere _ _ _ _ _ hstack hstruct]
  show mem x = m.mem x
  rw [hbusy, setGdtBase_elsewhere _ _ _ _ _ hstack hstruct]

end Init

/-- The task register holds the place of the task state segment and its size, as the processor needs
for a permission map. -/
theorem InitSpec.tr_base_limit {layout : Layout} {base : PTR} {i : Initialised}
    (h : InitSpec layout base i) : i.tr.base = tssAt base ∧ i.tr.limit = sizeofTss - 1 := by
  have hlimit : i.tr.limit = (gdtStatic .tssd).limit :=
    Descriptor.limit_congr (by rw [h.tr]) (by rw [h.tr])
  have hstatic : (gdtStatic .tssd).limit = sizeofTss - 1 := by
    decide
  exact ⟨by rw [h.tr], hlimit.trans hstatic⟩

end OS90.Kernel
