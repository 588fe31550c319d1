import Mathlib.Data.BitVec

/-!
# Basic types of the kernel

The fixed-width types of `include/Type.h`, its status codes, and the indices of the dword array
in which the kernel passes a register context (`RD_EAX` to `RD_GS` of `Platform/IA32.h`).

A word of the kernel is a bit vector of its width, with the arithmetic of C's unsigned types, and a
pointer is a linear address. A function of C that is only passed around is a pointer too.

A register context is a function from the seventeen indices. The order of the dwords in memory is
that of the indices, and an offset of it is four times the index. What C would call a structure of
dwords is read and written through this, by the code in assembly as well, which counts in the same
indices.

Status codes are an enumeration, and the numbers behind them are not used by anything that is
modelled.
-/

namespace OS90.Kernel

abbrev BYTE := BitVec 8
abbrev WORD := BitVec 16
abbrev DWORD := BitVec 32
abbrev BOOL := BYTE

/-- An interrupt vector or virtual interrupt number. -/
abbrev VINT := DWORD

/-- A 32-bit address. The kernel compares and stores pointers and jumps through them. -/
abbrev PTR := DWORD

/-- The status codes, in the order of the source's enumeration. -/
inductive STATUS where
  | osOk
  | osErrorGeneric
  | osDosError
  | osInvalidFunction
  | osInvalidParams
  | osAccessDenied
  | osFileNotFound
  | osInvalidHandle
  | osIsDirectoryNotFile
  | osIsFileNotDirectory
  | osTooManyOpen
  | osNoSpaceOnDisk
  | osFeatureNotSupported
deriving DecidableEq, Repr

/-- `BIT_IS_SET(num,bit)`. -/
def bitIsSet (num : WORD) (bit : Nat) : Bool := num &&& (1#16 <<< bit) > 0

/-! ## Register contexts

The indices are array indices and not offsets. Index 7 is the slot `PUSHAD` gives to ESP, which
the kernel never reads. -/

namespace RD

abbrev eax : Fin 17 := 0
abbrev ebx : Fin 17 := 1
abbrev ecx : Fin 17 := 2
abbrev edx : Fin 17 := 3
abbrev esi : Fin 17 := 4
abbrev edi : Fin 17 := 5
abbrev ebp : Fin 17 := 6
abbrev eip : Fin 17 := 8
abbrev cs : Fin 17 := 9
abbrev eflags : Fin 17 := 10
abbrev esp : Fin 17 := 11
abbrev ss : Fin 17 := 12
abbrev es : Fin 17 := 13
abbrev ds : Fin 17 := 14
abbrev fs : Fin 17 := 15
abbrev gs : Fin 17 := 16

end RD

/-- A register context: `RD_NUM_DWORDS` dwords. -/
abbrev Context := Fin 17 → DWORD

/-- The VM bit of an EFLAGS image. -/
def vmBit (eflags : DWORD) : Bool := eflags.getLsbD 17

/-! ## Interrupt lines -/

/-- One of the sixteen lines of the two interrupt controllers. -/
abbrev Irq := Fin 16

/-- The lines are numbered from zero. -/
instance Irq.neZero : NeZero 16 := ⟨by decide⟩

/-- The line as the `VINT` the kernel's functions take. -/
def Irq.vint (irq : Irq) : VINT := BitVec.ofNat 32 irq.val

@[simp] theorem Irq.vint_toNat (irq : Irq) : irq.vint.toNat = irq.val := by
  have h := irq.isLt
  simp only [Irq.vint, BitVec.toNat_ofNat]
  omega

/-- The sixteen lines have sixteen numbers. -/
theorem Irq.vint_injective : Function.Injective Irq.vint := by
  intro i j h
  have hn := congrArg BitVec.toNat h
  rw [Irq.vint_toNat, Irq.vint_toNat] at hn
  exact Fin.ext hn

end OS90.Kernel
