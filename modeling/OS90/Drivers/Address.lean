import OS90.Kernel.Type
import OS90.Lib.Arith
import OS90.Lib.Fields

/-!
# The addresses that drivers compute

A configuration register of a PCI function and a sector of a disk are both named by a number that a
driver puts together from the parts.

`MakeAddress` of `pci.c` packs the address of a function's configuration register into the dword
that the host bridge takes at its address port. The bridge has the fields of the dword at fixed
places (`ConfigAddress.decode`).

`Disk.c` numbers the sectors of a disk with `CHS2LBA`. The numbers are computed in `int`, to which
the fields are promoted, and the result is returned as a `dword`.

Packing is by shifts and disjunctions, with the fields in place, and the general lemmas about that
are in the library of fields. What is proved of the two functions here is what they compute; what a
driver may expect of the numbers, one for each register or each sector, is in the laws.

Arithmetic on `int` is partial where C leaves an overflow undefined, and the disk's numbering is
right wherever it does not overflow.
-/

namespace OS90.Drivers

open OS90.Kernel OS90.Fields

structure PciDevAddr where
  bus : DWORD
  dev : DWORD
  func : DWORD
  offset : DWORD
deriving DecidableEq, Repr

/-- `MakeAddress`. The statement under its `if` is empty, so the offset is not used. -/
def makeAddress (pcia : PciDevAddr) : DWORD :=
  pcia.func <<< 8 ||| pcia.dev <<< 11 ||| pcia.bus <<< 16 ||| 1#32 <<< 31

/-- An address as the bridge takes it apart. The two lowest bits are not decoded. -/
@[ext] structure ConfigAddress where
  enable : BitVec 1
  bus : BitVec 8
  device : BitVec 5
  function : BitVec 3
  register : BitVec 6
deriving DecidableEq, Repr

def ConfigAddress.decode (w : DWORD) : ConfigAddress where
  enable := w.extractLsb' 31 1
  bus := w.extractLsb' 16 8
  device := w.extractLsb' 11 5
  function := w.extractLsb' 8 3
  register := w.extractLsb' 2 6

/-- A register of a function, as its callers name it. -/
structure PciRegister extends PciDevAddr where
  bus_lt : bus.toNat < 256
  dev_lt : dev.toNat < 32
  func_lt : func.toNat < 8
  offset_lt : offset.toNat < 256
  aligned : 4 ∣ offset.toNat

namespace PciRegister

variable (p : PciRegister)

def address : DWORD := makeAddress p.toPciDevAddr

def config : ConfigAddress := ConfigAddress.decode p.address

/-- What is packed, from the lowest bits up. -/
def fields : List (Placed 32) :=
  [⟨8, 3, p.func⟩, ⟨11, 5, p.dev⟩, ⟨16, 8, p.bus⟩, ⟨31, 1, 1#32⟩]

/-- The address as the code computes it, by shifts and disjunctions, is the fields packed side by
side. -/
theorem address_eq_pack : p.address = pack p.fields := by
  simp only [address, makeAddress, fields, pack, BitVec.or_assoc, BitVec.or_zero]

/-- Each field keeps within its width, which the bounds of the record promise. -/
theorem fields_fit : ∀ f ∈ p.fields, f.Fits := by
  have hbus := p.bus_lt
  have hdev := p.dev_lt
  have hfunc := p.func_lt
  unfold fields
  simp only [List.forall_mem_cons, List.not_mem_nil, false_imp_iff, implies_true, and_true]
  exact ⟨⟨hfunc, by simp⟩, ⟨hdev, by simp⟩, ⟨hbus, by simp⟩, ⟨by simp, by simp⟩⟩

/-- No two fields share a bit. With `fields_fit` this is all that reading a packed field back
takes. -/
theorem fields_apart : p.fields.Pairwise fun f g => f.Apart g.pos g.width := by
  unfold fields Placed.Apart
  simp

/-- A field that is packed is found in its place. The four lemmas about the address are cases of
this. -/
theorem read_field {f : Placed 32} (h : f ∈ p.fields) :
    (p.address.extractLsb' f.pos f.width).toNat = f.value.toNat := by
  rw [address_eq_pack]
  exact read_pack p.fields_fit p.fields_apart h

/-- The enable bit of the address is set, whatever the function and the register are. -/
theorem config_enable : p.config.enable = 1#1 := by
  have h := p.read_field (f := ⟨31, 1, 1#32⟩) (by simp [fields])
  exact BitVec.eq_of_toNat_eq h

/-- The bus is read back at its place. -/
theorem config_bus : p.config.bus.toNat = p.bus.toNat :=
  p.read_field (f := ⟨16, 8, p.bus⟩) (by simp [fields])

/-- So is the device. -/
theorem config_device : p.config.device.toNat = p.dev.toNat :=
  p.read_field (f := ⟨11, 5, p.dev⟩) (by simp [fields])

/-- And the function. -/
theorem config_function : p.config.function.toNat = p.func.toNat :=
  p.read_field (f := ⟨8, 3, p.func⟩) (by simp [fields])

/-- Nothing is put where the register is, so that this field reads as zero whatever the offset
was. -/
theorem config_register : p.config.register = 0#6 := by
  have hapart : ∀ f ∈ p.fields, f.Apart 2 6 := by
    unfold fields Placed.Apart
    simp
  unfold config ConfigAddress.decode
  rw [address_eq_pack]
  exact read_pack_apart p.fields_fit hapart

end PciRegister

end OS90.Drivers

namespace OS90.Old

open OS90.Kernel

/-- The geometry is `th`, `ts` and `tc`: heads, sectors of a track, and cylinders. -/
structure CHS_Params where
  th : WORD
  ts : WORD
  tc : WORD
  h : WORD
  c : WORD
  s : WORD
deriving DecidableEq, Repr

/-- A `word` in an expression. -/
def promoted (w : WORD) : CInt 31 := CInt.promote w (by decide)

/-- `CHS2LBA`, if nothing overflows. -/
def chs2lba (p : CHS_Params) : Option DWORD := do
  let tracks ← CInt.mul (promoted p.c) (promoted p.th)
  let cylinders ← CInt.mul tracks (promoted p.ts)
  let heads ← CInt.mul (promoted p.h) (promoted p.ts)
  let sectors ← CInt.sub (promoted p.s) (CInt.ofNat 1 (by decide))
  let lba ← CInt.add cylinders heads
  let lba ← CInt.add lba sectors
  return lba.toUnsigned 32

/-- What is computed where there is a sector with the number: the products are no larger. -/
theorem chs2lba_eq {p : CHS_Params} {n : Nat} (hs : 1 ≤ p.s.toNat) (hts : 1 ≤ p.ts.toNat)
    (hn : p.c.toNat * p.th.toNat * p.ts.toNat + p.h.toNat * p.ts.toNat + (p.s.toNat - 1) = n)
    (hlt : n < 2 ^ 31) : ∃ lba, chs2lba p = some lba ∧ lba.toNat = n := by
  have htracks : p.c.toNat * p.th.toNat ≤ p.c.toNat * p.th.toNat * p.ts.toNat :=
    Nat.le_mul_of_pos_right _ hts
  have hlba : ((CInt.ofNat (n := 31) n hlt).toUnsigned 32).toNat = n :=
    CInt.toUnsigned_ofNat (by omega)
  refine ⟨_, ?_, hlba⟩
  subst hn
  unfold chs2lba promoted CInt.promote
  rw [CInt.mul_ofNat (by omega), Option.bind_eq_bind, Option.bind_some,
    CInt.mul_ofNat (by omega), Option.bind_some, CInt.mul_ofNat (by omega), Option.bind_some,
    CInt.sub_ofNat hs, Option.bind_some, CInt.add_ofNat (by omega), Option.bind_some,
    CInt.add_ofNat hlt, Option.bind_some]
  rfl

end OS90.Old
