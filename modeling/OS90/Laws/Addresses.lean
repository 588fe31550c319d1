import OS90.Drivers.Address
import OS90.Lib.Arith

/-!
# Registers and sectors by number

What the two numberings are for: that a number leads back to what it was made from, and that things
that are not the same have different numbers.

`PciAddressLaw` is what `MakeAddress` is for: the host bridge finds the four values in the address,
and two registers that are not the same have different addresses. The bus, the device and the
function are always found. The offset is not put in the address, and every function has one address
for all its registers (`address_eq_iff`), which is that of its first (`pciAddressLaw_iff`).

`LbaLaw` is what a numbering of the sectors of a disk is for: every address has a number below that
of the sectors, every such number is that of one address, and the order is that of cylinder, head
and sector. A number is a numeral with the bases `tc`, `th` and `ts`, the sectors of a track being
counted from one.

It holds for every geometry with fewer than 2^31 sectors (`lbaLaw`), and then no product or sum of
`CHS2LBA` overflows on an address of it. What the function makes of other parameters is not said.
-/

namespace OS90.Laws

open OS90.Kernel OS90.Drivers OS90.Old OS90.Radix

/-! ## Configuration registers -/

section PciAddress

/-- The bridge decodes what was packed. The two low bits of an offset are zero. -/
structure PciRoundTrip (p : PciRegister) : Prop where
  enable : p.config.enable = 1#1
  bus : p.config.bus.toNat = p.bus.toNat
  device : p.config.device.toNat = p.dev.toNat
  function : p.config.function.toNat = p.func.toNat
  register : p.config.register.toNat * 4 = p.offset.toNat

structure PciAddressLaw (p q : PciRegister) : Prop where
  first : PciRoundTrip p
  second : PciRoundTrip q
  different : p ≠ q → p.address ≠ q.address

variable {p q : PciRegister}

/-- If the address is read back as the register it was made for, the offset was zero: the field of
the register is always read as zero. -/
theorem pciRoundTrip_offset (h : PciRoundTrip p) : p.offset = 0 := by
  have hregister := h.register
  rw [p.config_register] at hregister
  exact BitVec.eq_of_toNat_eq hregister.symm

/-- For offset zero the field that is never written is right by chance. -/
theorem pciRoundTrip_of_offset (h : p.offset = 0) : PciRoundTrip p := by
  refine ⟨p.config_enable, p.config_bus, p.config_device, p.config_function, ?_⟩
  rw [p.config_register, h]
  rfl

/-- Registers have one address exactly if they are of one function. Nothing is said of their
offsets, which the address does not have. -/
theorem address_eq_iff :
    p.address = q.address ↔ p.bus = q.bus ∧ p.dev = q.dev ∧ p.func = q.func := by
  constructor
  · intro h
    have hconfig : p.config = q.config := congrArg ConfigAddress.decode h
    refine ⟨?_, ?_, ?_⟩ <;> apply BitVec.eq_of_toNat_eq
    · rw [← p.config_bus, hconfig, q.config_bus]
    · rw [← p.config_device, hconfig, q.config_device]
    · rw [← p.config_function, hconfig, q.config_function]
  · rintro ⟨hbus, hdev, hfunc⟩
    unfold PciRegister.address makeAddress
    rw [hbus, hdev, hfunc]

/-- Two registers at one offset are told apart by their addresses. What the address loses is the
offset alone. -/
theorem eq_of_address_eq (h : p.address = q.address) (hoffset : p.offset = q.offset) : p = q := by
  obtain ⟨hbus, hdev, hfunc⟩ := address_eq_iff.mp h
  rcases p with ⟨⟨bus, dev, func, offset⟩, _⟩
  rcases q with ⟨⟨bus', dev', func', offset'⟩, _⟩
  dsimp only at hbus hdev hfunc hoffset
  subst hbus hdev hfunc hoffset
  rfl

/-- For every two registers: their addresses are right exactly when both are the first registers of
their functions. The bounds on bus, device and function are fields of a register, and without them
the fields of the address would overlap. -/
theorem pciAddressLaw_iff (p q : PciRegister) :
    PciAddressLaw p q ↔ p.offset = 0 ∧ q.offset = 0 := by
  constructor
  · intro hlaw
    exact ⟨pciRoundTrip_offset hlaw.first, pciRoundTrip_offset hlaw.second⟩
  · rintro ⟨hp, hq⟩
    refine ⟨pciRoundTrip_of_offset hp, pciRoundTrip_of_offset hq, ?_⟩
    intro hne haddress
    exact hne (eq_of_address_eq haddress (hp.trans hq.symm))

/-- The first register of a function says what it is. -/
def vendorRegister : PciRegister where
  toPciDevAddr := ⟨0, 3, 0, 0⟩
  bus_lt := by decide
  dev_lt := by decide
  func_lt := by decide
  offset_lt := by decide
  aligned := by decide

/-- The second has its command and status. -/
def commandRegister : PciRegister where
  toPciDevAddr := ⟨0, 3, 0, 4⟩
  bus_lt := by decide
  dev_lt := by decide
  func_lt := by decide
  offset_lt := by decide
  aligned := by decide

/-- A write to the command register of a function goes to its vendor register, as both have one
address. -/
theorem pciAddressLaw_command : ¬ PciAddressLaw commandRegister vendorRegister := by
  intro hlaw
  have hoffset : commandRegister.offset = 0 := pciRoundTrip_offset hlaw.first
  exact absurd hoffset (by decide)

end PciAddress

/-! ## Sectors -/

section DiskAddress

/-- A geometry with a zero in it has no sectors. -/
structure Geometry where
  th : WORD
  ts : WORD
  tc : WORD
  fits : tc.toNat * th.toNat * ts.toNat < 2 ^ 31

namespace Geometry

def sectors (g : Geometry) : Nat := g.tc.toNat * g.th.toNat * g.ts.toNat

@[ext] structure Address (g : Geometry) where
  c : WORD
  h : WORD
  s : WORD
  c_lt : c.toNat < g.tc.toNat
  h_lt : h.toNat < g.th.toNat
  s_pos : 1 ≤ s.toNat
  s_le : s.toNat ≤ g.ts.toNat

def bases (g : Geometry) : List Nat := [g.tc.toNat, g.th.toNat, g.ts.toNat]

/-- The disk has as many sectors as there are numerals in its bases. -/
theorem bases_prod (g : Geometry) : g.bases.prod = g.sectors := by
  unfold bases sectors
  rw [List.prod_cons, List.prod_cons, List.prod_cons, List.prod_nil, Nat.mul_one, Nat.mul_assoc]

namespace Address

variable {g : Geometry} (a b : g.Address)

def params : CHS_Params := ⟨g.th, g.ts, g.tc, a.h, a.c, a.s⟩

/-- The order of cylinder, head and sector. -/
def Before : Prop :=
  a.c < b.c ∨ a.c = b.c ∧ (a.h < b.h ∨ a.h = b.h ∧ a.s < b.s)

def digits : List Nat := [a.c.toNat, a.h.toNat, a.s.toNat - 1]

/-- The digits of an address are below their bases, the sector counted from zero. -/
theorem digits_numeral : Numeral g.bases a.digits := by
  have hs : a.s.toNat - 1 < g.ts.toNat := by
    have hpos := a.s_pos
    have hle := a.s_le
    omega
  exact .cons a.c_lt (.cons a.h_lt (.cons hs .nil))

/-- An address is determined by its digits. -/
theorem digits_injective (h : a.digits = b.digits) : a = b := by
  have hpos := a.s_pos
  have hpos' := b.s_pos
  unfold digits at h
  simp only [List.cons.injEq, and_true] at h
  obtain ⟨hc, hh, hs⟩ := h
  ext1
  · exact BitVec.eq_of_toNat_eq hc
  · exact BitVec.eq_of_toNat_eq hh
  · exact BitVec.eq_of_toNat_eq (by omega)

/-- Every numeral in the bases of the disk is that of an address, so that no number below the count
of sectors is left out. -/
theorem exists_digits {ds : List Nat} (hds : Numeral g.bases ds) :
    ∃ a : g.Address, a.digits = ds := by
  obtain ⟨c, cs, hc, hcs, rfl⟩ := List.forall₂_cons_right_iff.mp hds
  obtain ⟨h, hs, hh, hhs, rfl⟩ := List.forall₂_cons_right_iff.mp hcs
  obtain ⟨s, ss, hs, hss, rfl⟩ := List.forall₂_cons_right_iff.mp hhs
  obtain rfl := List.forall₂_nil_right_iff.mp hss
  have hc16 := g.tc.isLt
  have hh16 := g.th.isLt
  have hs16 := g.ts.isLt
  have hcword : (BitVec.ofNat 16 c).toNat = c := Nat.mod_eq_of_lt (by omega)
  have hhword : (BitVec.ofNat 16 h).toNat = h := Nat.mod_eq_of_lt (by omega)
  have hsword : (BitVec.ofNat 16 (s + 1)).toNat = s + 1 := Nat.mod_eq_of_lt (by omega)
  refine ⟨⟨.ofNat 16 c, .ofNat 16 h, .ofNat 16 (s + 1), ?_, ?_, ?_, ?_⟩, ?_⟩
  · rwa [hcword]
  · rwa [hhword]
  · rw [hsword]
    exact Nat.le_add_left 1 s
  · rwa [hsword]
  · unfold digits
    dsimp only
    rw [hcword, hhword, hsword, Nat.add_sub_cancel]

/-- Addresses are ordered as their digits are, the cylinder first. -/
theorem digits_lt (h : a.Before b) : a.digits < b.digits := by
  have hpos := a.s_pos
  have hpos' := b.s_pos
  simp only [Before, BitVec.lt_def, ← BitVec.toNat_inj] at h
  unfold digits
  simp only [List.cons_lt_cons_iff]
  omega

end Address

end Geometry

variable {g : Geometry}

/-- The number of an address is the value of its digits, and the computation of it does not
overflow. For that the geometry has fewer than 2^31 sectors. -/
theorem chs2lba_address (a : g.Address) :
    ∃ lba, chs2lba a.params = some lba ∧ lba.toNat = value g.bases a.digits := by
  have hlt : value g.bases a.digits < 2 ^ 31 := by
    have hvalue := value_lt a.digits_numeral
    rw [g.bases_prod] at hvalue
    exact Nat.lt_trans hvalue g.fits
  have hts : 1 ≤ g.ts.toNat := Nat.le_trans a.s_pos a.s_le
  refine chs2lba_eq a.s_pos hts ?_ hlt
  simp only [Geometry.bases, Geometry.Address.digits, value, List.prod_cons, List.prod_nil]
  simp only [Geometry.Address.params, Nat.mul_one, Nat.add_zero, Nat.mul_assoc, Nat.add_assoc]

/-- What the function answers is the value of the numeral of the address. -/
theorem toNat_of_chs2lba {a : g.Address} {x : DWORD} (h : chs2lba a.params = some x) :
    x.toNat = value g.bases a.digits := by
  obtain ⟨lba, hlba, hvalue⟩ := chs2lba_address a
  rw [h, Option.some_inj] at hlba
  exact hlba ▸ hvalue

/-- Every number below the count of sectors is that of exactly one address. -/
theorem existsUnique_address {n : Nat} (hn : n < g.sectors) :
    ∃! a : g.Address, chs2lba a.params = some (BitVec.ofNat 32 n) := by
  have hfits : g.sectors < 2 ^ 31 := g.fits
  have hword : (BitVec.ofNat 32 n).toNat = n := by
    rw [BitVec.toNat_ofNat]
    exact Nat.mod_eq_of_lt (by omega)
  rw [← g.bases_prod] at hn
  obtain ⟨ds, hds, hvalue⟩ := exists_value g.bases hn
  obtain ⟨a, rfl⟩ := Geometry.Address.exists_digits hds
  refine ⟨a, ?_, fun b hb => ?_⟩
  · obtain ⟨lba, hlba, hnumber⟩ := chs2lba_address a
    rw [hlba, ← hvalue, ← hnumber, BitVec.ofNat_toNat, BitVec.setWidth_eq]
  · have heq : value g.bases b.digits = value g.bases a.digits := by
      rw [← toNat_of_chs2lba hb, hvalue, hword]
    exact b.digits_injective a (value_injective b.digits_numeral a.digits_numeral heq)

structure LbaLaw (g : Geometry) : Prop where
  /-- Nothing overflows, and the number is that of a sector. -/
  maps : ∀ a : g.Address, ∃ lba, chs2lba a.params = some lba ∧ lba.toNat < g.sectors
  onto : ∀ n < g.sectors, ∃! a : g.Address, chs2lba a.params = some (BitVec.ofNat 32 n)
  increasing : ∀ a b : g.Address, a.Before b →
    ∀ x y, chs2lba a.params = some x → chs2lba b.params = some y → x < y

/-- For every geometry with fewer than 2^31 sectors, which is what keeps the sum within an `int`:
the numbers are the sectors, in order, each once. Geometries beyond that are not spoken of, as C
leaves their overflow undefined. -/
theorem lbaLaw (g : Geometry) : LbaLaw g := by
  refine ⟨?_, fun n hn => existsUnique_address hn, ?_⟩
  · intro a
    obtain ⟨lba, hlba, hvalue⟩ := chs2lba_address a
    refine ⟨lba, hlba, ?_⟩
    rw [hvalue, ← g.bases_prod]
    exact value_lt a.digits_numeral
  · intro a b h x y hx hy
    rw [BitVec.lt_def, toNat_of_chs2lba hx, toNat_of_chs2lba hy]
    exact value_lt_value a.digits_numeral b.digits_numeral (a.digits_lt b h)

/-- A floppy disk of 1440 KiB. -/
def floppy : Geometry where
  th := 2
  ts := 18
  tc := 80
  fits := by decide

theorem lbaLaw_floppy : LbaLaw floppy := lbaLaw floppy

/-- Its last sector. -/
example : chs2lba ⟨floppy.th, floppy.ts, floppy.tc, 1, 79, 18⟩ = some 2879 := by decide

end DiskAddress

end OS90.Laws
