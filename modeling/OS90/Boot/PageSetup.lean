import OS90.Boot.Loader
import OS90.Ia32.Paging
import OS90.Lib.Loop

/-!
# The boot page tables

`PageSetup` of `boot386.asm`, after its message: three tables in the high memory area, through
segment FFFFh. The area is a row of 3072 dwords from 100000h, the directory first, and
`Tables.entries` says what each of them is at the end: those that are written, and the rest as they
were found.

Both loops store upwards from ES:DI, one copying a table that is assembled into the program and one
counting pages in EAX. They have one invariant (`Filling`), with the entries as a function, and
`Filled` is what it says of memory.

The area is not cleared first, by this code or by any before it. The specification of a dword
(`PageEntry.dword`) names what was found there for most of the three tables, so that the laws about
what is mapped can say on what it depends.
-/

namespace OS90.Boot

open OS90.Ia32 OS90.Ia32.Cpu OS90.Kernel

section Code

variable (l : Labels)

/-- The directory, and the registers for the copy of `IDMap`. -/
def directory (c : Loader) : Loader :=
  let c := c.push16 (c.seg .es) |>.set16 .eax 0xFFFF#16
  let c := c.setSeg .es (c.reg16 .eax) |>.set16 .ebx 16#16
  let c := c.store (linear (c.seg .es) (c.reg16 .ebx)) (0x101#32 <<< 12 ||| 7#32)
  let c := c.store (linear (c.seg .es) (c.reg16 .ebx + 768#16 * 4#16)) (0x102#32 <<< 12 ||| 3#32)
  c.set16 .ecx 256#16 |>.set16 .esi (BitVec.ofNat 16 l.idMap)
    |>.set16 .edi (c.reg16 .ebx + 4096#16)

/-- The registers for the kernel's pages. -/
def kernelPages (c : Loader) : Loader :=
  let c := c.set16 .edi (c.reg16 .ebx + 8192#16)
  let c := c.load .eax (linear (c.seg .ds) (BitVec.ofNat 16 l.kernelAddr))
  let c := c.set .eax (c.gpr .eax &&& 0xFFFFF000#32) |>.setLow8 .eax 3#8
  c.set16 .ecx 256#16

/-- `.hh`. -/
def mapLoop (c : Loader) : Loader ⊕ Loader :=
  let c := c.stosd
  let c := c.set .eax (c.gpr .eax + 1#32 <<< 12)
  let c := c.set16 .ecx (c.reg16 .ecx - 1#16)
  if c.reg16 .ecx ≠ 0#16 then .inl c else .inr c

/-- CR3, by way of EAX. -/
def loadCR3 (c : Loader) : Loader :=
  let c := c.set .eax c.env.cr3
  let c := c.set .eax (c.gpr .eax &&& ~~~0xFFF#32)
  let c := c.set .eax (c.gpr .eax ||| 0x100000#32)
  { c with env := { c.env with cr3 := c.gpr .eax } }

/-- `PageSetup`, with so many rounds for either loop. -/
def pageSetup (rounds : Nat) (c : Loader) : Option Loader := do
  let c ← Loop.run repMovsd rounds (directory l c)
  let c ← Loop.run mapLoop rounds (kernelPages l c)
  return loadCR3 c

end Code

/-! ## The high memory area -/

/-- Where the tables begin. -/
def hma : DWORD := 0x100000#32

/-- Segment FFFFh reaches the high memory area from offset 16 on. The offset does not wrap as long
as the index is in the three pages. -/
theorem linear_hma {k : Nat} (hk : k + 16 < 2 ^ 16) :
    linear 0xFFFF#16 (BitVec.ofNat 16 (16 + k)) = hma + BitVec.ofNat 32 k := by
  have hstart : linear 0xFFFF#16 0#16 + 16#32 = hma := by decide
  rw [linear_ofNat _ (by omega), BitVec.ofNat_add, ← BitVec.add_assoc, hstart]

/-- Memory with `n` dwords of the area written, from dword `lo` on. -/
structure Filled (f : Nat → DWORD) (lo n : Nat) (m m' : Mem) : Prop where
  within : Mem.Within hma 12288 m m'
  entries : ∀ k < 3072, m'.entry hma k =
    if lo ≤ k ∧ k < lo + n then f (k - lo) else m.entry hma k

section Fill

variable {f : Nat → DWORD} {lo n : Nat} {m m' : Mem}

/-- Before the first entry, nothing has to be filled. -/
theorem Filled.zero (f : Nat → DWORD) (lo : Nat) (m : Mem) : Filled f lo 0 m m :=
  ⟨Mem.Within.refl _ _ _, fun k _ => by rw [if_neg (by omega)]⟩

/-- The next entry is stored where the filled ones end, so that there is one more of them. -/
theorem Filled.store (h : Filled f lo n m m') (hfit : lo + n < 3072) :
    Filled f lo (n + 1) m (m'.write32 (hma + BitVec.ofNat 32 (4 * (lo + n))) (f n)) := by
  refine ⟨h.within.trans ((Mem.write32_within m' _ _).mono ?_), ?_⟩
  · have hdist := Mem.add_sub_cancel_toNat hma (k := 4 * (lo + n)) (by omega)
    omega
  · intro k hk
    rw [Mem.entry_write32 _ (by omega) (by omega), h.entries k hk]
    by_cases hlast : k = lo + n
    · rw [if_pos hlast, if_pos (by omega), hlast, Nat.add_sub_cancel_left]
    · rw [if_neg hlast]
      exact if_congr (by omega) rfl rfl

end Fill

/-- What a loop goes on with: the fill, and the registers that every round leaves alone. -/
structure Filling (f : Nat → DWORD) (lo n : Nat) (s c : Loader) : Prop where
  filled : Filled f lo n s.mem c.mem
  seg : c.seg = s.seg
  df : c.df = false
  env : c.env = s.env
  ebx : c.reg16 .ebx = s.reg16 .ebx
  ecx : c.reg16 .ecx = BitVec.ofNat 16 (256 - n)
  edi : c.reg16 .edi = BitVec.ofNat 16 (16 + 4 * (lo + n))

section Rounds

variable {f : Nat → DWORD} {lo n : Nat} {s c : Loader}

/-- ES:DI is the place of the next entry, also as a physical address. -/
theorem Filling.place (h : Filling f lo n s c) (hes : s.seg .es = 0xFFFF#16)
    (hfit : lo + n < 3072) :
    linear (c.seg .es) (c.reg16 .edi) = hma + BitVec.ofNat 32 (4 * (lo + n)) := by
  rw [h.seg, hes, h.edi, linear_hma (by omega)]

/-- The counter after a round: it is the rounds that are left, less one. -/
theorem ofNat_sub_one (hn : n < 256) :
    BitVec.ofNat 16 (256 - n) - 1#16 = BitVec.ofNat 16 (256 - (n + 1)) := by
  apply BitVec.eq_of_toNat_eq
  rw [BitVec.toNat_sub, BitVec.toNat_ofNat, BitVec.toNat_ofNat, BitVec.toNat_ofNat]
  omega

/-- The index after a round goes on by one entry. -/
theorem ofNat_add_four (k n : Nat) :
    BitVec.ofNat 16 (k + 4 * n) + 4#16 = BitVec.ofNat 16 (k + 4 * (n + 1)) :=
  (BitVec.ofNat_add (k + 4 * n) 4).symm

/-- A round of the copy: if the source holds the entry that comes next, it is stored, and the
invariant holds for one entry more. -/
theorem Filling.movsd (h : Filling f lo n s c) (hes : s.seg .es = 0xFFFF#16) (hn : n < 256)
    (hfit : lo + n < 3072)
    (hsource : c.mem.read32 (linear (c.seg .ds) (c.reg16 .esi)) = f n) :
    repMovsd c = .inl (c.movsd.set16 .ecx (c.reg16 .ecx - 1#16)) ∧
      Filling f lo (n + 1) s (c.movsd.set16 .ecx (c.reg16 .ecx - 1#16)) := by
  have hcx : c.reg16 .ecx ≠ 0#16 := by
    rw [h.ecx]
    exact ofNat_ne (by omega) (by decide) (by omega)
  refine ⟨if_neg hcx, ?_, h.seg, h.df, h.env, ?_, ?_, ?_⟩
  · rw [set16_mem, movsd_mem, h.place hes hfit, hsource]
    exact h.filled.store hfit
  · rw [set16_reg16, if_neg (by decide), movsd_reg16, if_neg (by decide), if_neg (by decide)]
    exact h.ebx
  · rw [set16_reg16, if_pos rfl, h.ecx, ofNat_sub_one hn]
  · rw [set16_reg16, if_neg (by decide), movsd_reg16, if_pos rfl, stride_eq h.df, h.edi]
    exact ofNat_add_four 16 (lo + n)

/-- What a round of `.hh` comes to. -/
def mapRound (c : Loader) : Loader :=
  let c := c.stosd
  let c := c.set .eax (c.gpr .eax + 1#32 <<< 12)
  c.set16 .ecx (c.reg16 .ecx - 1#16)

/-- A round of the kernel's pages, for which EAX holds the entry. The one after it is a page
further. -/
theorem Filling.stosd (h : Filling f lo n s c) (hes : s.seg .es = 0xFFFF#16) (hn : n < 256)
    (hfit : lo + n < 3072) (heax : c.gpr .eax = f n) :
    Filling f lo (n + 1) s (mapRound c) ∧ (mapRound c).gpr .eax = f n + 4096#32 := by
  have hregs : ∀ q, q ≠ .ecx → q ≠ .eax → (mapRound c).reg16 q = c.stosd.reg16 q := by
    intro q hcx hax
    unfold mapRound
    rw [set16_reg16, if_neg hcx, set_reg16_of_ne _ _ _ _ hax]
  refine ⟨⟨?_, h.seg, h.df, h.env, ?_, ?_, ?_⟩, ?_⟩
  · show Filled f lo (n + 1) s.mem c.stosd.mem
    rw [stosd_mem, h.place hes hfit, heax]
    exact h.filled.store hfit
  · rw [hregs .ebx (by decide) (by decide), stosd_reg16, if_neg (by decide)]
    exact h.ebx
  · unfold mapRound
    rw [set16_reg16, if_pos rfl, set_reg16_of_ne _ _ _ _ (by decide), stosd_reg16,
      if_neg (by decide), h.ecx, ofNat_sub_one hn]
  · rw [hregs .edi (by decide) (by decide), stosd_reg16, if_pos rfl, stride_eq h.df, h.edi]
    exact ofNat_add_four 16 (lo + n)
  · unfold mapRound
    rw [set16_gpr_of_ne _ _ _ _ (by decide), set_gpr, if_pos rfl, stosd_gpr _ _ (by decide), heax]
    rfl

end Rounds

/-! ## The two loops -/

section Loops

variable {f : Nat → DWORD} {s : Loader}

/-- `rep movsd` copies the 256 dwords at DS:SI, and ends. The source must not change while the
destination is written, and that is the last premise. -/
theorem repMovsd_leaves {lo src : Nat} (h : Filling f lo 0 s s) (hes : s.seg .es = 0xFFFF#16)
    (hlo : lo + 256 ≤ 3072) (hsrc : src + 1024 ≤ 2 ^ 16) (hsi : s.reg16 .esi = BitVec.ofNat 16 src)
    (hsource : ∀ m, Mem.Within hma 12288 s.mem m →
      ∀ n < 256, m.read32 (base s + BitVec.ofNat 32 (src + 4 * n)) = f n) :
    ∃ c, Loop.Leaves repMovsd s c ∧ Filling f lo 256 s c := by
  let Inv := fun k c => Filling f lo k s c ∧ c.reg16 .esi = BitVec.ofNat 16 (src + 4 * k)
  have hround : ∀ k c, k < 256 → Inv k c → ∃ c', repMovsd c = .inl c' ∧ Inv (k + 1) c' := by
    rintro k c hk ⟨hc, hsi⟩
    have hread : c.mem.read32 (linear (c.seg .ds) (c.reg16 .esi)) = f k := by
      rw [hsi, hc.seg, linear_ofNat _ (by omega)]
      exact hsource c.mem hc.filled.within k hk
    obtain ⟨hloop, hc'⟩ := hc.movsd hes hk (by omega) hread
    refine ⟨_, hloop, hc', ?_⟩
    rw [set16_reg16, if_neg (by decide), movsd_reg16, if_neg (by decide), if_pos rfl,
      stride_eq hc.df, hsi, ofNat_add_four]
  have hlast : ∀ c, Inv 256 c → ∃ c', repMovsd c = .inr c' ∧ Filling f lo 256 s c' := by
    rintro c ⟨hc, _⟩
    exact ⟨c, if_pos hc.ecx, hc⟩
  exact Loop.Leaves.of_countup Inv _ hround hlast ⟨h, hsi⟩

/-- `.hh` maps 256 pages from the one in EAX on, and ends. -/
theorem mapLoop_leaves {lo : Nat} {first : DWORD} (h : Filling f lo 0 s s)
    (hes : s.seg .es = 0xFFFF#16) (hlo : lo + 256 ≤ 3072) (hax : s.gpr .eax = first)
    (hf : ∀ n, f n = first + BitVec.ofNat 32 (4096 * n)) :
    ∃ c, Loop.Leaves mapLoop s c ∧ Filling f lo 256 s c := by
  let Inv := fun k c => Filling f lo k s c ∧ c.gpr .eax = f k
  have hround : ∀ k c, k < 255 → Inv k c → ∃ c', mapLoop c = .inl c' ∧ Inv (k + 1) c' := by
    rintro k c hk ⟨hc, hax⟩
    obtain ⟨hc', hax'⟩ := hc.stosd hes (by omega) (by omega) hax
    have hcx : (mapRound c).reg16 .ecx ≠ 0#16 := by
      rw [hc'.ecx]
      exact ofNat_ne (by omega) (by decide) (by omega)
    refine ⟨mapRound c, if_pos hcx, hc', ?_⟩
    rw [hax', hf, hf, BitVec.add_assoc, Nat.mul_succ, BitVec.ofNat_add]
  have hlast : ∀ c, Inv 255 c → ∃ c', mapLoop c = .inr c' ∧ Filling f lo 256 s c' := by
    rintro c ⟨hc, hax⟩
    obtain ⟨hc', _⟩ := hc.stosd hes (by omega) (by omega) hax
    have hcx : (mapRound c).reg16 .ecx = 0#16 := hc'.ecx
    exact ⟨mapRound c, if_neg (not_not.mpr hcx), hc'⟩
  have hfirst : Inv 0 s := by
    refine ⟨h, ?_⟩
    rw [hax, hf, Nat.mul_zero, BitVec.add_zero]
  exact Loop.Leaves.of_countup Inv _ hround hlast hfirst

end Loops

/-! ## The tables -/

/-- The loader as it comes to `PageSetup`. -/
structure PageEntry (l : Labels) where
  c : Loader
  placed : l.Placed c
  /-- `cld`, at the start of the program. -/
  df : c.df = false
  idMap : ∀ n < 256,
    c.mem.read32 (base c + BitVec.ofNat 32 (l.idMap + 4 * n)) = BitVec.ofNat 32 (4096 * n + 7)

/-- `[KernelAddr]`. -/
def PageEntry.kernelAddr {l : Labels} (e : PageEntry l) : DWORD :=
  e.c.mem.read32 (base e.c + BitVec.ofNat 32 l.kernelAddr)

/-- What is in memory when the tables are built over it. -/
def PageEntry.found {l : Labels} (e : PageEntry l) : Mem := (e.c.push16 (e.c.seg .es)).mem

/-- The dwords of the area at the end. -/
def PageEntry.dword {l : Labels} (e : PageEntry l) (k : Nat) : DWORD :=
  if k = 0 then 0x101007#32
  else if k = 768 then 0x102003#32
  else if 1024 ≤ k ∧ k < 1024 + 256 then BitVec.ofNat 32 (4096 * (k - 1024) + 7)
  else if 2048 ≤ k ∧ k < 2048 + 256 then
    frame e.kernelAddr + 3#32 + BitVec.ofNat 32 (4096 * (k - 2048))
  else e.found.entry hma k

/-- The directory maps the first four megabytes through the table of the identity map, for the user
too. -/
theorem PageEntry.dword_zero {l : Labels} (e : PageEntry l) : e.dword 0 = 0x101007#32 := if_pos rfl

/-- It maps the four megabytes at 3 GiB through the table of the kernel, for the supervisor
alone. -/
theorem PageEntry.dword_last {l : Labels} (e : PageEntry l) : e.dword 768 = 0x102003#32 := by
  unfold PageEntry.dword
  rw [if_neg (by decide), if_pos rfl]

/-- The machine `PageSetup` leaves. -/
structure Tables {l : Labels} (e : PageEntry l) (c : Loader) : Prop where
  within : Mem.Within hma 12288 e.found c.mem
  entries : ∀ k < 3072, c.mem.entry hma k = e.dword k
  cr3 : c.env.cr3 = e.c.env.cr3 &&& ~~~0xFFF#32 ||| 0x100000#32

section Entry

variable {l : Labels} (e : PageEntry l)

/-- The segment of the program is below the area, so that the tables overwrite nothing of it. -/
theorem PageEntry.apart {j w : Nat} (h : j + w ≤ 2 ^ 16) :
    Mem.Apart (base e.c + BitVec.ofNat 32 j) w hma 12288 := by
  intro i hi
  have hlow := e.placed.conventional
  have hbase : (base e.c).toNat = 16 * (e.c.seg .ds).toNat := linear_zero_toNat _
  unfold hma
  rw [Mem.add_ofNat_add, BitVec.toNat_sub, BitVec.toNat_add, BitVec.toNat_ofNat,
    BitVec.toNat_ofNat, hbase]
  omega

/-- The push of ES goes to the stack, the only thing written before the tables. -/
theorem PageEntry.found_within :
    Mem.Within (base e.c + BitVec.ofNat 32 ((e.c.reg16 .esp).toNat - 2)) 2 e.c.mem e.found := by
  unfold PageEntry.found
  rw [push16_mem, e.placed.push_place]
  exact Mem.splice_within _ _ _ _

/-- The data of the program reads as before, as long as nothing but the tables is written. -/
theorem PageEntry.read32 {m : Mem} (h : Mem.Within hma 12288 e.found m) {j : Nat}
    (hj : j + 4 ≤ l.buffer) :
    m.read32 (base e.c + BitVec.ofNat 32 j) = e.c.mem.read32 (base e.c + BitVec.ofNat 32 j) := by
  obtain ⟨_, _, _, hroom, hlt⟩ := e.placed.bounds
  have htables := h.read32_apart (e.apart (j := j) (w := 4) (by omega)) (e := 0) (by decide)
  have hpush := e.found_within.read32_object (e := j) (.inl (by omega)) (by omega) (by omega)
  rw [BitVec.add_zero] at htables
  exact htables.trans hpush

/-- The start of the copy. -/
structure CopyStart (s : Loader) : Prop where
  es : s.seg .es = 0xFFFF#16
  ds : s.seg .ds = e.c.seg .ds
  df : s.df = false
  env : s.env = e.c.env
  ebx : s.reg16 .ebx = 16#16
  ecx : s.reg16 .ecx = 256#16
  esi : s.reg16 .esi = BitVec.ofNat 16 l.idMap
  edi : s.reg16 .edi = BitVec.ofNat 16 (16 + 4 * 1024)
  mem : s.mem = (e.found.write32 (hma + BitVec.ofNat 32 (4 * 0)) 0x101007#32).write32
    (hma + BitVec.ofNat 32 (4 * 768)) 0x102003#32

/-- ES:BX at the directory. -/
def atDirectory (c : Loader) : Loader :=
  let c := c.push16 (c.seg .es) |>.set16 .eax 0xFFFF#16
  c.setSeg .es (c.reg16 .eax) |>.set16 .ebx 16#16

/-- Two entries at ES:BX. -/
def directoryStored (c : Loader) : Loader :=
  let c := c.store (linear (c.seg .es) (c.reg16 .ebx)) (0x101#32 <<< 12 ||| 7#32)
  c.store (linear (c.seg .es) (c.reg16 .ebx + 768#16 * 4#16)) (0x102#32 <<< 12 ||| 3#32)

section Directory

variable (c : Loader)

/-- The part before the first loop: two entries of the directory are stored, and the registers of
the copy are set up. -/
theorem directory_eq : directory l c =
    (((directoryStored (atDirectory c)).set16 .ecx 256#16).set16 .esi
      (BitVec.ofNat 16 l.idMap)).set16 .edi
        ((directoryStored (atDirectory c)).reg16 .ebx + 4096#16) := rfl

theorem atDirectory_es : (atDirectory c).seg .es = 0xFFFF#16 := by
  unfold atDirectory
  dsimp only
  rw [set16_seg, setSeg_seg, if_pos rfl, set16_reg16, if_pos rfl]

theorem atDirectory_ds : (atDirectory c).seg .ds = c.seg .ds := by
  unfold atDirectory
  dsimp only
  rw [set16_seg, setSeg_seg, if_neg (by decide), set16_seg, push16_seg]

theorem atDirectory_ebx : (atDirectory c).reg16 .ebx = 16#16 := by
  unfold atDirectory
  dsimp only
  rw [set16_reg16, if_pos rfl]

theorem directoryStored_seg : (directoryStored c).seg = c.seg := by
  unfold directoryStored
  dsimp only
  rw [store_seg, store_seg]

theorem directoryStored_reg16 (q : Reg) : (directoryStored c).reg16 q = c.reg16 q := by
  unfold directoryStored
  dsimp only
  rw [store_reg16, store_reg16]

/-- The two entries are stored by their physical addresses in the high memory area, by way of a
segment of FFFFh and the offset 10h. -/
theorem directoryStored_mem (hes : c.seg .es = 0xFFFF#16) (hbx : c.reg16 .ebx = 16#16) :
    (directoryStored c).mem = (c.mem.write32 (hma + BitVec.ofNat 32 (4 * 0)) 0x101007#32).write32
      (hma + BitVec.ofNat 32 (4 * 768)) 0x102003#32 := by
  have hfirst : linear 0xFFFF#16 16#16 = hma + BitVec.ofNat 32 (4 * 0) :=
    linear_hma (k := 0) (by decide)
  have hsecond : linear 0xFFFF#16 (16#16 + 768#16 * 4#16) = hma + BitVec.ofNat 32 (4 * 768) :=
    linear_hma (k := 3072) (by decide)
  unfold directoryStored
  dsimp only
  rw [store_mem, store_mem, store_seg, store_reg16, hes, hbx, hfirst, hsecond]
  rfl

end Directory

/-- The loop that fills the identity map is entered with its source, its destination and its
count. -/
theorem PageEntry.copyStart : CopyStart e (directory l e.c) := by
  have hseg := directoryStored_seg (atDirectory e.c)
  have hbx := (directoryStored_reg16 (atDirectory e.c) .ebx).trans (atDirectory_ebx e.c)
  have hmem := directoryStored_mem (atDirectory e.c) (atDirectory_es e.c) (atDirectory_ebx e.c)
  have hfound : (atDirectory e.c).mem = e.found := rfl
  rw [directory_eq]
  refine ⟨?_, ?_, e.df, rfl, ?_, ?_, ?_, ?_, ?_⟩
  · rw [set16_seg, set16_seg, set16_seg, hseg, atDirectory_es]
  · rw [set16_seg, set16_seg, set16_seg, hseg, atDirectory_ds]
  · rw [set16_reg16, if_neg (by decide), set16_reg16, if_neg (by decide), set16_reg16,
      if_neg (by decide), hbx]
  · rw [set16_reg16, if_neg (by decide), set16_reg16, if_neg (by decide), set16_reg16, if_pos rfl]
  · rw [set16_reg16, if_neg (by decide), set16_reg16, if_pos rfl]
  · rw [set16_reg16, if_pos rfl, hbx]
    rfl
  · rw [set16_mem, set16_mem, set16_mem, hmem, hfound]

/-- Before the loops the area holds the two entries of the directory, and elsewhere what was found
there. -/
theorem CopyStart.filled {s : Loader} (h : CopyStart e s) :
    Mem.Within hma 12288 e.found s.mem ∧ ∀ k < 3072, s.mem.entry hma k =
      if k = 768 then 0x102003#32 else if k = 0 then 0x101007#32 else e.found.entry hma k := by
  refine ⟨?_, fun k hk => ?_⟩
  · rw [h.mem]
    refine Mem.Within.trans ((Mem.write32_within _ _ _).mono ?_)
      ((Mem.write32_within _ _ _).mono ?_)
    · decide
    · decide
  · rw [h.mem, Mem.entry_write32 _ (by omega) (by decide),
      Mem.entry_write32 _ (by omega) (by decide)]

/-- The attributes of a kernel page, in the low byte of its address. -/
theorem frame_attributes (w : DWORD) : frame w ||| (3#8).setWidth 32 = frame w + 3#32 := by
  refine (BitVec.add_eq_or_of_and_eq_zero _ _ ?_).symm
  unfold frame
  rw [BitVec.and_assoc]
  exact BitVec.and_zero

/-- The start of the kernel's pages. -/
structure MapStart (c s : Loader) : Prop where
  seg : s.seg = c.seg
  mem : s.mem = c.mem
  df : s.df = c.df
  env : s.env = c.env
  edi : s.reg16 .edi = c.reg16 .ebx + 8192#16
  ecx : s.reg16 .ecx = 256#16
  eax : s.gpr .eax =
    frame (c.mem.read32 (linear (c.seg .ds) (BitVec.ofNat 16 l.kernelAddr))) + 3#32

theorem mapStart (c : Loader) : MapStart (l := l) c (kernelPages l c) := by
  obtain ⟨a, ha⟩ : ∃ a, a = (c.set16 .edi (c.reg16 .ebx + 8192#16)).load .eax
    (linear (c.seg .ds) (BitVec.ofNat 16 l.kernelAddr)) := ⟨_, rfl⟩
  obtain ⟨b, hb⟩ : ∃ b, b = a.set .eax (a.gpr .eax &&& 0xFFFFF000#32) := ⟨_, rfl⟩
  have heq : kernelPages l c = (b.setLow8 .eax 3#8).set16 .ecx 256#16 := by
    rw [hb, ha]
    rfl
  have hax : b.gpr .eax =
      frame (c.mem.read32 (linear (c.seg .ds) (BitVec.ofNat 16 l.kernelAddr))) := by
    rw [hb, set_gpr, if_pos rfl, ha, load_gpr, if_pos rfl]
    rfl
  have hlow : ∀ i < 8, (b.gpr .eax).getLsbD i = false := by
    intro i hi
    rw [hax, frame_eq_shift, BitVec.getLsbD_shiftLeft]
    simp [show i < 12 by omega]
  rw [heq]
  refine ⟨?_, ?_, ?_, ?_, ?_, ?_, ?_⟩
  · rw [hb, ha]
    rfl
  · rw [hb, ha]
    rfl
  · rw [hb, ha]
    rfl
  · rw [hb, ha]
    rfl
  · rw [set16_reg16, if_neg (by decide)]
    show ((b.set16 .eax _).reg16 .edi) = _
    rw [set16_reg16, if_neg (by decide), hb, set_reg16_of_ne _ _ _ _ (by decide), ha]
    show ((c.set16 .edi (c.reg16 .ebx + 8192#16)).set .eax _).reg16 .edi = _
    rw [set_reg16_of_ne _ _ _ _ (by decide), set16_reg16, if_pos rfl]
  · rw [set16_reg16, if_pos rfl]
  · rw [set16_gpr_of_ne _ _ _ _ (by decide), setLow8_gpr _ hlow, hax, frame_attributes]

/-- The dwords of `IDMap`. -/
def identityPage (n : Nat) : DWORD := BitVec.ofNat 32 (4096 * n + 7)

/-- The dwords of the kernel's table. -/
def PageEntry.kernelPage (n : Nat) : DWORD :=
  frame e.kernelAddr + 3#32 + BitVec.ofNat 32 (4096 * n)

/-- The first loop ends with the identity pages in place. They are read from the program itself. -/
theorem CopyStart.leaves {s : Loader} (h : CopyStart e s) :
    ∃ c, Loop.Leaves repMovsd s c ∧ Filling identityPage 1024 256 s c := by
  obtain ⟨_, _, hidMap, hroom, hlt⟩ := e.placed.bounds
  obtain ⟨hwithin, _⟩ := h.filled
  have hbase : base s = base e.c := by
    unfold base
    rw [h.ds]
  have hcopy : Filling identityPage 1024 0 s s :=
    ⟨Filled.zero _ _ _, rfl, h.df, rfl, rfl, h.ecx, h.edi⟩
  refine repMovsd_leaves hcopy h.es (by decide) (by omega) h.esi fun m hm n hn => ?_
  rw [hbase, e.read32 (hwithin.trans hm) (by omega)]
  exact e.idMap n hn

/-- The second loop ends with the pages of the kernel in place, after those of the first. -/
theorem CopyStart.kernel_leaves {s c : Loader} (h : CopyStart e s)
    (hc : Filling identityPage 1024 256 s c) :
    ∃ c', Loop.Leaves mapLoop (kernelPages l c) c' ∧
      Filling e.kernelPage 2048 256 (kernelPages l c) c' := by
  obtain ⟨hkernelAddr, hxmm, hidMap, hroom, hlt⟩ := e.placed.bounds
  obtain ⟨hwithin, _⟩ := h.filled
  have hstart := mapStart (l := l) c
  have hkernel : c.mem.read32 (linear (c.seg .ds) (BitVec.ofNat 16 l.kernelAddr)) =
      e.kernelAddr := by
    rw [hc.seg, h.ds, linear_ofNat _ (by omega)]
    exact e.read32 (hwithin.trans hc.filled.within) (by omega)
  have hes : (kernelPages l c).seg .es = 0xFFFF#16 := by
    rw [hstart.seg, hc.seg, h.es]
  have hmap : Filling e.kernelPage 2048 0 (kernelPages l c) (kernelPages l c) := by
    refine ⟨Filled.zero _ _ _, rfl, hstart.df.trans hc.df, rfl, rfl, hstart.ecx, ?_⟩
    rw [hstart.edi, hc.ebx, h.ebx]
    rfl
  have hax := hstart.eax
  rw [hkernel] at hax
  exact mapLoop_leaves hmap hes (by decide) hax fun _ => rfl

/-- What the area holds is decided by the last write to each place, and the specification of a dword
lists them in that order. -/
theorem PageEntry.dword_eq (k : Nat) :
    (if 2048 ≤ k ∧ k < 2048 + 256 then e.kernelPage (k - 2048)
      else if 1024 ≤ k ∧ k < 1024 + 256 then identityPage (k - 1024)
      else if k = 768 then 0x102003#32 else if k = 0 then 0x101007#32
      else e.found.entry hma k) = e.dword k := by
  unfold PageEntry.dword
  by_cases hzero : k = 0
  · rw [if_neg (by omega), if_neg (by omega), if_neg (by omega), if_pos hzero, if_pos hzero]
  by_cases hlast : k = 768
  · rw [if_neg (by omega), if_neg (by omega), if_pos hlast, if_neg hzero, if_pos hlast]
  rw [if_neg hlast, if_neg hzero, if_neg hzero, if_neg hlast]
  by_cases hlow : 1024 ≤ k ∧ k < 1024 + 256
  · rw [if_neg (by omega), if_pos hlow, if_pos hlow]
    rfl
  · rw [if_neg hlow, if_neg hlow]
    rfl

/-- With enough rounds the setup ends, and the area reads as specified in every dword. No premise
asks for a condition of memory before. -/
theorem pageSetup_run : ∃ c, (∃ rounds, pageSetup l rounds e.c = some c) ∧ Tables e c := by
  obtain ⟨s, hs⟩ : ∃ s, s = directory l e.c := ⟨_, rfl⟩
  have hcopy : CopyStart e s := hs ▸ e.copyStart
  obtain ⟨hwithin, hdirectory⟩ := hcopy.filled e
  obtain ⟨c₁, ⟨n₁, hn₁⟩, hc₁⟩ := hcopy.leaves e
  obtain ⟨c₂, ⟨n₂, hn₂⟩, hc₂⟩ := hcopy.kernel_leaves e hc₁
  have hstart := mapStart (l := l) c₁
  refine ⟨loadCR3 c₂, ⟨max n₁ n₂, ?_⟩, ?_, ?_, ?_⟩
  · unfold pageSetup
    rw [← hs, Loop.run_mono hn₁ (Nat.le_max_left _ _), Option.bind_eq_bind, Option.bind_some,
      Loop.run_mono hn₂ (Nat.le_max_right _ _)]
    rfl
  · have hpages : Mem.Within hma 12288 c₁.mem c₂.mem := by
      rw [← hstart.mem]
      exact hc₂.filled.within
    exact (hwithin.trans hc₁.filled.within).trans hpages
  · intro k hk
    have hmapped := hc₂.filled.entries k hk
    rw [hstart.mem, hc₁.filled.entries k hk, hdirectory k hk] at hmapped
    exact hmapped.trans (e.dword_eq k)
  · have hcr3 : c₂.env.cr3 = e.c.env.cr3 := by
      rw [hc₂.env, hstart.env, hc₁.env, hcopy.env]
    show (c₂.env.cr3 &&& ~~~0xFFF#32) ||| 0x100000#32 = _
    rw [hcr3]

/-- An entry of the second or third page of the area, by its table and its index. -/
theorem Tables.entry {e : PageEntry l} {c : Loader} (h : Tables e c) {k i : Nat} (hk : k < 3)
    (hi : i < 1024) :
    c.mem.entry (hma + BitVec.ofNat 32 (4096 * k)) i = e.dword (1024 * k + i) := by
  rw [Mem.entry_add]
  exact h.entries _ (by omega)

/-- After both loops the directory reads as the specification has it, in each of its 1024 entries:
those that are not set are as they were found. -/
theorem Tables.directory {e : PageEntry l} {c : Loader} (h : Tables e c) {i : Nat} (hi : i < 1024) :
    c.mem.entry hma i = e.dword i := h.entries i (by omega)

/-- The page of the directory begins on a page boundary, and so CR3 is its address. -/
theorem frame_hma : frame hma = hma := by decide

/-- The upper three quarters of a table are not written, and hold what was found. -/
theorem PageEntry.dword_rest {k j : Nat} (hk : k = 1 ∨ k = 2) (hj : 256 ≤ j) (hj' : j < 1024) :
    e.dword (1024 * k + j) = e.found.entry (hma + BitVec.ofNat 32 (4096 * k)) j := by
  unfold PageEntry.dword
  rw [if_neg (by omega), if_neg (by omega), if_neg (by omega), if_neg (by omega), Mem.entry_add]

/-- All entries of the directory but two are not written either. -/
theorem PageEntry.dword_directory {i : Nat} (hi : i < 1024) (hzero : i ≠ 0) (hlast : i ≠ 768) :
    e.dword i = e.found.entry hma i := by
  unfold PageEntry.dword
  rw [if_neg hzero, if_neg hlast, if_neg (by omega), if_neg (by omega)]

/-- The two entries of the directory lead to the two tables that were filled. -/
theorem Tables.frame_windows {e : PageEntry l} {c : Loader} (h : Tables e c) :
    frame (c.mem.entry hma 0) = hma + BitVec.ofNat 32 (4096 * 1) ∧
      frame (c.mem.entry hma 768) = hma + BitVec.ofNat 32 (4096 * 2) := by
  rw [h.directory (by decide), h.directory (by decide), e.dword_zero, e.dword_last]
  decide

/-- Both windows are present in the directory, which is the first of the two levels of each
translation. -/
theorem Tables.windows_present {e : PageEntry l} {c : Loader} (h : Tables e c) :
    present (c.mem.entry hma 0) = true ∧ present (c.mem.entry hma 768) = true := by
  rw [h.directory (by decide), h.directory (by decide), e.dword_zero, e.dword_last]
  decide

/-- Behind its first 256 entries a table is as it was found, present entries included. -/
theorem Tables.table_rest {e : PageEntry l} {c : Loader} (h : Tables e c) {k j : Nat}
    (hk : k = 1 ∨ k = 2) (hj : 256 ≤ j) (hj' : j < 1024) :
    c.mem.entry (hma + BitVec.ofNat 32 (4096 * k)) j =
      e.found.entry (hma + BitVec.ofNat 32 (4096 * k)) j := by
  rw [h.entry (by omega) hj', e.dword_rest hk hj hj']

/-- Every other entry of the directory is what memory held before. The code neither clears nor sets
it, and this is where what is mapped elsewhere comes from. -/
theorem Tables.directory_rest {e : PageEntry l} {c : Loader} (h : Tables e c) {i : Nat}
    (hi : i < 1024) (hzero : i ≠ 0) (hlast : i ≠ 768) :
    c.mem.entry hma i = e.found.entry hma i := by
  rw [h.directory hi, e.dword_directory hi hzero hlast]

/-- Each of the three pages has an entry that is present, the first one. -/
theorem Tables.first_present {e : PageEntry l} {c : Loader} (h : Tables e c) {k : Nat}
    (hk : k < 3) :
    present (c.mem.entry (hma + BitVec.ofNat 32 (4096 * k)) 0) = true := by
  rw [h.entry hk (by decide)]
  rcases k with _ | _ | _ | k
  · show present (e.dword 0) = true
    rw [e.dword_zero]
    decide
  · show present (e.dword 1024) = true
    unfold PageEntry.dword
    rw [if_neg (by decide), if_neg (by decide), if_pos (by decide)]
    decide
  · have hattributes : present (frame e.kernelAddr + 3#32) = present 3#32 := by
      refine getLsbD_frame_add (frame_eq_self ?_) (by decide) (by decide)
      rw [frame_toNat]
      omega
    show present (frame e.kernelAddr + 3#32 + BitVec.ofNat 32 (4096 * 0)) = true
    rw [Nat.mul_zero, BitVec.add_zero, hattributes]
    decide
  · omega

/-- A page of memory that is none of the three is as it was found. -/
theorem Tables.other {e : PageEntry l} {c : Loader} (h : Tables e c) {d : DWORD}
    (hd : ∀ k < 3, frame d ≠ hma + BitVec.ofNat 32 (4096 * k)) {j : Nat} (hj : j < 1024) :
    c.mem.entry (frame d) j = e.found.entry (frame d) j := by
  have hapart : Mem.Apart (frame d) 4096 hma 12288 :=
    Mem.page_apart (by decide) (by decide) d hd
  exact h.within.entry hapart hj

/-- The outcome does not depend on how many rounds are allowed, as long as there is one. -/
theorem pageSetup_unique {c x y : Loader} {rounds rounds' : Nat}
    (h : pageSetup l rounds c = some x) (h' : pageSetup l rounds' c = some y) : x = y := by
  unfold pageSetup at h h'
  obtain ⟨a, ha, h⟩ := Option.bind_eq_some_iff.mp h
  obtain ⟨a', ha', h'⟩ := Option.bind_eq_some_iff.mp h'
  obtain rfl := Loop.Leaves.unique ⟨rounds, ha⟩ ⟨rounds', ha'⟩
  obtain ⟨b, hb, h⟩ := Option.bind_eq_some_iff.mp h
  obtain ⟨b', hb', h'⟩ := Option.bind_eq_some_iff.mp h'
  obtain rfl := Loop.Leaves.unique ⟨rounds, hb⟩ ⟨rounds', hb'⟩
  exact Option.some.inj (h.symm.trans h')

end Entry

end OS90.Boot
