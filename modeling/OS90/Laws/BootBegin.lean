import OS90.Kernel.Ia32
import OS90.Kernel.StartK
import OS90.Laws.BootImage

/-!
# The zeroed variables of the kernel

`ZeroLaw` is what every static variable of the kernel relies on: when `Begin` is done with the
section of zeroed variables it is zero, and nothing else has changed. `Begin` stores EAX, which it
never sets, so the law holds for a section that is empty or a machine that comes with EAX zero
(`zeroLaw_iff`). The loader never comes with EAX zero (`not_zeroLaw_gotoKernel`).

`Begun` is the whole of physical memory once `Begin` is done with the section of zeroed variables,
when the boot program has brought it there from DOS. The loop is the one through the page tables the
program has built: the window is mapped, so no store is a page fault, and the tables are not behind
the window, so it stays mapped while it is filled (`Final.maps`).

What is stored is the EAX of the jump, the high half of CR0 and the data selector. No dword of the
section is zero, and every byte of the image outside it is still the file's.
-/

namespace OS90.Laws

open OS90.Ia32 OS90.Ia32.Cpu OS90.Kernel OS90.Boot

/-! ## The loop alone -/

/-- A machine as it enters the kernel: the direction flag is clear. -/
structure KernelEntry (σ : Type) where
  c : Cpu σ
  df : c.df = false

section Laws

variable {σ : Type} (b : Bss)

def ZeroLaw (c : Cpu σ) : Prop :=
  ∃ rounds c', begin b rounds c = some c' ∧
    (∀ a, b.lkrStartBss ≤ a → a < b.lkrEnd → c'.mem a = 0) ∧
    ∀ a, a < b.lkrStartBss ∨ b.lkrEnd ≤ a → c'.mem a = c.mem a

/-- A dword whose four bytes are zero is zero, which is how the law about bytes comes to say
something of EAX. -/
theorem eq_zero_of_bytes {v : DWORD} (h : ∀ i < 4, v.extractLsb' (8 * i) 8 = 0#8) : v = 0#32 := by
  rw [← Mem.extractLsb'_append v, h 3 (by decide), h 2 (by decide), h 1 (by decide),
    h 0 (by decide)]
  rfl

/-- Whatever the bound on the rounds, `Begin` leaves the same machine, so that the law may choose
one. -/
theorem begin_unique {c c' c'' : Cpu σ} {rounds rounds' : Nat} (h : begin b rounds c = some c')
    (h' : begin b rounds' c = some c'') : c' = c'' := Loop.Leaves.unique ⟨rounds, h⟩ ⟨rounds', h'⟩

/-- An address is its distance from the start of the section, added to that again. -/
theorem byte_of_sub (m : Mem) (a : Word) :
    m.byte b.lkrStartBss (a - b.lkrStartBss).toNat = m a := by
  unfold Mem.byte
  rw [BitVec.ofNat_toNat, BitVec.setWidth_eq, BitVec.add_comm, BitVec.sub_add_cancel]

variable {b} in
/-- Byte `i` of a section that is not empty becomes byte `i` of EAX. If the law holds, EAX was zero
or there was nothing to fill. -/
theorem ZeroLaw.eax {e : KernelEntry σ} (hlaw : ZeroLaw b e.c) :
    e.c.gpr .eax = 0 ∨ b.lkrStartBss = b.lkrEnd := by
  obtain ⟨rounds, c', hrun, hfilled⟩ := begin_fills b e.c e.df
  obtain ⟨rounds', c'', hrun', hzero, _⟩ := hlaw
  obtain rfl := begin_unique b hrun hrun'
  have hle := BitVec.le_def.mp b.le
  have hstart := b.startAligned
  have hend := b.endAligned
  have hbound := b.lkrEnd.isLt
  have hdwords : b.dwords = (b.lkrEnd.toNat - b.lkrStartBss.toNat) / 4 := rfl
  by_cases hempty : b.lkrStartBss = b.lkrEnd
  · exact Or.inr hempty
  · have hne : b.lkrStartBss.toNat ≠ b.lkrEnd.toNat := fun h => hempty (BitVec.eq_of_toNat_eq h)
    refine Or.inl (eq_zero_of_bytes fun i hi => ?_)
    have hbyte := hfilled i (by omega)
    rw [if_pos (by omega), Nat.mod_eq_of_lt hi] at hbyte
    have hplace : (b.lkrStartBss + BitVec.ofNat 32 i).toNat = b.lkrStartBss.toNat + i := by
      rw [BitVec.toNat_add, BitVec.toNat_ofNat]
      omega
    rw [← hbyte]
    exact hzero _ (by rw [BitVec.le_def]; omega) (by rw [BitVec.lt_def]; omega)

/-- For every section, machine and memory: the section is zeroed, and it alone, exactly when EAX is
zero or the section is empty. That it ends, and what it writes to, needs no condition. The direction
flag is clear at the entry, as the loader leaves it. -/
theorem zeroLaw_iff (e : KernelEntry σ) :
    ZeroLaw b e.c ↔ e.c.gpr .eax = 0 ∨ b.lkrStartBss = b.lkrEnd := by
  constructor
  · exact ZeroLaw.eax
  · intro h
    obtain ⟨rounds, c', hrun, hfilled⟩ := begin_fills b e.c e.df
    have hle := BitVec.le_def.mp b.le
    have hstart := b.startAligned
    have hend := b.endAligned
    have hbound := b.lkrEnd.isLt
    have hdwords : b.dwords = (b.lkrEnd.toNat - b.lkrStartBss.toNat) / 4 := rfl
    have hvalue : ∀ a, c'.mem a =
        if (a - b.lkrStartBss).toNat < 4 * b.dwords then
          (e.c.gpr .eax).extractLsb' (8 * ((a - b.lkrStartBss).toNat % 4)) 8
        else e.c.mem a := by
      intro a
      have hbyte := hfilled (a - b.lkrStartBss).toNat (a - b.lkrStartBss).isLt
      rwa [byte_of_sub, byte_of_sub] at hbyte
    refine ⟨rounds, c', hrun, fun a hlow hhigh => ?_, fun a houtside => ?_⟩
    · rw [BitVec.le_def] at hlow
      rw [BitVec.lt_def] at hhigh
      rw [hvalue]
      rcases h with hzero | hempty
      · have hin : (a - b.lkrStartBss).toNat < 4 * b.dwords := by
          rw [BitVec.toNat_sub]
          omega
        rw [if_pos hin, hzero]
        exact BitVec.extractLsb'_zero
      · rw [hempty] at hlow
        omega
    · rw [BitVec.lt_def, BitVec.le_def] at houtside
      have hout : ¬ (a - b.lkrStartBss).toNat < 4 * b.dwords := by
        have ha := a.isLt
        rw [BitVec.toNat_sub]
        omega
      rw [hvalue, if_neg hout]

end Laws

/-- The loader's own way into the kernel, from any state of it and with any CR0: a section that is
not empty is not zeroed. -/
theorem not_zeroLaw_gotoKernel {b : Bss} (hb : b.lkrStartBss ≠ b.lkrEnd) (gdt gdtr : Nat)
    (cr0 : DWORD) {c : Loader} (hdf : c.df = false) :
    ¬ ZeroLaw b (gotoKernel gdt gdtr cr0 c).2 := by
  intro hlaw
  have hax := gotoKernel_ax gdt gdtr cr0 c
  rcases ZeroLaw.eax (e := ⟨_, (gotoKernel_df gdt gdtr cr0 c).trans hdf⟩) hlaw with hzero | hempty
  · rw [reg16, hzero] at hax
    exact absurd hax (by decide)
  · exact hb hempty

/-- Four pages of variables, as they are linked above the text and the data. -/
def bssLinked : Bss where
  lkrStartBss := 0xC0010000
  lkrEnd := 0xC0014000
  startAligned := by decide
  endAligned := by decide
  le := by decide

/-- The kernel entered with paging just enabled, and the selector in AX, as the loader leaves it:
the section is filled with that. -/
theorem zeroLaw_paging : ¬ ZeroLaw bssLinked (Machine.idle.set .eax 0x80000010) := by
  intro hlaw
  have hdf : (Machine.idle.set .eax 0x80000010).df = false := by decide
  rcases ZeroLaw.eax (e := ⟨_, hdf⟩) hlaw with hzero | hempty
  · change (Machine.idle.set .eax 0x80000010).gpr .eax = 0 at hzero
    exact absurd hzero (by decide)
  · exact absurd hempty (by decide)

/-! ## The whole run -/

/-- The section is in the megabyte from C0000000h. -/
structure Linked (b : Bss) : Prop where
  start : 0xC0000000 ≤ b.lkrStartBss.toNat
  fits : b.lkrEnd.toNat ≤ 0xC0100000

/-- Where the section is in the window. -/
def bssPlace (b : Bss) : Nat := b.lkrStartBss.toNat - 0xC0000000

/-- Memory at the kernel's `lgdt`, which was `m` at the jump with `cr0`. -/
structure Begun {l : Labels} {b : l.Rest} (e : BootEntry b) (block : DWORD) (bss : Bss)
    (cr0 cr3 : DWORD) (m m' : Mem) : Prop where
  filled : ∀ j < bss.dwords,
    m'.read32 (firstPage block + BitVec.ofNat 32 (bssPlace bss + 4 * j)) =
      cr0.extractLsb' 16 16 ++ 0x10#16
  image : ∀ o < 4096 * (e.n - 1),
    slip block + o < bssPlace bss ∨ bssPlace bss + 4 * bss.dwords ≤ slip block + o →
      m' (firstPage block + BitVec.ofNat 32 (slip block + o)) = e.c.env.world.file.data o
  others : Mem.Within (firstPage block + BitVec.ofNat 32 (bssPlace bss)) (4 * bss.dwords) m m'
  low : ∀ la : DWORD, la.toNat < 2 ^ 20 → m'.translate cr3 la = some ⟨la, true, true⟩
  window : ∀ o : DWORD, o.toNat < 2 ^ 20 →
    m'.translate cr3 (0xC0000000#32 + o) = some ⟨firstPage block + o, true, false⟩

section Kept

variable {l : Labels} {b : l.Rest} {e : PageEntry l} {c : Loader} {place : DWORD} {n : Nat}
  {data : Nat → BYTE} {m m' : Mem} {cr3 p : DWORD}

/-- A window does not hold its own tables, since the block is above them. So what is written to the
block leaves the translation as it was. -/
theorem Final.kept (h : Final b e c place n data m) (hcr3 : frame cr3 = hma)
    (hlow : 0x110000 ≤ p.toNat) (hfit : p.toNat + 2 ^ 20 ≤ 2 ^ 32)
    (hwithin : Mem.Within p (2 ^ 20) m m') {la : DWORD}
    (hla : dirIndex la = 0 ∨ dirIndex la = 768) : m'.translate cr3 la = m.translate cr3 la := by
  have hapart : Mem.Apart hma 12288 p (2 ^ 20) := by
    have hhma : hma.toNat = 0x100000 := rfl
    intro j hj
    rw [BitVec.toNat_sub, BitVec.toNat_add, BitVec.toNat_ofNat, hhma]
    omega
  have hkept := ((h.translate hla).2.kept hwithin hapart).1
  have hframe : frame cr3 = frame hma := hcr3.trans frame_hma.symm
  rw [m'.translate_congr_frame hframe, hkept, ← m.translate_congr_frame hframe]

/-- The window of the kernel therefore stays mapped, whatever is written there, and this is what the
loop through paging needs. -/
theorem Final.maps (h : Final b e c place n data m) (hcr3 : frame cr3 = hma)
    (hlow : 0x110000 ≤ p.toNat) (hfit : p.toNat + 2 ^ 20 ≤ 2 ^ 32)
    (hwindow : ∀ o : DWORD, o.toNat < 2 ^ 20 →
      m.translate cr3 (0xC0000000#32 + o) = some ⟨p + o, true, false⟩) :
    m.Maps cr3 0xC0000000#32 p (2 ^ 20) := by
  intro m' hwithin i hi
  have ho : (BitVec.ofNat 32 i).toNat < 2 ^ 20 := by
    rw [BitVec.toNat_ofNat]
    omega
  refine ⟨false, ?_⟩
  rw [h.kept hcr3 hlow hfit hwithin (.inr (dirIndex_window ho))]
  exact hwindow _ ho

end Kept

/-- What changes in the section changes in the block, if the section is within the megabyte that is
mapped. -/
theorem within_window {block : DWORD} {bss : Bss} {m m' : Mem}
    (h : Mem.Within (firstPage block + BitVec.ofNat 32 (bssPlace bss)) (4 * bss.dwords) m m')
    (hfits : bssPlace bss + 4 * bss.dwords ≤ 2 ^ 20) :
    Mem.Within (firstPage block) (2 ^ 20) m m' := by
  refine h.mono ?_
  rw [Mem.add_sub_cancel_toNat _ (by omega)]
  exact hfits

section Begun

variable {l : Labels} {b : l.Rest} {e : BootEntry b} {block cr0 : DWORD} {bss : Bss} {c : Loader}
  {m m' : Mem}

/-- The section, when the loop has filled it, reads as EAX in each of its dwords: the upper half of
CR0 over the selector. -/
theorem filled_of_splice (heax : c.gpr .eax = cr0.extractLsb' 16 16 ++ 0x10#16)
    (hfits : bssPlace bss + 4 * bss.dwords ≤ 2 ^ 20)
    (hm' : m' = m.splice (firstPage block + BitVec.ofNat 32 (bssPlace bss)) (4 * bss.dwords)
      fun i => (c.gpr .eax).extractLsb' (8 * (i % 4)) 8) {j : Nat} (hj : j < bss.dwords) :
    m'.read32 (firstPage block + BitVec.ofNat 32 (bssPlace bss + 4 * j)) =
      cr0.extractLsb' 16 16 ++ 0x10#16 := by
  obtain ⟨start, hstart⟩ : ∃ start, start = firstPage block + BitVec.ofNat 32 (bssPlace bss) :=
    ⟨_, rfl⟩
  have hbyte : ∀ i < 4, m'.byte (start + BitVec.ofNat 32 (4 * j)) i =
      (c.gpr .eax).extractLsb' (8 * i) 8 := by
    intro i hi
    have hmod : (4 * j + i) % 4 = i := by omega
    rw [Mem.byte_add, hm', ← hstart, Mem.byte_splice_self _ _ _ (by omega) (by omega) (by omega),
      if_pos (by omega), hmod]
  rw [← Mem.add_ofNat_add, ← hstart, Mem.read32_eq_byte, hbyte 3 (by decide),
    hbyte 2 (by decide), hbyte 1 (by decide), hbyte 0 (by decide), ← heax]
  exact Mem.extractLsb'_append _

/-- The image outside the section is as it was loaded, for nothing but the section was written. -/
theorem Entered.image_outside (h : Entered e block cr0 c m)
    (hfits : bssPlace bss + 4 * bss.dwords ≤ 2 ^ 20)
    (hwithin : Mem.Within (firstPage block + BitVec.ofNat 32 (bssPlace bss)) (4 * bss.dwords) m m')
    {o : Nat} (ho : o < 4096 * (e.n - 1))
    (houtside : slip block + o < bssPlace bss ∨ bssPlace bss + 4 * bss.dwords ≤ slip block + o) :
    m' (firstPage block + BitVec.ofNat 32 (slip block + o)) = e.c.env.world.file.data o := by
  have hn := e.lt
  have hslip : slip block ≤ 0x10000 := by
    unfold slip
    split <;> omega
  rw [← h.image o ho]
  refine hwithin _ ?_
  rw [Mem.byte_distance _ (by omega) (by omega)]
  omega

/-- The section is in the window, which follows from where the linker has put the symbols. -/
theorem Linked.fits_window (hbss : Linked bss) : bssPlace bss + 4 * bss.dwords ≤ 2 ^ 20 ∧
    bss.lkrStartBss = 0xC0000000#32 + BitVec.ofNat 32 (bssPlace bss) := by
  have hle := BitVec.le_def.mp bss.le
  have hstart := hbss.start
  have hend := hbss.fits
  have hdwords : bss.dwords = (bss.lkrEnd.toNat - bss.lkrStartBss.toNat) / 4 := rfl
  have hplace : bssPlace bss = bss.lkrStartBss.toNat - 0xC0000000 := rfl
  refine ⟨by omega, ?_⟩
  apply BitVec.eq_of_toNat_eq
  rw [BitVec.toNat_add, BitVec.toNat_ofNat, BitVec.toNat_ofNat]
  omega

/-- From the jump to the `lgdt`, for every block that the premises of the boot allow and every
section that is linked into the window. -/
theorem Final.begins {c₁ c₂ : Loader} {h₁ : e.Stage c₁}
    (h : Final b h₁.pages c₂ (firstPage block + BitVec.ofNat 32 (slip block)) (e.n - 1)
      e.c.env.world.file.data m) (hentered : Entered e block cr0 c m)
    (hcr3 : frame c.env.cr3 = hma) (hlow : 0x110000 ≤ block.toNat)
    (hhigh : block.toNat ≤ 0xE0000000) (hbss : Linked bss) :
    ∃ rounds c', beginPaged bss (cr0.getLsbD 16) c.env.cr3 rounds { c with mem := m } =
        some (some c') ∧ Begun e block bss cr0 c.env.cr3 m c'.mem := by
  have hpage := firstPage_toNat hhigh
  obtain ⟨hfits, hlinked⟩ := hbss.fits_window
  have hmaps := h.maps (p := firstPage block) hcr3 (by omega) (by omega) hentered.window
  obtain ⟨rounds, c', hbegin, hmem⟩ := beginPaged_fills bss (cr0.getLsbD 16)
    (c := { c with mem := m }) hentered.forward hmaps (by decide) hlinked (by omega)
  have hothers : Mem.Within (firstPage block + BitVec.ofNat 32 (bssPlace bss)) (4 * bss.dwords)
      m c'.mem := by
    rw [hmem]
    exact Mem.splice_within _ _ _ _
  have hkept : ∀ {la}, dirIndex la = 0 ∨ dirIndex la = 768 →
      c'.mem.translate c.env.cr3 la = m.translate c.env.cr3 la :=
    h.kept (p := firstPage block) hcr3 (by omega) (by omega) (within_window hothers hfits)
  refine ⟨rounds, c', hbegin, fun j hj => filled_of_splice hentered.eax hfits hmem hj,
    fun o ho => hentered.image_outside hfits hothers ho, hothers, fun la hla => ?_, fun o ho => ?_⟩
  · rw [hkept (.inl (by unfold dirIndex; omega))]
    exact hentered.low la hla
  · rw [hkept (.inr (dirIndex_window ho))]
    exact hentered.window o ho

end Begun

/-- Four pages of variables behind an image of two. -/
def bssStarted : Bss where
  lkrStartBss := 0xC0002000
  lkrEnd := 0xC0006000
  startAligned := by decide
  endAligned := by decide
  le := by decide

end OS90.Laws
