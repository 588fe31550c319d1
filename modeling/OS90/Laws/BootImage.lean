import OS90.Boot.Program
import OS90.Laws.BootLoad

/-!
# What the kernel finds in memory

`Entered` is the hand-over from the boot program to the kernel, over all of the physical memory: the
processor's mode, the jump, the two flat segments in the descriptor table, the first megabyte mapped
to itself, and the image of the file behind the window at C0000000h. `boot_enters` derives it for
the whole program, from the state DOS starts it in and through every part of it.

The image is that of every page but the last, and begins 64 KiB into the window for a block whose
low half carries. The law says where it is in either case, and leaves the last page open.
-/

namespace OS90.Laws

open OS90.Ia32 OS90.Ia32.Cpu OS90.Kernel OS90.Boot

/-- The page that the window begins with. -/
def firstPage (block : DWORD) : DWORD := BitVec.ofNat 32 ((block.toNat + 4095) / 4096 * 4096)

/-- How far into the window the image begins. -/
def slip (block : DWORD) : Nat := if 0xF000 < (block.setWidth 16).toNat then 0x10000 else 0

/-- A segment of all of the address space for the supervisor. -/
structure FlatSegment (d : Descriptor) : Prop where
  flat : d.Flat
  present : d.present = true
  dpl : d.dpl = 0

section Laws

variable {l : Labels} {b : l.Rest} (e : BootEntry b) (block : DWORD)

/-- The kernel's start, with the memory `m`. -/
structure Entered (cr0 : DWORD) (c : Loader) (m : Mem) : Prop where
  mode : cr0.getLsbD 0 = true ∧ cr0.getLsbD 31 = true
  jump : c.seg .cs = 0x08 ∧ c.eip = 0xC0000001
  data : c.seg .ds = 0x10 ∧ c.seg .es = 0x10 ∧ c.seg .ss = 0x10
  masked : c.eflags.getLsbD 9 = false
  forward : c.df = false
  /-- The data selector, in what was CR0. -/
  eax : c.gpr .eax = cr0.extractLsb' 16 16 ++ 0x10#16
  /-- What `lgdt` has loaded. -/
  gdtr : m.read16 (base (e.c.loader) + BitVec.ofNat 32 b.gdtr) = 23 ∧
    m.read32 (base (e.c.loader) + BitVec.ofNat 32 (b.gdtr + 2)) =
      base (e.c.loader) + BitVec.ofNat 32 b.gdt
  code : FlatSegment (m.descriptor (selected (base e.c.loader + BitVec.ofNat 32 b.gdt) 0x08)) ∧
    (m.descriptor (selected (base e.c.loader + BitVec.ofNat 32 b.gdt) 0x08)).isCode = true
  flat : FlatSegment (m.descriptor (selected (base e.c.loader + BitVec.ofNat 32 b.gdt) 0x10)) ∧
    (m.descriptor (selected (base e.c.loader + BitVec.ofNat 32 b.gdt) 0x10)).isData = true
  low : ∀ la : DWORD, la.toNat < 2 ^ 20 → m.translate c.env.cr3 la = some ⟨la, true, true⟩
  window : ∀ o : DWORD, o.toNat < 2 ^ 20 →
    m.translate c.env.cr3 (0xC0000000#32 + o) = some ⟨firstPage block + o, true, false⟩
  image : ∀ o < 4096 * (e.n - 1),
    m (firstPage block + BitVec.ofNat 32 (slip block + o)) = e.c.env.world.file.data o

end Laws

/-! ## The place of the image -/

section Place

variable {l : Labels} {b : l.Rest} {e : BootEntry b} {c : Loader} {block : DWORD}

/-- The page the image begins on, as a number. The bound on the block keeps the rounding from
wrapping. -/
theorem firstPage_toNat (hhigh : block.toNat ≤ 0xE0000000) :
    (firstPage block).toNat = (block.toNat + 4095) / 4096 * 4096 := by
  unfold firstPage
  rw [BitVec.toNat_ofNat]
  omega

/-- `KernelAddr` is that page, when the allocation runs as a stage of the program. -/
theorem kernelAddr_eq_firstPage (h : e.Stage c) (hfits : block.toNat ≤ 2 ^ 32 - 4096)
    (hhigh : block.toNat ≤ 0xE0000000) : (h.alloc block hfits).kernelAddr = firstPage block := by
  apply BitVec.eq_of_toNat_eq
  rw [firstPage_toNat hhigh, AllocEntry.kernelAddr_toNat]
  rfl

/-- The first page that is moved lands there, the driver counting the destination from the start of
the block. The slip is the carry that is lost. -/
theorem block_add_desoff (h : e.Stage c) (hfits : block.toNat ≤ 2 ^ 32 - 4096)
    (hhigh : block.toNat ≤ 0xE0000000) :
    block + (l.args (extAllocSuccess l block c)).desoff =
      firstPage block + BitVec.ofNat 32 (slip block) := by
  have hpage := firstPage_toNat hhigh
  have hdesoff := (h.alloc block hfits).desoff_toNat
  have hslip : (if 0xF000 < (h.alloc block hfits).low then 0x10000 else 0) = slip block := rfl
  have hle : slip block ≤ 0x10000 := by
    unfold slip
    split <;> omega
  rw [hslip, kernelAddr_eq_firstPage h hfits hhigh] at hdesoff
  rw [h.desoff hfits]
  apply BitVec.eq_of_toNat_eq
  rw [BitVec.toNat_add, hdesoff, BitVec.toNat_add, BitVec.toNat_ofNat]
  have hblock : (h.alloc block hfits).block.toNat = block.toNat := rfl
  rw [hblock]
  omega

end Place

/-! ## The tables -/

/-- The table for an address is one of the two behind the directory. -/
def InTables (m : Mem) (la : DWORD) : Prop :=
  ∃ k < 3, frame (m.entry (frame hma) (dirIndex la)) = hma + BitVec.ofNat 32 (4096 * k)

/-- The megabyte at 3 GiB is all under one entry of the directory. -/
theorem dirIndex_window {o : DWORD} (ho : o.toNat < 2 ^ 20) :
    dirIndex (0xC0000000#32 + o) = 768 := by
  unfold dirIndex
  rw [BitVec.toNat_add, BitVec.toNat_ofNat]
  omega

/-- An address under one of the two entries that are set is translated by a table that was
filled. -/
theorem inTables_window {l : Labels} {e : PageEntry l} {c : Loader} (h : Tables e c) {la : DWORD}
    (hla : dirIndex la = 0 ∨ dirIndex la = 768) : InTables c.mem la := by
  obtain ⟨hlow, hhigh⟩ := h.frame_windows
  unfold InTables
  rw [frame_hma]
  rcases hla with hzero | hlast
  · exact ⟨1, by decide, by rw [hzero, hlow]⟩
  · exact ⟨2, by decide, by rw [hlast, hhigh]⟩

/-- What is written elsewhere leaves the translation of an address, if it is apart from all three
tables. -/
theorem InTables.kept {m m' : Mem} {la lo : DWORD} {n : Nat} (h : InTables m la)
    (hwithin : Mem.Within lo n m m') (hapart : Mem.Apart hma 12288 lo n) :
    m'.translate hma la = m.translate hma la ∧ InTables m' la := by
  obtain ⟨k, hk, hframe⟩ := h
  have hdir : Mem.Apart (frame hma) 4096 lo n := by
    have hsub := hapart.sub (j := 0) (w := 4096) (by decide)
    rw [BitVec.add_zero] at hsub
    rw [frame_hma]
    exact hsub
  have htable : Mem.Apart (frame (m.entry (frame hma) (dirIndex la))) 4096 lo n := by
    rw [hframe]
    exact hapart.sub (by omega)
  refine ⟨hwithin.translate hdir htable, k, hk, ?_⟩
  rw [hwithin.entry hdir (dirIndex_lt la), hframe]

/-! ## The memory at the end -/

/-- The jump's machine: the tables of `c`, a new base in the descriptor table's register, and `n`
pages of the file from `place` on. -/
structure Final {l : Labels} (b : l.Rest) (e : PageEntry l) (c : Loader) (place : DWORD) (n : Nat)
    (data : Nat → BYTE) (m : Mem) : Prop where
  tables : Tables e c
  mem : m = (c.mem.write32 (base e.c + BitVec.ofNat 32 (b.gdtr + 2))
    (base e.c + BitVec.ofNat 32 b.gdt)).splice place (4096 * n) data
  high : 0x110000 ≤ place.toNat
  fits : place.toNat + 4096 * n ≤ 2 ^ 32

section Final

variable {l : Labels} {b : l.Rest} {e : PageEntry l} {c : Loader} {place : DWORD} {n : Nat}
  {data : Nat → BYTE} {m : Mem}

/-- What is left to change after the paging is set up is the image itself and the base of the
GDT. -/
theorem Final.within (h : Final b e c place n data m) : Mem.Within place (4096 * n)
    (c.mem.write32 (base e.c + BitVec.ofNat 32 (b.gdtr + 2))
      (base e.c + BitVec.ofNat 32 b.gdt)) m := by
  rw [h.mem]
  exact Mem.splice_within _ _ _ _

/-- What is below the image is not part of it: the program, the tables and the vector table are all
below 110000h. -/
theorem Final.apart (h : Final b e c place n data m) {a : DWORD} {k : Nat}
    (ha : a.toNat + k ≤ 0x110000) : Mem.Apart a k place (4096 * n) := by
  have hhigh := h.high
  have hfits := h.fits
  intro i hi
  bv_omega

/-- A byte of the program's data when the jump is made, but for the base that is stored in the
operand of `lgdt`. -/
theorem Final.byte (h : Final b e c place n data m) {j : Nat} (hj : j < l.buffer)
    (hgdtr : ¬ (b.gdtr + 2 ≤ j ∧ j < b.gdtr + 6)) :
    m.byte (base e.c) j = e.c.mem.byte (base e.c) j := by
  obtain ⟨hkernel, hxmm, hmap, hroom, hlt⟩ := e.placed.bounds
  have hbase := e.base_toNat
  have hgdt := b.gdt_le
  have hxms := b.xms_le
  have hle := b.xmm_le
  have himage := h.within.byte (h.apart (a := base e.c + BitVec.ofNat 32 j) (k := 1) (by bv_omega))
    (i := 0) (by decide)
  rw [Mem.byte_add, Mem.byte_add, Nat.add_zero,
    Mem.byte_write32 _ (by omega) (by omega), if_neg (by omega)] at himage
  rw [himage]
  exact e.byte h.tables.within hj

/-- The base that is stored there is that of the GDT in the program. -/
theorem Final.gdtBase (h : Final b e c place n data m) :
    m.read32 (base e.c + BitVec.ofNat 32 (b.gdtr + 2)) = base e.c + BitVec.ofNat 32 b.gdt := by
  obtain ⟨hkernel, hxmm, hmap, hroom, hlt⟩ := e.placed.bounds
  have hbase := e.base_toNat
  have hgdt := b.gdt_le
  have hxms := b.xms_le
  have hle := b.xmm_le
  have hread := h.within.read32_apart (e := 0)
    (h.apart (a := base e.c + BitVec.ofNat 32 (b.gdtr + 2)) (k := 4) (by bv_omega)) (by decide)
  rw [BitVec.add_zero, Mem.read32_write32_same] at hread
  exact hread

/-- The tables are below the image and above the program, so that moving the image has left them
alone. -/
theorem Final.translate (h : Final b e c place n data m) {la : DWORD}
    (hla : dirIndex la = 0 ∨ dirIndex la = 768) :
    m.translate hma la = c.mem.translate hma la ∧ InTables m la := by
  obtain ⟨hkernel, hxmm, hmap, hroom, hlt⟩ := e.placed.bounds
  have hgdt := b.gdt_le
  have hxms := b.xms_le
  have hle := b.xmm_le
  have hprogram : Mem.Apart hma 12288 (base e.c + BitVec.ofNat 32 (b.gdtr + 2)) 4 :=
    (e.apart (j := b.gdtr + 2) (w := 4) (by omega)).symm
  have hstore := Mem.write32_within c.mem (base e.c + BitVec.ofNat 32 (b.gdtr + 2))
    (base e.c + BitVec.ofNat 32 b.gdt)
  have hfirst := (inTables_window h.tables hla).kept hstore hprogram
  have hsecond := hfirst.2.kept h.within (h.apart (by decide))
  exact ⟨hsecond.1.trans hfirst.1, hsecond.2⟩

/-- A descriptor of the GDT, from the bytes that were assembled. The premise on the selector places
it within the three there are. -/
theorem Final.descriptor (h : Final b e c place n data m) (hgdt : ∀ i < 24,
    e.c.mem.byte (base e.c) (b.gdt + i) = gdtBytes.getD i 0) {s : Selector} {k : Nat}
    (hs : (s &&& 0xFFF8#16).setWidth 32 = BitVec.ofNat 32 k) (hk : k + 8 ≤ 24) :
    m.descriptor (selected (base e.c + BitVec.ofNat 32 b.gdt) s) =
      .decode fun i => gdtBytes.getD (k + i) 0 := by
  obtain ⟨hkernel, hxmm, hmap, hroom, hlt⟩ := e.placed.bounds
  have hgdtr := b.gdt_le
  have hxms := b.xms_le
  have hle := b.xmm_le
  refine Descriptor.decode_congr fun i hi => ?_
  unfold selected
  rw [hs, Mem.byte_add, Mem.byte_add, ← hgdt (k + i) (by omega)]
  exact h.byte (by omega) (by omega)

/-- The two segments that the jump needs are in the GDT of the program, which has been in memory
since it was loaded. -/
theorem Final.segments (h : Final b e c place n data m) (hgdt : ∀ i < 24,
    e.c.mem.byte (base e.c) (b.gdt + i) = gdtBytes.getD i 0) :
    (FlatSegment (m.descriptor (selected (base e.c + BitVec.ofNat 32 b.gdt) 0x08)) ∧
      (m.descriptor (selected (base e.c + BitVec.ofNat 32 b.gdt) 0x08)).isCode = true) ∧
    FlatSegment (m.descriptor (selected (base e.c + BitVec.ofNat 32 b.gdt) 0x10)) ∧
      (m.descriptor (selected (base e.c + BitVec.ofNat 32 b.gdt) 0x10)).isData = true := by
  rw [h.descriptor hgdt (k := 8) (by decide) (by decide),
    h.descriptor hgdt (k := 16) (by decide) (by decide)]
  exact ⟨⟨⟨by decide, by decide, by decide⟩, by decide⟩, ⟨by decide, by decide, by decide⟩,
    by decide⟩

/-- A byte of the image at the place it was moved to. -/
theorem Final.image (h : Final b e c place n data m) {o : Nat} (ho : o < 4096 * n) :
    m (place + BitVec.ofNat 32 o) = data o := by
  have hfits := h.fits
  have hbyte := Mem.byte_splice_self (c.mem.write32 (base e.c + BitVec.ofNat 32 (b.gdtr + 2))
    (base e.c + BitVec.ofNat 32 b.gdt)) place data (n := 4096 * n) (k := o) (by omega) (by omega)
    (by omega)
  rw [← h.mem, if_pos ho] at hbyte
  exact hbyte

end Final

/-! ## The whole program -/

section Whole

variable {d : Services} {l : Labels} {b : l.Rest} {e : BootEntry b} {c : Loader} {block : DWORD}

/-- The part of the loader, from the lock to the jump. Its premises are that calls succeed and that
the block is between 110000h and E0000000h, and it says where everything is at the end. -/
theorem load_final (hd : d.Succeed) (h : e.Stage c) (henv : c.env = e.c.env.world)
    (hlow : 0x110000 ≤ block.toNat) (hhigh : block.toNat ≤ 0xE0000000) (cr0 : DWORD) :
    ∃ rounds c₁ c₂, ∃ h₁ : e.Stage c₁, h₁.pages.kernelAddr = firstPage block ∧ c₂.df = false ∧
      loadAndEnter d b cr0 rounds block c = some (.kernel (gotoKernel b.gdt b.gdtr cr0 c₂).1
        (gotoKernel b.gdt b.gdtr cr0 c₂).2) ∧
      Final b h₁.pages c₂ (firstPage block + BitVec.ofNat 32 (slip block)) (e.n - 1)
        e.c.env.world.file.data (physical block (gotoKernel b.gdt b.gdtr cr0 c₂).2) := by
  have hfits : block.toNat ≤ 2 ^ 32 - 4096 := by omega
  have hpage := firstPage_toNat hhigh
  have hslip : slip block ≤ 0x10000 := by
    unfold slip
    split <;> omega
  -- the block and the image
  have halloc := h.extAlloc block
  have hallocEnv : (extAllocSuccess l block c).env = e.c.env.world := henv
  obtain ⟨c₁, ⟨r₁, hr₁⟩, hmoves⟩ := loadKernel_moves hd (halloc.load hallocEnv)
  have hloaded := halloc.loaded hr₁
  -- the page tables
  have hmessage := hloaded.showText (b.text .creatingTables)
  obtain ⟨c₂, ⟨r₂, hr₂⟩, htables⟩ := pageSetup_run hmessage.pages
  obtain ⟨hkeptMoves, hds, hdf⟩ := pageSetup_kept hr₂
  have hkernelAddr : hmessage.pages.kernelAddr = firstPage block := by
    have hkeeps := loadKernel_keeps halloc.placed hr₁
    rw [halloc.esp] at hkeeps
    rw [h.kernelAddr hfits (hkeeps.trans (hloaded.showText_keeps _)) hmessage,
      kernelAddr_eq_firstPage h hfits hhigh]
  have hload : loadKernel d l (max r₁ r₂) (extAllocSuccess l block c) = some (.loaded c₁) :=
    loadKernel_mono hr₁ (Nat.le_max_left _ _)
  have hpages : pageSetup l (max r₁ r₂) (showText (b.text .creatingTables) c₁) = some c₂ :=
    pageSetup_mono hr₂ (Nat.le_max_right _ _)
  refine ⟨max r₁ r₂, _, c₂, hmessage, hkernelAddr, hdf.trans hmessage.df, ?_, htables,
    ?_, ?_, ?_⟩
  · unfold loadAndEnter
    rw [hload, Option.bind_eq_bind, Option.bind_some]
    unfold enter
    dsimp only
    rw [hpages, Option.bind_eq_bind, Option.bind_some]
    rfl
  · have hbase : base c₂ = base hmessage.pages.c := by
      unfold base
      rw [hds]
    have hmovesEnd : c₂.env.moves = c₁.env.moves :=
      hkeptMoves.trans (congrArg World.moves (showText_env _ c₁))
    have hn := e.lt
    unfold physical
    rw [gotoKernel_env, hmovesEnd, gotoKernel_mem b.gdt cr0 c₂ (b.gdtr_fits e.placed), hbase,
      ← block_add_desoff h hfits hhigh]
    refine foldl_land _ (by omega) ?_
    rw [hmoves]
    unfold pagePlace filePage
    rw [← henv]
    rfl
  · rw [BitVec.toNat_add, hpage, BitVec.toNat_ofNat]
    omega
  · have hn := e.lt
    rw [BitVec.toNat_add, hpage, BitVec.toNat_ofNat]
    omega

/-- Paging is by the directory of the program. The premise is on the bits of CR3 that the code does
not clear. -/
theorem Final.cr3 {c₁ c₂ : Loader} {h₁ : e.Stage c₁} {place : DWORD} {n : Nat} {data : Nat → BYTE}
    {m : Mem} (h : Final b h₁.pages c₂ place n data m)
    (hcr3 : e.c.env.world.cr3 &&& 0xFFEFF000#32 = 0#32) : frame c₂.env.cr3 = hma := by
  have hkept : h₁.pages.c.env.cr3 = e.c.env.world.cr3 := h₁.cr3
  refine (frame_tables_iff h.tables).mpr ?_
  rw [hkept]
  exact hcr3

/-- What the kernel finds when it is entered, assembled from what is known of memory, of the
segments and of CR3. -/
theorem Final.entered {c₁ c₂ : Loader} {h₁ : e.Stage c₁} {m : Mem}
    (h : Final b h₁.pages c₂ (firstPage block + BitVec.ofNat 32 (slip block)) (e.n - 1)
      e.c.env.world.file.data m) (hkernel : h₁.pages.kernelAddr = firstPage block)
    (hdf : c₂.df = false) (hhigh : block.toNat ≤ 0xE0000000)
    (hcr3 : e.c.env.world.cr3 &&& 0xFFEFF000#32 = 0#32) (cr0 : DWORD) :
    Entered e block (gotoKernel b.gdt b.gdtr cr0 c₂).1 (gotoKernel b.gdt b.gdtr cr0 c₂).2 m := by
  have hpage := firstPage_toNat hhigh
  have hassembled := h₁.assembled
  have hbase : base h₁.pages.c = base e.c.loader := h₁.base
  have hgdtr := b.gdt_le
  have hxms := b.xms_le
  have hle := b.xmm_le
  have hmap := l.xmm_le
  have hbuffer := l.idMap_le
  have hframe : frame c₂.env.cr3 = frame hma := (h.cr3 hcr3).trans frame_hma.symm
  have hlimit : m.read16 (base h₁.pages.c + BitVec.ofNat 32 b.gdtr) = 23 := by
    rw [Mem.read16_add, h.byte (by omega) (by omega), h.byte (by omega) (by omega),
      ← Mem.read16_add]
    exact hassembled.limit
  have hgdtBase := h.gdtBase
  obtain ⟨hcode, hflat⟩ := h.segments hassembled.gdt
  rw [hbase] at hcode hflat hlimit hgdtBase
  refine ⟨?_, ⟨rfl, rfl⟩, gotoKernel_data b.gdt b.gdtr cr0 c₂,
    gotoKernel_masked b.gdt b.gdtr cr0 c₂, (gotoKernel_df b.gdt b.gdtr cr0 c₂).trans hdf, rfl,
    ⟨hlimit, hgdtBase⟩, hcode, hflat, fun la hla => ?_, fun o ho => ?_, fun o ho => ?_⟩
  · have hbits : (0x80000001#32).getLsbD 0 = true ∧ (0x80000001#32).getLsbD 31 = true := by
      decide
    show (cr0 ||| 0x80000001#32).getLsbD 0 = true ∧ (cr0 ||| 0x80000001#32).getLsbD 31 = true
    rw [BitVec.getLsbD_or, BitVec.getLsbD_or, hbits.1, hbits.2, Bool.or_true, Bool.or_true]
    exact ⟨rfl, rfl⟩
  · have hdir : dirIndex la = 0 := by
      unfold dirIndex
      omega
    rw [gotoKernel_env, m.translate_congr_frame hframe, (h.translate (.inl hdir)).1]
    exact translate_low h.tables hla
  · have hdir := dirIndex_window ho
    rw [gotoKernel_env, m.translate_congr_frame hframe, (h.translate (.inr hdir)).1,
      ← hkernel]
    refine translate_high h.tables ?_ ?_ ho
    · rw [hkernel, hpage]
      omega
    · rw [hkernel, hpage]
      omega
  · rw [← h.image ho, Mem.add_ofNat_add]

/-- The run of the program, from its start to the jump, once the driver has granted what is asked of
it. The stages are those of the source, in order. -/
theorem boot_final (x : Driver) (hd : d.Succeed) (e : BootEntry b) {s : Xms} {emb : Emb}
    (hacquire : acquire x e.c.env.xms = .inr (s, emb))
    (hlow : 0x110000 ≤ (x.address s emb.handle).toNat)
    (hhigh : (x.address s emb.handle).toNat ≤ 0xE0000000) (cr0 : DWORD) :
    let block := x.address s emb.handle
    ∃ rounds c₁ c₂, ∃ h₁ : e.Stage c₁, h₁.pages.kernelAddr = firstPage block ∧ c₂.df = false ∧
      boot x d b cr0 rounds e.c = some (.kernel (gotoKernel b.gdt b.gdtr cr0 c₂).1
        (gotoKernel b.gdt b.gdtr cr0 c₂).2) ∧
      Final b h₁.pages c₂ (firstPage block + BitVec.ofNat 32 (slip block)) (e.n - 1)
        e.c.env.world.file.data (physical block (gotoKernel b.gdt b.gdtr cr0 c₂).2) := by
  obtain ⟨c₀, hmain, hstage, hworld, hxms, hhandle⟩ := e.started x hacquire
  obtain ⟨rounds, c₁, c₂, h₁, hkernel, hdf, hrun, hfinal⟩ :=
    load_final hd hstage hworld hlow hhigh cr0
  refine ⟨rounds, c₁, c₂, h₁, hkernel, hdf, ?_, hfinal⟩
  unfold boot
  rw [hmain, Option.bind_eq_bind, Option.bind_some]
  dsimp only
  rw [hxms, hhandle]
  exact hrun

/-- For every driver that is there and refuses none of the calls of the start, every DOS that
answers, every place of the program, every state of the machine, every image of 1 to 65535 pages and
every block between the high memory area and 3.5 GiB: the program ends at the kernel, which finds
what `Entered` says. -/
theorem boot_enters (x : Driver) (hd : d.Succeed) (e : BootEntry b) {s : Xms} {emb : Emb}
    (hacquire : acquire x e.c.env.xms = .inr (s, emb))
    (hlow : 0x110000 ≤ (x.address s emb.handle).toNat)
    (hhigh : (x.address s emb.handle).toNat ≤ 0xE0000000)
    (hcr3 : e.c.env.world.cr3 &&& 0xFFEFF000#32 = 0#32) (cr0 : DWORD) :
    ∃ rounds cr0' c, boot x d b cr0 rounds e.c = some (.kernel cr0' c) ∧
      Entered e (x.address s emb.handle) cr0' c (physical (x.address s emb.handle) c) := by
  obtain ⟨rounds, _, c₂, _, hkernel, hdf, hrun, hfinal⟩ := boot_final x hd e hacquire hlow hhigh cr0
  exact ⟨rounds, _, _, hrun, hfinal.entered hkernel hdf hhigh hcr3 cr0⟩

end Whole

/-! ## A program in memory -/

/-- The data of the assembled program between `KernelAddr` and `XMM`. -/
def rest386 : boot386.Rest where
  gdtr := 0x4F3
  gdtr_le := by decide
  gdt := 0x4F9
  gdt_le := by decide
  xms := 0x511
  xms_le := by decide
  xmm_le := by decide
  text _ := 0x103

/-- The assembled program at segment 1000h. -/
def program : Mem :=
  Mem.splice (Mem.splice (Mem.write32 (Mem.write16 (fun _ => 0) 0x104F3#32 23#16) 0x10517#32 4096)
    0x104F9#32 24 fun i => gdtBytes.getD i 0) (0x10000#32 + BitVec.ofNat 32 0x527) 1024 idMapByte

/-- The table of the identity map is assembled into the program, and its entry `n` is for page
`n`. -/
theorem program_idMap {n : Nat} (hn : n < 256) :
    program.read32 (0x10000#32 + BitVec.ofNat 32 (0x527 + 4 * n)) =
      BitVec.ofNat 32 (4096 * n + 7) := by
  have hbyte : ∀ i < 4, program.byte 0x10000#32 (0x527 + 4 * n + i) =
      (BitVec.ofNat 32 (4096 * n + 7)).extractLsb' (8 * i) 8 := by
    intro i hi
    have hplace : 0x527 + 4 * n + i - 0x527 = 4 * n + i := by omega
    have hdiv : (4 * n + i) / 4 = n := by omega
    have hmod : (4 * n + i) % 4 = i := by omega
    unfold program
    rw [Mem.byte_splice (by decide) (by decide) (by omega), if_pos (by omega), hplace]
    unfold idMapByte
    rw [hdiv, hmod]
  rw [Mem.read32_eq_byte, Mem.byte_add, Mem.byte_add, Mem.byte_add, Mem.byte_add,
    hbyte 3 (by decide), hbyte 2 (by decide), hbyte 1 (by decide), hbyte 0 (by decide)]
  exact Mem.extractLsb'_append _

/-- A driver with a megabyte of memory at 110000h, which refuses nothing. -/
def himem : Driver where
  installed := true
  entrySeg := 0x0C00
  entryOff := 0x0010
  a20Error _ := none
  hmaError _ _ := none
  largest _ := 1024
  total _ := 1024
  embError _ _ := none
  handle _ _ := 0x1234
  address _ _ := 0x110000
  bl _ := 0

/-- The program as it is started, with an image of three pages. -/
def started386 : BootEntry rest386 where
  c :=
    { gpr := fun r => if r = .esp then 0xFFFE else 0
      seg := fun _ => 0x1000
      eip := 0x100
      eflags := 0x202
      mem := program
      tss := ⟨0, 0, 0⟩
      env := ⟨⟨⟨5, 0x3000, fun _ => 0x90, 0⟩, [], 0⟩, ⟨false, false, []⟩, [], none⟩ }
  placed := ⟨rfl, by decide, by decide⟩
  assembled := ⟨by decide, by decide, fun _ hn => program_idMap hn, by decide, by decide⟩
  n := 3
  pos := by decide
  lt := by decide
  size := rfl
  moves := rfl

/-- The program as it is started, with a driver and a DOS that answer, comes to the kernel with two
of the three pages of the image in place. -/
theorem boot_enters_started : ∃ rounds cr0' c,
    boot himem answering rest386 0x10 rounds started386.c = some (.kernel cr0' c) ∧
      Entered started386 0x110000 cr0' c (physical 0x110000 c) :=
  have hacquire : acquire himem started386.c.env.xms =
      .inr (⟨true, true, [⟨0x1234, 1024⟩]⟩, ⟨0x1234, 1024⟩) := rfl
  boot_enters himem answering_succeed started386 hacquire (by decide) (by decide)
    (by decide) 0x10

end OS90.Laws
