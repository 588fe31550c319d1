import OS90.Boot.ExtAlloc
import OS90.Boot.LoadErrors
import OS90.Boot.Start
import OS90.Ia32.Segment
import OS90.Kernel.StartK

/-!
# The loader as a whole

`boot` is `BOOT386` from its first instruction to the jump, or to one of its `ERROR`s. The moves are
kept apart from the memory that the loader itself reads and writes; `physical` is both together,
once the moves have been done to the block.

Each part hands over to the next what that one starts from (`AllocEntry`, `LoadEntry`,
`PageEntry`), and what a part does not write is what was assembled (`Labels.Rest.Assembled`).

Fuel is given for each loop, and a result does not depend on it (`boot_unique`): more rounds than
are needed change nothing.

`Stage` is the invariant between the parts. It says that the labels, the segments and the stack are
as at the entry, and that nothing but the scratch of the program has changed, so that one lemma for
each part takes it on. The jump itself is `gotoKernel`, whose result is the machine the kernel
starts from.
-/

namespace OS90.Boot

open OS90.Ia32 OS90.Ia32.Cpu OS90.Kernel

/-- How the program ends. -/
inductive Booted where
  | exited (m : Message)
  | kernel (cr0 : DWORD) (c : Loader)

section Code

variable (x : Driver) (d : Services) {l : Labels} (b : l.Rest)

/-- From `PageSetup` to the jump. -/
def enter (cr0 : DWORD) (rounds : Nat) (c : Loader) : Option Booted := do
  let c ← pageSetup l rounds (showText (b.text .creatingTables) c)
  let (cr0, c) := gotoKernel b.gdt b.gdtr cr0 c
  return .kernel cr0 c

/-- From `ExtAllocSuccess`, with the block that is locked. -/
def loadAndEnter (cr0 : DWORD) (rounds : Nat) (block : DWORD) (c : Loader) : Option Booted := do
  match ← loadKernel d l rounds (extAllocSuccess l block c) with
  | .fileError _ => return .exited .fileIOError
  | .corrupted _ => return .exited .kernelFile
  | .moveError _ => return .exited .moveError
  | .loaded c => enter b cr0 rounds c

/-- `BOOT386`, with so many rounds for a loop. -/
def boot (cr0 : DWORD) (rounds : Nat) (c : Starter) : Option Booted := do
  match ← main x b c with
  | .error m _ => return .exited m
  | .extAlloc c => loadAndEnter d b cr0 rounds (x.address c.env.xms (c.reg16 .edx)) c.loader

end Code

/-! ## Data -/

/-- `_GDT`: nothing, code and data. -/
def gdtBytes : List BYTE :=
  [0, 0, 0, 0, 0, 0, 0, 0,
    0xFF, 0xFF, 0, 0, 0, 0x9A, 0xCF, 0,
    0xFF, 0xFF, 0, 0, 0, 0x92, 0xCF, 0]

/-- The program's data as it was assembled, in the segment at `a`. -/
structure Labels.Rest.Assembled {l : Labels} (b : l.Rest) (m : Mem) (a : DWORD) : Prop where
  len : m.read32 (a + BitVec.ofNat 32 l.xmm) = 4096
  srchan : m.read16 (a + BitVec.ofNat 32 (l.xmm + 4)) = 0
  idMap : ∀ n < 256,
    m.read32 (a + BitVec.ofNat 32 (l.idMap + 4 * n)) = BitVec.ofNat 32 (4096 * n + 7)
  limit : m.read16 (a + BitVec.ofNat 32 b.gdtr) = 23
  gdt : ∀ i < 24, m.byte a (b.gdt + i) = gdtBytes.getD i 0

/-- What the program writes in its segment before it builds the page tables. -/
def Labels.Rest.scratch {l : Labels} (b : l.Rest) (sp j : Nat) : Prop :=
  (l.kernelAddr ≤ j ∧ j < l.kernelAddr + 4) ∨ (b.xms ≤ j ∧ j < b.xms + 4) ∨ Boot.scratch l sp j

section Data

variable {σ τ : Type} {l : Labels} {b : l.Rest} {sp : Nat} {c : Cpu σ} {c' : Cpu τ}

/-- What was assembled stays, since none of it is scratch: this is where the labels of data and of
code are kept apart. -/
theorem Labels.Rest.Assembled.frame {a : DWORD} (h : b.Assembled c.mem a)
    (ha : a = linear (c.seg .ds) 0#16) (hsp : l.buffer + 4096 + 64 ≤ sp) (hlt : sp < 2 ^ 16)
    (hframe : Frame (b.scratch sp) c c') : b.Assembled c'.mem a := by
  have hgdtr := b.gdtr_le
  have hgdt := b.gdt_le
  have hxms := b.xms_le
  have hxmm := b.xmm_le
  have hmap := l.xmm_le
  have hbuffer := l.idMap_le
  have hdata : ∀ j, j < l.buffer → ¬ (l.kernelAddr ≤ j ∧ j < l.kernelAddr + 4) →
      ¬ (b.xms ≤ j ∧ j < b.xms + 4) → ¬ (l.xmm + 6 ≤ j ∧ j < l.xmm + 16) →
        ¬ b.scratch sp j := by
    intro j hj hkernel hpointer hmove hS
    unfold Labels.Rest.scratch Boot.scratch at hS
    omega
  rw [ha] at h ⊢
  refine ⟨?_, ?_, fun n hn => ?_, ?_, fun i hi => ?_⟩
  · rw [hframe.read32 (by omega) fun i hi => hdata _ (by omega) (by omega) (by omega) (by omega)]
    exact h.len
  · rw [hframe.read16 (by omega) fun i hi => hdata _ (by omega) (by omega) (by omega) (by omega)]
    exact h.srchan
  · rw [hframe.read32 (by omega) fun i hi => hdata _ (by omega) (by omega) (by omega) (by omega)]
    exact h.idMap n hn
  · rw [hframe.read16 (by omega) fun i hi => hdata _ (by omega) (by omega) (by omega) (by omega)]
    exact h.limit
  · rw [hframe.byte (by omega) (hdata _ (by omega) (by omega) (by omega) (by omega))]
    exact h.gdt i hi

end Data

/-! ## Memory -/

/-- A move, done to the block. -/
def Move.land (block : DWORD) (m : Mem) (v : Move) : Mem :=
  m.splice (block + v.args.desoff) v.bytes.length fun j => v.bytes.getD j 0

/-- All of the machine's memory. -/
def physical (block : DWORD) (c : Loader) : Mem := c.env.moves.foldl (Move.land block) c.mem

/-- Pages moved one behind the other are the file, up to where they end. -/
theorem foldl_land {block place : DWORD} {data : Nat → BYTE} {n : Nat} (m : Mem)
    {moves : List Move} (hfit : 4096 * n ≤ 2 ^ 32)
    (hmoves : moves.map (fun v => (v.args.desoff, v.bytes)) = (List.range n).map fun k =>
      (place + BitVec.ofNat 32 (4096 * k), (List.range 4096).map fun j => data (4096 * k + j))) :
    moves.foldl (Move.land block) m = m.splice (block + place) (4096 * n) data := by
  let write := fun (m : Mem) (v : DWORD × List BYTE) =>
    m.splice (block + v.1) v.2.length fun j => v.2.getD j 0
  have hland : moves.foldl (Move.land block) m =
      (moves.map fun v => (v.args.desoff, v.bytes)).foldl write m := by
    rw [List.foldl_map]
    rfl
  have hpage : ∀ (m : Mem) (k : Nat),
      write m (place + BitVec.ofNat 32 (4096 * k),
        (List.range 4096).map fun j => data (4096 * k + j)) =
      m.splice (block + place + BitVec.ofNat 32 (4096 * k)) 4096 fun i => data (4096 * k + i) := by
    intro m k
    have hlength : ((List.range 4096).map fun j => data (4096 * k + j)).length = 4096 := by
      rw [List.length_map, List.length_range]
    show m.splice _ _ _ = _
    rw [hlength, BitVec.add_assoc]
    refine Mem.splice_congr_bytes m _ fun j hj => ?_
    rw [List.getD_eq_getElem?_getD, List.getElem?_map, List.getElem?_range hj]
    rfl
  rw [hland, hmoves, List.foldl_map, ← Mem.foldl_splice m (block + place) data 4096 hfit]
  exact congrArg (fun f => (List.range n).foldl f m) (funext₂ hpage)

/-! ## From part to part -/

/-- The program as DOS starts it, with an image of `n` pages in the file. -/
structure BootEntry {l : Labels} (b : l.Rest) where
  c : Starter
  placed : l.Placed c.loader
  assembled : b.Assembled c.mem (linear (c.seg .ds) 0#16)
  n : Nat
  pos : 0 < n
  lt : n < 2 ^ 16
  size : c.env.world.file.size = BitVec.ofNat 32 (4096 * n)
  moves : c.env.world.moves = []

namespace BootEntry

variable {l : Labels} {b : l.Rest} (e : BootEntry b)

def sp : Nat := (e.c.reg16 .esp).toNat

/-- The loader on its way to the page tables. -/
structure Stage (c : Loader) : Prop where
  frame : Frame (b.scratch e.sp) (e.c.setDf false) c
  cr3 : c.env.cr3 = e.c.env.world.cr3

namespace Stage

variable {e} {c c' : Loader} {S : Nat → Prop}

/-- A stretch that keeps the file and writes its scratch only goes from stage to stage. All of the
later lemmas about a stage are this one with another scratch. -/
theorem keeps (h : e.Stage c) (hk : Keeps S c c') (hS : ∀ j, S j → b.scratch e.sp j) :
    e.Stage c' :=
  ⟨h.frame.trans (hk.frame.mono hS), hk.cr3.trans h.cr3⟩

/-- The program runs in one segment from its entry on. -/
theorem base (h : e.Stage c) : Boot.base c = linear (e.c.seg .ds) 0#16 := by
  have hseg : c.seg = e.c.seg := h.frame.seg
  unfold Boot.base
  rw [hseg]

/-- Between calls the stack is empty. -/
theorem esp (h : e.Stage c) : (c.reg16 .esp).toNat = e.sp := congrArg BitVec.toNat h.frame.esp

/-- At each stage the labels are where the assembler has put them. -/
theorem placed (h : e.Stage c) : l.Placed c := by
  have hseg : c.seg = e.c.seg := h.frame.seg
  have hesp : c.reg16 .esp = e.c.reg16 .esp := h.frame.esp
  refine ⟨?_, ?_, ?_⟩
  · rw [hseg]
    exact e.placed.stack
  · rw [hesp]
    exact e.placed.room
  · rw [hseg]
    exact e.placed.conventional

/-- The direction flag is clear at each stage, as the string instructions need. -/
theorem df (h : e.Stage c) : c.df = false := h.frame.df.trans (df_setDf e.c false)

/-- The code and the data that the file of the program holds are still in memory. -/
theorem assembled (h : e.Stage c) : b.Assembled c.mem (Boot.base c) := by
  have hassembled := e.assembled.frame (c := e.c.setDf false) rfl e.placed.room
    (e.c.reg16 .esp).isLt h.frame
  rw [h.base]
  exact hassembled

end Stage

/-- What the first part of the program writes is scratch of the whole. -/
theorem scratch_of_start {j : Nat} (hj : startScratch b e.sp j) : b.scratch e.sp j := by
  rcases hj with hpointer | hstack
  · exact .inr (.inl hpointer)
  · exact .inr (.inr (.inr (.inr ⟨by omega, by omega⟩)))

/-- If the driver grants what it is asked for, `Main` comes to `ExtAllocSuccess` with the handle in
DX, at the first stage of the program. -/
theorem started (x : Driver) {s : Xms} {emb : Emb}
    (hacquire : acquire x e.c.env.xms = .inr (s, emb)) :
    ∃ c, main x b e.c = some (.extAlloc c) ∧ e.Stage c.loader ∧ c.env.world = e.c.env.world ∧
      c.env.xms = s ∧ c.reg16 .edx = emb.handle := by
  obtain ⟨_, hframe, hworld, _⟩ := connected_frame x b e.placed
  have hends := main_ends x b e.placed
  rw [hacquire] at hends
  obtain ⟨o, ho⟩ : ∃ o, o = main x b e.c := ⟨_, rfl⟩
  rw [← ho] at hends ⊢
  cases hends with
  | @extAlloc s emb c after edx =>
    have hsteady := after.steady.frame
    have hsp : (connected x b e.c).reg16 .esp = e.c.reg16 .esp := hframe.esp
    rw [hsp] at hsteady
    have hwhole := (hframe.trans (hsteady.mono fun j hj => .inr hj)).mono
      fun j hj => e.scratch_of_start hj
    have hsame : c.env.world = e.c.env.world := after.steady.world.trans hworld
    refine ⟨c, rfl, ⟨⟨hwhole.seg, hwhole.esp, hwhole.df, hwhole.mem⟩, ?_⟩, hsame, after.xms, edx⟩
    exact congrArg World.cr3 hsame

end BootEntry

/-- What `ExtAllocSuccess` writes. -/
def allocScratch (l : Labels) (j : Nat) : Prop :=
  (l.kernelAddr ≤ j ∧ j < l.kernelAddr + 4) ∨ (l.xmm + 10 ≤ j ∧ j < l.xmm + 16)

/-- The store of CX:AX as a frame, at an offset that the frame has. -/
theorem storeHalves_frame {S : Nat → Prop} {off : Nat} (c : Loader) (hoff : off + 4 ≤ 2 ^ 16)
    (hS : ∀ j, off ≤ j → j < off + 4 → S j) : Frame S c (storeHalves off c) :=
  .of_within (storeHalves_seg off c) (storeHalves_reg16 off c .esp) rfl
    (storeHalves_within off c hoff) (by omega) (by decide) hS

/-- The allocation keeps all but the two results it stores, whatever address the driver has
answered. -/
theorem extAllocSuccess_keeps {l : Labels} {c : Loader} (hplaced : l.Placed c) (block : DWORD) :
    Keeps (allocScratch l) c (extAllocSuccess l block c) := by
  obtain ⟨hkernel, hxmm, hmap, hroom, hlt⟩ := hplaced.bounds
  have hhandle : Frame (allocScratch l) c (c.store16
      (linear (c.seg .ds) (BitVec.ofNat 16 (l.xmm + 10))) (c.reg16 .edx)) :=
    .store16 (by omega) fun j hlo hhi => .inr ⟨by omega, by omega⟩
  have halign : ∀ c : Loader, Frame (allocScratch l) c (alignBlock block c) := by
    intro c
    have hlock : Frame (allocScratch l) c (xmsLock block (c.setHigh8 .eax 0x0C#8)) :=
      (((Frame.setHigh8 (by decide)).trans (.set16 (by decide))).trans (.set16 (by decide))).trans
        (.set16 (by decide))
    exact ((((hlock.trans (.set16 (by decide))).trans (.set16 (by decide))).trans
      (.add16 (by decide))).trans (.adc16 (by decide))).trans (.and16 (by decide))
  have hoffset : ∀ c : Loader, Frame (allocScratch l) c (blockOffset c) :=
    fun c => (Frame.sub16 (by decide)).trans (.sbb16 (by decide))
  refine .of_frame ?_ rfl
  exact ((((hhandle.trans (halign _)).trans
    (storeHalves_frame _ (by omega) fun j hlo hhi => .inl ⟨hlo, hhi⟩)).trans (hoffset _)).trans
      (storeHalves_frame _ (by omega) fun j hlo hhi => .inr ⟨by omega, by omega⟩))

/-! ## What the parts start from -/

namespace BootEntry.Stage

variable {l : Labels} {b : l.Rest} {e : BootEntry b} {c c' : Loader}

/-- The allocation takes the program to its next stage. -/
theorem extAlloc (h : e.Stage c) (block : DWORD) : e.Stage (extAllocSuccess l block c) := by
  refine h.keeps (extAllocSuccess_keeps h.placed block) fun j hj => ?_
  rcases hj with hkernel | hmove
  · exact .inl hkernel
  · exact .inr (.inr (.inl ⟨by omega, by omega⟩))

/-- The loader does, when it leaves by its regular exit. -/
theorem loaded (h : e.Stage c) {d : Services} {rounds : Nat}
    (hload : loadKernel d l rounds c = some (.loaded c')) : e.Stage c' := by
  have hkeeps := loadKernel_keeps h.placed hload
  rw [h.esp] at hkeeps
  exact h.keeps hkeeps fun j hj => .inr (.inr hj)

/-- To print a text saves all registers on the stack and gets them back, so that memory changes
below the stack pointer only. -/
theorem showText_keeps (h : e.Stage c) (text : WORD) :
    Keeps (Boot.scratch l e.sp) c (showText text c) := by
  obtain ⟨_, _, _, hroom, _⟩ := h.placed.bounds
  have hsp := h.esp
  refine .of_frame (showText_frame text h.placed.stack (by omega) fun j hlo hhi => ?_).1
    (showText_env text c)
  exact .inr (.inr ⟨by omega, by omega⟩)

theorem showText (h : e.Stage c) (text : WORD) : e.Stage (Boot.showText text c) :=
  h.keeps (h.showText_keeps text) fun _ hj => .inr (.inr hj)

/-- The block, as `ExtAllocSuccess` is given it. -/
def alloc (h : e.Stage c) (block : DWORD) (hfits : block.toNat ≤ 2 ^ 32 - 4096) :
    AllocEntry l where
  c := c
  placed := h.placed
  block := block
  fits := hfits

/-- The image, as `LoadKernel` finds it. -/
def load (h : e.Stage c) (henv : c.env = e.c.env.world) : LoadEntry l where
  c := c
  placed := h.placed
  n := e.n
  pos := e.pos
  lt := e.lt
  size := henv ▸ e.size
  len := h.assembled.len
  srchan := by
    have hsrchan := h.assembled.srchan
    rw [← Mem.add_ofNat_add] at hsrchan
    exact hsrchan
  moves := henv ▸ e.moves

/-- The tables' source, as `PageSetup` finds it. -/
def pages (h : e.Stage c) : PageEntry l where
  c := c
  placed := h.placed
  df := h.df
  idMap := h.assembled.idMap

/-- The place of the first move, which is the one the allocation has computed for the block. -/
theorem desoff (h : e.Stage c) {block : DWORD} (hfits : block.toNat ≤ 2 ^ 32 - 4096) :
    (l.args (extAllocSuccess l block c)).desoff = (h.alloc block hfits).args.desoff := by
  unfold Labels.args AllocEntry.args AllocEntry.after
  rw [(h.extAlloc block).base, ← h.base]
  rfl

/-- `[KernelAddr]` is still there when the tables are built. The loader runs in between, and keeps
it. -/
theorem kernelAddr (h : e.Stage c) {block : DWORD} (hfits : block.toNat ≤ 2 ^ 32 - 4096)
    (hk : Keeps (Boot.scratch l e.sp) (extAllocSuccess l block c) c') (h' : e.Stage c') :
    h'.pages.kernelAddr = (h.alloc block hfits).kernelAddr := by
  have hplaced := h.placed
  obtain ⟨hkernel, hxmm, hmap, hroom, hlt⟩ := hplaced.bounds
  have hsp := h.esp
  have hread := hk.frame.read32 (j := l.kernelAddr) (by omega) fun i hi hS => by
    unfold Boot.scratch at hS
    omega
  have hbase : Boot.base c' = Boot.base c := h'.base.trans h.base.symm
  have hbase' : linear ((extAllocSuccess l block c).seg .ds) 0#16 = Boot.base c :=
    (h.extAlloc block).base.trans h.base.symm
  rw [hbase'] at hread
  unfold PageEntry.kernelAddr AllocEntry.kernelAddr
  show c'.mem.read32 (Boot.base c' + _) = _
  rw [hbase, hread]
  rfl

end BootEntry.Stage

/-- The segment of the program is in the first megabyte, by the labels being where they are. -/
theorem PageEntry.base_toNat {l : Labels} (e : PageEntry l) :
    (base e.c).toNat + 0x10000 ≤ 0x100000 := by
  have hlow := e.placed.conventional
  have hbase : (base e.c).toNat = 16 * (e.c.seg .ds).toNat := linear_zero_toNat _
  omega

/-- The data of the program, while the tables are built: what is below the buffer is not in the
area. -/
theorem PageEntry.byte {l : Labels} (e : PageEntry l) {m : Mem}
    (h : Mem.Within hma 12288 e.found m) {j : Nat} (hj : j < l.buffer) :
    m.byte (base e.c) j = e.c.mem.byte (base e.c) j := by
  obtain ⟨_, _, _, hroom, hlt⟩ := e.placed.bounds
  have htables := h.byte (e.apart (j := j) (w := 1) (by omega)) (i := 0) (by decide)
  have hpush := e.found_within.byte
    (Mem.apart_object (base e.c) (j := j) (w := 1) (.inl (by omega)) (by omega) (by omega))
    (i := 0) (by decide)
  rw [Mem.byte_add, Mem.byte_add, Nat.add_zero] at htables hpush
  exact htables.trans hpush

/-- The operand of `lgdt` is in the segment of the program. -/
theorem Labels.Rest.gdtr_fits {l : Labels} (b : l.Rest) {c : Loader} (h : l.Placed c) :
    b.gdtr + 6 < 2 ^ 16 := by
  obtain ⟨_, hxmm, hmap, hroom, hlt⟩ := h.bounds
  have hgdt := b.gdt_le
  have hxms := b.xms_le
  have hle := b.xmm_le
  omega

/-- The jump stores the base of the GDT in the operand of `lgdt`, computed from DS, and no more. -/
theorem gotoKernel_mem (gdt : Nat) {gdtr : Nat} (cr0 : DWORD) (c : Loader)
    (hfits : gdtr + 6 < 2 ^ 16) : (gotoKernel gdt gdtr cr0 c).2.mem =
      c.mem.write32 (base c + BitVec.ofNat 32 (gdtr + 2)) (base c + BitVec.ofNat 32 gdt) := by
  have hshift : (c.seg .ds).setWidth 32 <<< 4 = base c := by
    have hlt := (c.seg .ds).isLt
    apply BitVec.eq_of_toNat_eq
    rw [BitVec.toNat_shiftLeft, BitVec.toNat_setWidth, Nat.shiftLeft_eq]
    unfold base
    rw [linear_zero_toNat]
    omega
  have hstored : (gotoKernel gdt gdtr cr0 c).2.mem =
      c.mem.write32 (linear (c.seg .ds) (BitVec.ofNat 16 (gdtr + 2)))
        ((c.seg .ds).setWidth 32 <<< 4 + BitVec.ofNat 32 gdt) := rfl
  rw [hstored, hshift, linear_ofNat _ (by omega)]
  rfl

/-- The data segments are loaded with the flat one before the jump. -/
theorem gotoKernel_data (gdt gdtr : Nat) (cr0 : DWORD) (c : Loader) :
    let c' := (gotoKernel gdt gdtr cr0 c).2
    c'.seg .ds = 0x10 ∧ c'.seg .es = 0x10 ∧ c'.seg .ss = 0x10 := by
  obtain ⟨a, ha⟩ : ∃ a : Loader, (gotoKernel gdt gdtr cr0 c).2 =
      { (((a.set16 .eax 0x10#16).setSeg .ds ((a.set16 .eax 0x10#16).reg16 .eax)).setSeg .es
        ((a.set16 .eax 0x10#16).reg16 .eax)).setSeg .ss ((a.set16 .eax 0x10#16).reg16 .eax)
          |>.setSeg .cs 8 with eip := 0xC0000001 } := ⟨_, rfl⟩
  have hax : (a.set16 .eax 0x10#16).reg16 .eax = 0x10#16 :=
    (set16_reg16 a .eax .eax 0x10#16).trans (if_pos rfl)
  dsimp only
  rw [ha, hax]
  exact ⟨rfl, rfl, rfl⟩

/-- Interrupts are off at the jump, as the kernel has no IDT of its own yet. -/
theorem gotoKernel_masked (gdt gdtr : Nat) (cr0 : DWORD) (c : Loader) :
    (gotoKernel gdt gdtr cr0 c).2.eflags.getLsbD 9 = false := by
  have hmask : (~~~(1#32 <<< 9)).getLsbD 9 = false := by decide
  show (c.eflags &&& ~~~(1#32 <<< 9)).getLsbD 9 = false
  rw [BitVec.getLsbD_and, hmask, Bool.and_false]

/-- The jump to the kernel calls nobody. -/
theorem gotoKernel_env (gdt gdtr : Nat) (cr0 : DWORD) (c : Loader) :
    (gotoKernel gdt gdtr cr0 c).2.env = c.env := rfl

/-! ## Rounds -/

/-- More rounds than are needed do not change what the loader ends with, so that the fuel of each
part of the program can be raised to that of the whole. -/
theorem loadKernel_mono {d : Services} {l : Labels} {c : Loader} {o : Outcome} {rounds k : Nat}
    (h : loadKernel d l rounds c = some o) (hk : rounds ≤ k) : loadKernel d l k c = some o := by
  rw [loadKernel_eq] at h ⊢
  dsimp only at h ⊢
  split at h
  · next hcarry =>
    rw [if_pos hcarry]
    exact h
  next hcarry =>
  rw [if_neg hcarry]
  split at h
  · next hpages =>
    rw [if_pos hpages]
    exact h
  next hpages =>
  rw [if_neg hpages]
  exact Loop.run_mono h hk

/-- The same for the page tables. -/
theorem pageSetup_mono {l : Labels} {c c' : Loader} {rounds k : Nat}
    (h : pageSetup l rounds c = some c') (hk : rounds ≤ k) : pageSetup l k c = some c' := by
  unfold pageSetup at h ⊢
  obtain ⟨c₁, h₁, h⟩ := Option.bind_eq_some_iff.mp h
  obtain ⟨c₂, h₂, h⟩ := Option.bind_eq_some_iff.mp h
  rw [Option.bind_eq_bind, Loop.run_mono h₁ hk, Option.bind_some, Loop.run_mono h₂ hk]
  exact h

/-- The tables are built with the moves, the data segment and the direction as they are. -/
theorem pageSetup_kept {l : Labels} {c c' : Loader} {rounds : Nat}
    (h : pageSetup l rounds c = some c') :
    c'.env.moves = c.env.moves ∧ c'.seg .ds = c.seg .ds ∧ c'.df = c.df := by
  let Inv := fun s : Loader =>
    s.env.moves = c.env.moves ∧ s.seg .ds = c.seg .ds ∧ s.df = c.df
  unfold pageSetup at h
  obtain ⟨c₁, h₁, h⟩ := Option.bind_eq_some_iff.mp h
  obtain ⟨c₂, h₂, h⟩ := Option.bind_eq_some_iff.mp h
  have hdirectory : Inv (directory l c) := by
    refine ⟨rfl, ?_, rfl⟩
    rw [directory_eq, set16_seg, set16_seg, set16_seg, directoryStored_seg]
    exact atDirectory_ds c
  have hcopied : Inv c₁ := by
    refine Loop.run_of_invariant Inv Inv (fun s s' hs hround => ?_) (fun s s' hs hlast => ?_)
      hdirectory h₁
    · unfold repMovsd at hround
      split at hround
      · cases hround
      · cases hround
        exact hs
    · unfold repMovsd at hlast
      split at hlast
      · cases hlast
        exact hs
      · cases hlast
  have hpages : Inv (kernelPages l c₁) := by
    have hstart := mapStart (l := l) c₁
    refine ⟨?_, ?_, ?_⟩
    · rw [hstart.env]
      exact hcopied.1
    · rw [hstart.seg]
      exact hcopied.2.1
    · rw [hstart.df]
      exact hcopied.2.2
  have hmapped : Inv c₂ := by
    refine Loop.run_of_invariant Inv Inv (fun s s' hs hround => ?_) (fun s s' hs hlast => ?_)
      hpages h₂
    · unfold mapLoop at hround
      dsimp only at hround
      split at hround
      · cases hround
        exact hs
      · cases hround
    · unfold mapLoop at hlast
      dsimp only at hlast
      split at hlast
      · cases hlast
      · cases hlast
        exact hs
  cases h
  exact hmapped

end OS90.Boot
