import OS90.Boot.Loader
import OS90.Ia32.Paging
import OS90.Ia32.Segment
import OS90.Lib.Loop

/-!
# Entering the kernel

`GotoKernel` of `boot386.asm`, which leaves real mode, and `Begin` of `StartK.asm`. The segments are
flat in between. `Bss` is what `Kernel.ld` defines around the section that is to be zeroed; `Begin`
fills it with EAX, and `rep stosd` is a loop of its own here. From its `lgdt` on it uses the
kernel's own tables (`beginMain`).

`begin` is over linear addresses. `beginPaged` is the same over physical memory, where every store
goes through the page tables and may be a page fault. It simulates `begin` in any window that is
mapped for good (`beginPaged_fills`).

The count of dwords is computed by `Begin` from the symbols of the linker, and the section is as
long as that count says, whatever the symbols are. With a section that is linked into the window the
addresses do not wrap.
-/

namespace OS90.Kernel

open OS90.Ia32 OS90.Ia32.Cpu OS90.Boot

/-- The section of zeroed variables. -/
structure Bss where
  lkrStartBss : PTR
  lkrEnd : PTR
  startAligned : lkrStartBss.toNat % 4096 = 0
  endAligned : lkrEnd.toNat % 4096 = 0
  le : lkrStartBss ≤ lkrEnd

/-- The dwords of the section. -/
def Bss.dwords (b : Bss) : Nat := (b.lkrEnd.toNat - b.lkrStartBss.toNat) / 4

/-- The count that `Begin` computes is that of the dwords of the section, of which the symbols of
the linker are the ends. -/
theorem Bss.count (b : Bss) : (b.lkrEnd - b.lkrStartBss) >>> 2 = BitVec.ofNat 32 b.dwords := by
  have hle := BitVec.le_def.mp b.le
  have hend := b.lkrEnd.isLt
  have hdwords : b.dwords = (b.lkrEnd.toNat - b.lkrStartBss.toNat) / 4 := rfl
  apply BitVec.eq_of_toNat_eq
  rw [BitVec.toNat_ushiftRight, BitVec.toNat_sub, BitVec.toNat_ofNat, Nat.shiftRight_eq_div_pow]
  omega

section Code

variable {σ : Type}

/-- `stosd` with flat segments. -/
def stosdFlat (c : Cpu σ) : Cpu σ :=
  c.store (c.gpr .edi) (c.gpr .eax)
    |>.set .edi (if c.df then c.gpr .edi - 4#32 else c.gpr .edi + 4#32)

/-- A round of `rep stosd`. -/
def repStosdFlat (c : Cpu σ) : Cpu σ ⊕ Cpu σ :=
  if c.gpr .ecx = 0#32 then .inr c else .inl ((stosdFlat c).set .ecx (c.gpr .ecx - 1#32))

/-- `Begin`, up to the `lgdt`. -/
def begin (b : Bss) (rounds : Nat) (c : Cpu σ) : Option (Cpu σ) :=
  let c := c.set .ecx b.lkrEnd
  let c := c.set .ecx (c.gpr .ecx - b.lkrStartBss)
  let c := c.set .ecx (c.gpr .ecx >>> 2)
  let c := c.set .edi b.lkrStartBss
  Loop.run repStosdFlat rounds c

/-- A round of it through the page tables, which ends with nothing at a page fault. -/
def repStosdPaged (wp : Bool) (cr3 : DWORD) (c : Cpu σ) : Cpu σ ⊕ Option (Cpu σ) :=
  if c.gpr .ecx = 0#32 then .inr (some c)
  else
    match c.mem.storePaged wp cr3 (c.gpr .edi) (c.gpr .eax) with
    | none => .inr none
    | some mem => .inl <| { c with mem }
        |>.set .edi (if c.df then c.gpr .edi - 4#32 else c.gpr .edi + 4#32)
        |>.set .ecx (c.gpr .ecx - 1#32)

/-- `Begin` through the page tables. -/
def beginPaged (b : Bss) (wp : Bool) (cr3 : DWORD) (rounds : Nat) (c : Cpu σ) :
    Option (Option (Cpu σ)) :=
  let c := c.set .ecx b.lkrEnd
  let c := c.set .ecx (c.gpr .ecx - b.lkrStartBss)
  let c := c.set .ecx (c.gpr .ecx >>> 2)
  let c := c.set .edi b.lkrStartBss
  Loop.run (repStosdPaged wp cr3) rounds c

/-- What the rest of `Begin` loads, where its jump goes, the top of the stack, and the return
address of its call. -/
structure StartSite where
  gdtr : PTR
  idtr : PTR
  cont : PTR
  initStack : PTR
  ret : PTR

/-- The machine at the first instruction of `KernelMain`, with the places of its two tables. -/
structure Started (σ : Type) where
  machine : Cpu σ
  gdtr : TableRegister
  idtr : TableRegister

/-- `Begin` from its `lgdt` to its call of `KernelMain`. -/
def beginMain (p : StartSite) (c : Cpu σ) : Option (Started σ) := do
  let gdtr := c.mem.tableRegister p.gdtr
  let idtr := c.mem.tableRegister p.idtr
  let c := c.set16 .eax (2#16 <<< 3)
  let c ← c.loadData gdtr (c.reg16 .eax) .ds
  let c ← c.loadData gdtr (c.reg16 .eax) .es
  let c ← c.loadStack gdtr (c.reg16 .eax)
  let c := c.set16 .eax 0
  let c ← c.loadData gdtr (c.reg16 .eax) .fs
  let c ← c.loadData gdtr (c.reg16 .eax) .gs
  let c ← c.farJump gdtr 8 p.cont
  let c := c.set .esp p.initStack
  return ⟨c.push p.ret, gdtr, idtr⟩

/-- `GotoKernel`, with the places of its two tables and CR0: CR0 and the machine after it. -/
def gotoKernel (gdt gdtr : Nat) (cr0 : DWORD) (c : Loader) : DWORD × Loader :=
  let c := { c with eflags := withFlag c.eflags 9 false }
  let c := c.set .eax ((c.seg .ds).setWidth 32)
  let c := c.set .eax (c.gpr .eax <<< 4)
  let c := c.set .eax (c.gpr .eax + BitVec.ofNat 32 gdt)
  let c := c.store (linear (c.seg .ds) (BitVec.ofNat 16 (gdtr + 2))) (c.gpr .eax)
  let c := c.set .eax cr0
  let c := c.set .eax (c.gpr .eax ||| 0x80000001#32)
  let cr0 := c.gpr .eax
  let c := c.set16 .eax 0x10#16
  let c := c.setSeg .ds (c.reg16 .eax) |>.setSeg .es (c.reg16 .eax) |>.setSeg .ss (c.reg16 .eax)
  (cr0, { c.setSeg .cs 8 with eip := 0xC0000001 })

end Code

/-! ## The loop -/

section Fill

variable {σ : Type} (b : Bss) (s : Cpu σ)

/-- The machine with `n` dwords of the section filled and `left` to go. -/
structure FillingBss (n left : Nat) (c : Cpu σ) : Prop where
  eax : c.gpr .eax = s.gpr .eax
  ecx : c.gpr .ecx = BitVec.ofNat 32 left
  edi : c.gpr .edi = b.lkrStartBss + BitVec.ofNat 32 (4 * n)
  df : c.df = false
  bytes : ∀ k < 2 ^ 32, c.mem.byte b.lkrStartBss k =
    if k < 4 * n then (s.gpr .eax).extractLsb' (8 * (k % 4)) 8 else s.mem.byte b.lkrStartBss k

variable {b s}

/-- A round fills one more dword and counts one down. The premises keep the counter and the section
from wrapping. -/
theorem FillingBss.round {n left : Nat} {c : Cpu σ} (h : FillingBss b s n (left + 1) c)
    (hleft : left + 1 < 2 ^ 32) (hn : 4 * n + 4 ≤ 2 ^ 32) :
    ∃ c', repStosdFlat c = .inl c' ∧ FillingBss b s (n + 1) left c' := by
  have hcx : c.gpr .ecx ≠ 0#32 := by
    rw [h.ecx]
    exact ofNat_ne hleft (by decide) (Nat.succ_ne_zero left)
  have hnext : c.gpr .edi + 4#32 = b.lkrStartBss + BitVec.ofNat 32 (4 * (n + 1)) := by
    rw [h.edi, Nat.mul_succ]
    exact Mem.add_ofNat_add _ (4 * n) 4
  have hcount : BitVec.ofNat 32 (left + 1) - 1#32 = BitVec.ofNat 32 left := by
    apply BitVec.eq_of_toNat_eq
    rw [BitVec.toNat_sub, BitVec.toNat_ofNat, BitVec.toNat_ofNat, BitVec.toNat_ofNat]
    omega
  have hgpr : ∀ q, ((stosdFlat c).set .ecx (c.gpr .ecx - 1#32)).gpr q =
      if q = .ecx then BitVec.ofNat 32 left
      else if q = .edi then b.lkrStartBss + BitVec.ofNat 32 (4 * (n + 1)) else c.gpr q := by
    intro q
    unfold stosdFlat
    rw [set_gpr, set_gpr, h.df, if_neg Bool.false_ne_true, hnext, h.ecx, hcount]
    rfl
  refine ⟨_, if_neg hcx, ⟨?_, hgpr .ecx, hgpr .edi, h.df, fun k hk => ?_⟩⟩
  · rw [hgpr .eax]
    exact h.eax
  · change (c.mem.write32 (c.gpr .edi) (c.gpr .eax)).byte b.lkrStartBss k = _
    rw [h.edi, h.eax, Mem.byte_write32 _ hn hk, h.bytes k hk]
    by_cases hnew : 4 * n ≤ k ∧ k < 4 * n + 4
    · have hindex : k - 4 * n = k % 4 := by omega
      rw [if_pos hnew, if_pos (by omega), hindex]
    · rw [if_neg hnew]
      exact if_congr (by omega) rfl rfl

/-- The loop is left with every dword filled, for a section of any size. -/
theorem repStosdFlat_leaves {left : Nat} (h : FillingBss b s 0 left s) (hleft : 4 * left < 2 ^ 32) :
    ∃ c, Loop.Leaves repStosdFlat s c ∧ FillingBss b s left 0 c := by
  have hround : ∀ k c, k < left → FillingBss b s k (left - k) c →
      ∃ c', repStosdFlat c = .inl c' ∧ FillingBss b s (k + 1) (left - (k + 1)) c' := by
    intro k c hk hc
    have hnext : left - k = left - (k + 1) + 1 := by omega
    rw [hnext] at hc
    exact hc.round (by omega) (by omega)
  have hlast : ∀ c, FillingBss b s left (left - left) c →
      ∃ c', repStosdFlat c = .inr c' ∧ FillingBss b s left 0 c' := by
    intro c hc
    rw [Nat.sub_self] at hc
    exact ⟨c, if_pos hc.ecx, hc⟩
  exact Loop.Leaves.of_countup _ _ hround hlast h

end Fill

/-! ## The kernel's tables -/

section Tables

variable {σ : Type}

/-- What `KernelMain` is entered with, out of the machine `c` at the `lgdt`. -/
structure AtMain (p : StartSite) (c : Cpu σ) (s : Started σ) : Prop where
  gdtr : s.gdtr = c.mem.tableRegister p.gdtr
  idtr : s.idtr = c.mem.tableRegister p.idtr
  seg : ∀ r, s.machine.seg r = match r with
    | .cs => 8
    | .ds | .es | .ss => 0x10
    | .fs | .gs => 0
  eip : s.machine.eip = p.cont
  eflags : s.machine.eflags = c.eflags
  esp : s.machine.gpr .esp = p.initStack - 4#32
  mem : s.machine.mem = c.mem.write32 (p.initStack - 4#32) p.ret

/-- The data segments flat, and those that are not used null. -/
def dataLoaded (c : Cpu σ) : Cpu σ :=
  let c := (((c.set16 .eax 0x10).setSeg .ds 0x10).setSeg .es 0x10).setSeg .ss 0x10
  ((c.set16 .eax 0).setSeg .fs 0).setSeg .gs 0

theorem dataLoaded_mem (c : Cpu σ) : (dataLoaded c).mem = c.mem := rfl

/-- None of the loads of the data segments is a fault, if the table has at 10h a segment that can be
read and be a stack. What is left of `Begin` then is its jump and its call. -/
theorem beginMain_data (p : StartSite) {c : Cpu σ} {data : Descriptor}
    (hdata : (c.mem.tableRegister p.gdtr).descriptor c.mem 0x10 = some data)
    (hread : data.readable = true) (hstack : data.isStack = true) :
    beginMain p c = do
      let d ← (dataLoaded c).farJump (c.mem.tableRegister p.gdtr) 8 p.cont
      return ⟨(d.set .esp p.initStack).push p.ret, c.mem.tableRegister p.gdtr,
        c.mem.tableRegister p.idtr⟩ := by
  have hax : ∀ (d : Cpu σ) (v : WORD), (d.set16 .eax v).reg16 .eax = v := by
    intro d v
    rw [set16_reg16, if_pos rfl]
  unfold beginMain
  generalize c.mem.tableRegister p.gdtr = gdtr at hdata ⊢
  obtain ⟨c₁, hc₁⟩ : ∃ c₁, c₁ = c.set16 .eax (2#16 <<< 3) := ⟨_, rfl⟩
  have hax₁ : c₁.reg16 .eax = 0x10 := by
    rw [hc₁]
    exact hax c _
  have hdata₁ : gdtr.descriptor c₁.mem 0x10 = some data := by
    rw [hc₁]
    exact hdata
  have hds : c₁.loadData gdtr (c₁.reg16 .eax) .ds = some (c₁.setSeg .ds 0x10) := by
    rw [hax₁]
    exact loadData_eq .ds hdata₁ hread
  obtain ⟨c₂, hc₂⟩ : ∃ c₂, c₂ = c₁.setSeg .ds 0x10 := ⟨_, rfl⟩
  have hes : c₂.loadData gdtr (c₂.reg16 .eax) .es = some (c₂.setSeg .es 0x10) := by
    rw [hc₂, setSeg_reg16, hax₁]
    exact loadData_eq .es hdata₁ hread
  obtain ⟨c₃, hc₃⟩ : ∃ c₃, c₃ = c₂.setSeg .es 0x10 := ⟨_, rfl⟩
  have hss : c₃.loadStack gdtr (c₃.reg16 .eax) = some (c₃.setSeg .ss 0x10) := by
    rw [hc₃, hc₂, setSeg_reg16, setSeg_reg16, hax₁]
    exact loadStack_eq hdata₁ hstack
  obtain ⟨c₄, hc₄⟩ : ∃ c₄, c₄ = (c₃.setSeg .ss 0x10).set16 .eax 0 := ⟨_, rfl⟩
  -- a null selector is loaded into FS and GS without a look at the table
  have hfs : c₄.loadData gdtr (c₄.reg16 .eax) .fs = some (c₄.setSeg .fs 0) := by
    rw [hc₄, hax]
    rfl
  have hgs : (c₄.setSeg .fs 0).loadData gdtr ((c₄.setSeg .fs 0).reg16 .eax) .gs =
      some ((c₄.setSeg .fs 0).setSeg .gs 0) := by
    rw [setSeg_reg16, hc₄, hax]
    rfl
  dsimp only [Option.bind_eq_bind]
  rw [← hc₁, hds, Option.bind_some, ← hc₂, hes, Option.bind_some, ← hc₃, hss, Option.bind_some,
    ← hc₄, hfs, Option.bind_some, hgs, Option.bind_some, hc₄, hc₃, hc₂, hc₁]
  rfl

/-- The loads are none of them faults if the table has code and data at the two selectors, and the
jump goes to where it has code. -/
theorem beginMain_run (p : StartSite) {c : Cpu σ} {code data : Descriptor}
    (hcode : (c.mem.tableRegister p.gdtr).descriptor c.mem 8 = some code)
    (hdata : (c.mem.tableRegister p.gdtr).descriptor c.mem 0x10 = some data)
    (hruns : code.runs = true) (hlimit : p.cont.toNat ≤ code.limit)
    (hread : data.readable = true) (hstack : data.isStack = true) :
    ∃ s, beginMain p c = some s ∧ AtMain p c s := by
  have hjump : (dataLoaded c).farJump (c.mem.tableRegister p.gdtr) 8 p.cont =
      some { (dataLoaded c).setSeg .cs 8 with eip := p.cont } := by
    refine farJump_eq ?_ hruns hlimit
    rw [dataLoaded_mem]
    exact hcode
  rw [beginMain_data p hdata hread hstack, hjump]
  refine ⟨_, rfl, rfl, rfl, fun r => ?_, rfl, rfl, ?_, rfl⟩
  · cases r <;> rfl
  · rw [push_gpr, if_pos rfl]
    rfl

end Tables

/-! ## What the two leave -/

section Result

variable {σ : Type} (b : Bss)

/-- `Begin` comes to its `lgdt` with every dword of the section a copy of EAX, and nothing else
changed. -/
theorem begin_fills (c : Cpu σ) (hdf : c.df = false) :
    ∃ rounds c', begin b rounds c = some c' ∧ ∀ k < 2 ^ 32, c'.mem.byte b.lkrStartBss k =
      if k < 4 * b.dwords then (c.gpr .eax).extractLsb' (8 * (k % 4)) 8
      else c.mem.byte b.lkrStartBss k := by
  have hle := BitVec.le_def.mp b.le
  have hend := b.lkrEnd.isLt
  have hdwords : b.dwords = (b.lkrEnd.toNat - b.lkrStartBss.toNat) / 4 := rfl
  obtain ⟨s, hs⟩ : ∃ s, s = (((c.set .ecx b.lkrEnd).set .ecx (b.lkrEnd - b.lkrStartBss)).set .ecx
    ((b.lkrEnd - b.lkrStartBss) >>> 2)).set .edi b.lkrStartBss := ⟨_, rfl⟩
  have heax : s.gpr .eax = c.gpr .eax := by
    rw [hs]
    rfl
  have hmem : s.mem = c.mem := by
    rw [hs]
    rfl
  have hfirst : FillingBss b s 0 b.dwords s := by
    refine ⟨rfl, ?_, ?_, ?_, fun k _ => (if_neg (Nat.not_lt_zero k)).symm⟩
    · rw [← b.count, hs]
      rfl
    · rw [Nat.mul_zero, BitVec.add_zero, hs]
      rfl
    · rw [hs]
      exact hdf
  obtain ⟨c', ⟨rounds, hrun⟩, hfilled⟩ := repStosdFlat_leaves hfirst (by omega)
  refine ⟨rounds, c', ?_, fun k hk => ?_⟩
  · rw [← hrun, hs]
    rfl
  · rw [hfilled.bytes k hk, heax, hmem]

variable (gdt gdtr : Nat) (cr0 : DWORD) (c : Loader)

/-- The loader jumps to the kernel with the data selector in AX. -/
theorem gotoKernel_ax : (gotoKernel gdt gdtr cr0 c).2.reg16 .eax = 0x10#16 :=
  (set16_reg16 _ .eax .eax 0x10#16).trans (if_pos rfl)

/-- The jump leaves the direction flag alone, so that the kernel begins with it clear. -/
theorem gotoKernel_df : (gotoKernel gdt gdtr cr0 c).2.df = c.df := by
  have hmask : (~~~(1#32 <<< 9)).getLsbD 10 = true := by decide
  show (c.eflags &&& ~~~(1#32 <<< 9)).getLsbD 10 = c.eflags.getLsbD 10
  rw [BitVec.getLsbD_and, hmask, Bool.and_true]

end Result

/-! ## Through the page tables -/

section Paged

variable {σ : Type} {wp : Bool} {cr3 la p : DWORD} {n : Nat} {m : Mem}

/-- The machine `t`, whose memory has what `s` has in the `n` bytes from `la` in those from `p`, and
was `m` before. The dwords that are left to store are in the window. -/
structure Behind (cr3 la p : DWORD) (n : Nat) (m : Mem) (s t : Cpu σ) : Prop where
  gpr : t.gpr = s.gpr
  forward : s.df = false ∧ t.df = false
  maps : t.mem.Maps cr3 la p n
  bytes : ∀ i < n, t.mem.byte p i = s.mem.byte la i
  within : Mem.Within p n m t.mem
  room : ∃ k, s.gpr .edi = la + BitVec.ofNat 32 k ∧ k + 4 * (s.gpr .ecx).toNat ≤ n

/-- The two machines store a dword each, at the linear address and at the physical one behind it.
This is the step of the simulation. -/
theorem Behind.round {s t s' : Cpu σ} (h : Behind cr3 la p n m s t) (hn : n < 2 ^ 32)
    (hround : repStosdFlat s = .inl s') :
    ∃ t', repStosdPaged wp cr3 t = .inl t' ∧ Behind cr3 la p n m s' t' := by
  unfold repStosdFlat at hround
  split at hround
  · cases hround
  next hcx =>
  obtain rfl := Sum.inl.inj hround
  obtain ⟨k, hedi, hroom⟩ := h.room
  have hcount : (s.gpr .ecx).toNat ≠ 0 := fun hzero => hcx (BitVec.eq_of_toNat_eq hzero)
  have hstore := h.maps.storePaged wp (s.gpr .eax) (i := k) (by omega)
  rw [← hedi] at hstore
  have hwrite : Mem.Within p n t.mem (t.mem.write32 (p + BitVec.ofNat 32 k) (s.gpr .eax)) := by
    refine (Mem.write32_within _ _ _).mono ?_
    have hdist : p + BitVec.ofNat 32 k - p = BitVec.ofNat 32 k := by grind
    rw [hdist, BitVec.toNat_ofNat]
    omega
  have hnext : (if s.df then s.gpr .edi - 4#32 else s.gpr .edi + 4#32) = s.gpr .edi + 4#32 := by
    rw [h.forward.1, if_neg Bool.false_ne_true]
  have hrun : repStosdPaged wp cr3 t = .inl ((({ t with
      mem := t.mem.write32 (p + BitVec.ofNat 32 k) (s.gpr .eax) } : Cpu σ).set .edi
        (s.gpr .edi + 4#32)).set .ecx (s.gpr .ecx - 1#32)) := by
    unfold repStosdPaged
    rw [h.gpr, if_neg hcx, hstore, h.forward.2, if_neg Bool.false_ne_true]
  refine ⟨_, hrun, ⟨?_, h.forward, h.maps.within hwrite, fun i hi => ?_, h.within.trans hwrite,
    k + 4, ?_, ?_⟩⟩
  · funext q
    unfold stosdFlat
    rw [hnext, set_gpr, set_gpr, set_gpr, set_gpr]
    show (if _ then _ else if _ then _ else t.gpr q) = _
    rw [h.gpr]
    rfl
  · show (t.mem.write32 (p + BitVec.ofNat 32 k) (s.gpr .eax)).byte p i =
      (s.mem.write32 (s.gpr .edi) (s.gpr .eax)).byte la i
    rw [hedi, Mem.byte_write32 _ (by omega) (by omega), Mem.byte_write32 _ (by omega) (by omega),
      h.bytes i hi]
  · show (if s.df then s.gpr .edi - 4#32 else s.gpr .edi + 4#32) = _
    rw [hnext, hedi, ← Mem.add_ofNat_add]
  · have hone : (1#32).toNat = 1 := rfl
    show k + 4 + 4 * (s.gpr .ecx - 1#32).toNat ≤ n
    rw [BitVec.toNat_sub, hone]
    omega

/-- Both leave the loop at the same time, in states that are related. -/
theorem Behind.last {s t r : Cpu σ} (h : Behind cr3 la p n m s t) (hout : repStosdFlat s = .inr r) :
    ∃ r', repStosdPaged wp cr3 t = .inr r' ∧ ∃ t', r' = some t' ∧ Behind cr3 la p n m r t' := by
  unfold repStosdFlat at hout
  split at hout
  next hcx =>
    obtain rfl := Sum.inr.inj hout
    refine ⟨some t, ?_, t, rfl, h⟩
    unfold repStosdPaged
    rw [h.gpr, if_pos hcx]
  · cases hout

/-- `Begin` stores nothing where nothing is mapped, and is done with every dword of a section in
the window a copy of EAX and no other byte of physical memory changed. -/
theorem beginPaged_fills (b : Bss) (wp : Bool) {c : Cpu σ} (hdf : c.df = false)
    (hmaps : c.mem.Maps cr3 la p n) (hn : n < 2 ^ 32) {k : Nat}
    (hstart : b.lkrStartBss = la + BitVec.ofNat 32 k) (hroom : k + 4 * b.dwords ≤ n) :
    ∃ rounds c', beginPaged b wp cr3 rounds c = some (some c') ∧
      c'.mem = c.mem.splice (p + BitVec.ofNat 32 k) (4 * b.dwords)
        fun i => (c.gpr .eax).extractLsb' (8 * (i % 4)) 8 := by
  -- the flat machine that has the window's bytes at their linear addresses
  obtain ⟨s, hs⟩ : ∃ s : Cpu σ, s = { c with mem := fun x => c.mem (p + (x - la)) } := ⟨_, rfl⟩
  have hview : ∀ i, s.mem.byte la i = c.mem.byte p i := by
    intro i
    have hdist : la + BitVec.ofNat 32 i - la = BitVec.ofNat 32 i := by grind
    rw [hs]
    show c.mem (p + (la + BitVec.ofNat 32 i - la)) = c.mem (p + BitVec.ofNat 32 i)
    rw [hdist]
  have hflat : s.df = false ∧ s.gpr = c.gpr := by
    rw [hs]
    exact ⟨hdf, rfl⟩
  obtain ⟨rounds, s', hrun, hfilled⟩ := begin_fills b s hflat.1
  have hdwords : b.dwords < 2 ^ 32 := by omega
  -- both with the registers set for the loop
  let start := fun c : Cpu σ => ((c.set .ecx b.lkrEnd).set .ecx (b.lkrEnd - b.lkrStartBss)
    |>.set .ecx ((b.lkrEnd - b.lkrStartBss) >>> 2)).set .edi b.lkrStartBss
  have hstarted : Behind cr3 la p n c.mem (start s) (start c) := by
    refine ⟨?_, ⟨hflat.1, hdf⟩, hmaps, fun i _ => (hview i).symm, Mem.Within.refl p n c.mem, k,
      hstart, ?_⟩
    · rw [hs]
      rfl
    · show k + 4 * ((b.lkrEnd - b.lkrStartBss) >>> 2).toNat ≤ n
      rw [b.count, BitVec.toNat_ofNat, Nat.mod_eq_of_lt hdwords]
      exact hroom
  have hends : ∃ r', Loop.Leaves (repStosdPaged wp cr3) (start c) r' ∧
      ∃ t', r' = some t' ∧ Behind cr3 la p n c.mem s' t' :=
    Loop.Leaves.simulate (Behind cr3 la p n c.mem)
      (fun r r' => ∃ t', r' = some t' ∧ Behind cr3 la p n c.mem r t')
      (fun _ _ _ h => h.round hn) (fun _ _ _ h => h.last) hstarted ⟨rounds, hrun⟩
  obtain ⟨_, hleaves, c', rfl, hbehind⟩ := hends
  obtain ⟨rounds', hrun'⟩ := hleaves
  refine ⟨rounds', c', hrun', funext fun x => ?_⟩
  obtain ⟨i, hi⟩ : ∃ i, i = (x - p).toNat := ⟨_, rfl⟩
  have hlt : i < 2 ^ 32 := by
    rw [hi]
    exact (x - p).isLt
  have hx : x = p + BitVec.ofNat 32 i := by
    rw [hi, BitVec.ofNat_toNat, BitVec.setWidth_eq]
    grind
  obtain ⟨j, hj⟩ : ∃ j, j = (2 ^ 32 + i - k) % 2 ^ 32 := ⟨_, rfl⟩
  have hdist := Mem.byte_distance p (j := k) (k := i) (by omega) hlt
  rw [← hx, ← hj] at hdist
  have hplace : la + BitVec.ofNat 32 i = b.lkrStartBss + BitVec.ofNat 32 j := by
    rw [hstart, Mem.add_ofNat_add]
    refine congrArg (la + ·) (BitVec.eq_of_toNat_eq ?_)
    rw [BitVec.toNat_ofNat, BitVec.toNat_ofNat]
    omega
  unfold Mem.splice
  rw [hdist]
  by_cases hin : i < n
  · have hbyte : c'.mem x = s'.mem.byte b.lkrStartBss j := by
      have hbytes := hbehind.bytes i hin
      unfold Mem.byte at hbytes ⊢
      rw [hx, hbytes, hplace]
    have hkept : s.mem.byte b.lkrStartBss j = c.mem x := by
      have hbytes := hview i
      unfold Mem.byte at hbytes ⊢
      rw [← hplace, hbytes, hx]
    rw [hbyte, hfilled j (by omega), hflat.2, hkept]
  · rw [hbehind.within x (by omega), if_neg (by omega)]

end Paged

end OS90.Kernel
