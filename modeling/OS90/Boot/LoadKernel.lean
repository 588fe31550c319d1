import OS90.Boot.Loader
import OS90.Lib.Loop

/-!
# Loading the kernel image

`LoadKernel` of `boot386.asm`. The page count is in DI, the file pointer with DOS, and the place of
the next page in `XMM.desoff`. `Loading` is what holds of the three at the head of the loop with
`k` pages copied.

The loop decrements its counter before it tests it, and the model has the two in this order. What
the loader does is therefore one page less than what it counts, and the theorems say so with `n -
1`.

A round is a read into the buffer, a push of the handle, a move by the driver and a pop. Each of
these has a lemma for the registers, one for memory and one for the file, and a round is put
together from them once (`loadLoop_round`). `LoadEntry` is where the loader starts: an image of 1 to
65535 whole pages, and labels that are apart. Here every call is answered (`Succeed`); calls that
fail are in a module of their own.
-/

namespace OS90.Boot

open OS90.Ia32 OS90.Ia32.Cpu OS90.Kernel

/-- How the loader leaves `LoadKernel`: with the image loaded, or by one of its `ERROR`s. -/
inductive Outcome where
  | loaded (c : Loader)
  | fileError (c : Loader)
  | corrupted (c : Loader)
  | moveError (c : Loader)

section Code

variable (d : Services) (l : Labels)

/-- `.loadloop`. -/
def loadLoop (c : Loader) : Loader ⊕ Outcome :=
  let c := c.set16 .edi (c.reg16 .edi - 1#16)
  if c.reg16 .edi = 0#16 then .inr (.loaded (int21 d (c.setHigh8 .eax 0x3E#8)))
  else
    let c := c.setHigh8 .eax 0x3F#8 |>.set16 .ecx 4096#16
      |>.set16 .edx (BitVec.ofNat 16 l.buffer)
    let c := int21 d c
    if c.carry then .inr (.corrupted c)
    else
      let c := c.push16 (c.reg16 .ebx) |>.setHigh8 .eax 0x0B#8
      let c := xmsMove d c
      if c.low8 .eax = 1#8 then
        let c := c.pop16 .ebx
        let desoff := linear (c.seg .ds) (BitVec.ofNat 16 (l.xmm + 12))
        .inl (c.store desoff (c.mem.read32 desoff + 4096#32))
      else .inr (.moveError c)

/-- `LoadKernel`, with so many rounds of the loop. -/
def loadKernel (rounds : Nat) (c : Loader) : Option Outcome :=
  let c := int21 d (c.set16 .eax 0x3D00#16 |>.set16 .edx (BitVec.ofNat 16 l.path))
  if c.carry then some (.fileError c)
  else
    let c := c.set16 .ebx (c.reg16 .eax)
    let c := int21 d (c.set16 .eax 0x4202#16 |>.set16 .ecx 0#16 |>.set16 .edx 0#16)
    -- `shrd ax, dx, PAGE_SHIFT`
    let c := c.set16 .eax (((c.reg16 .edx ++ c.reg16 .eax) >>> 12).setWidth 16)
    if c.reg16 .eax = 0#16 then some (.corrupted c)
    else
      let c := c.set16 .edi (c.reg16 .eax)
      let c := int21 d (c.set16 .eax 0x4200#16 |>.set16 .ecx 0#16 |>.set16 .edx 0#16)
      let ds := c.seg .ds
      let c := c.store16 (linear ds (BitVec.ofNat 16 (l.xmm + 6))) (BitVec.ofNat 16 l.buffer)
        |>.store16 (linear ds (BitVec.ofNat 16 (l.xmm + 8))) ds
      let c := c.set16 .esi (BitVec.ofNat 16 l.xmm)
      Loop.run (loadLoop d l) rounds c

end Code

/-! ## The argument structure -/

section Argument

variable (mem : Mem) (a : DWORD)

/-- The argument structure is sixteen bytes, and what is written apart from them leaves it as it
was. -/
theorem moveStructAt_of_within {mem mem' : Mem} {a lo : DWORD} {n : Nat}
    (h : Mem.Within lo n mem mem') (hapart : Mem.Apart a 16 lo n) :
    moveStructAt mem' a = moveStructAt mem a := by
  have hlen := h.read32_apart hapart (e := 0) (by decide)
  have hsrchan := h.read16_apart hapart (e := 4) (by decide)
  have hsrcoff := h.read16_apart hapart (e := 6) (by decide)
  have hsrcseg := h.read16_apart hapart (e := 8) (by decide)
  have hdeshan := h.read16_apart hapart (e := 10) (by decide)
  have hdesoff := h.read32_apart hapart (e := 12) (by decide)
  rw [BitVec.add_zero] at hlen
  unfold moveStructAt
  rw [hlen, hsrchan, hsrcoff, hsrcseg, hdeshan, hdesoff]

/-- A store at offset 12 of the structure changes its `desoff`, whatever the value is, and none of
its other fields. -/
theorem moveStructAt_desoff (v : DWORD) :
    moveStructAt (mem.write32 (a + 12#32) v) a = { moveStructAt mem a with desoff := v } := by
  have hwithin := Mem.write32_within mem (a + BitVec.ofNat 32 12) v
  have hlen := hwithin.read32_object (e := 0) (by decide) (by decide) (by decide)
  have hsrchan := hwithin.read16_object (e := 4) (by decide) (by decide) (by decide)
  have hsrcoff := hwithin.read16_object (e := 6) (by decide) (by decide) (by decide)
  have hsrcseg := hwithin.read16_object (e := 8) (by decide) (by decide) (by decide)
  have hdeshan := hwithin.read16_object (e := 10) (by decide) (by decide) (by decide)
  rw [BitVec.add_zero] at hlen
  unfold moveStructAt
  rw [hlen, hsrchan, hsrcoff, hsrcseg, hdeshan, Mem.read32_write32_same]

/-- The address of the buffer is stored by its halves, which together are the field `srcoff`. -/
theorem moveStructAt_srcoff (off seg : WORD) :
    moveStructAt ((mem.write16 (a + 6#32) off).write16 (a + 8#32) seg) a =
      { moveStructAt mem a with srcoff := off, srcseg := seg } := by
  obtain ⟨m, hm⟩ : ∃ m, m = mem.write16 (a + 6#32) off := ⟨_, rfl⟩
  have hoff : Mem.Within (a + BitVec.ofNat 32 6) 4 mem m := by
    rw [hm]
    exact Mem.splice_within_object mem a _ (by decide) (by decide) (by decide)
  have hboth : Mem.Within (a + BitVec.ofNat 32 6) 4 mem (m.write16 (a + 8#32) seg) :=
    hoff.trans (Mem.splice_within_object m a _ (by decide) (by decide) (by decide))
  have hlen := hboth.read32_object (e := 0) (by decide) (by decide) (by decide)
  have hsrchan := hboth.read16_object (e := 4) (by decide) (by decide) (by decide)
  have hdeshan := hboth.read16_object (e := 10) (by decide) (by decide) (by decide)
  have hdesoff := hboth.read32_object (e := 12) (by decide) (by decide) (by decide)
  have hsrcoff : (m.write16 (a + 8#32) seg).read16 (a + 6#32) = off := by
    have hseg := Mem.splice_within m (a + BitVec.ofNat 32 8) 2 fun i => seg.extractLsb' (8 * i) 8
    refine (hseg.read16_object (e := 6) (by decide) (by decide) (by decide)).trans ?_
    rw [hm]
    exact Mem.read16_write16_same _ _ _
  rw [BitVec.add_zero] at hlen
  unfold moveStructAt
  rw [← hm, hlen, hsrchan, hsrcoff, Mem.read16_write16_same, hdeshan, hdesoff]

end Argument

/-! ## A round of the loop -/

/-- The argument structure. -/
def Labels.args (l : Labels) (c : Loader) : MoveStruct :=
  moveStructAt c.mem (base c + BitVec.ofNat 32 l.xmm)

/-- The next page of the file. -/
def nextPage (c : Loader) : List BYTE :=
  (List.range 4096).map fun j => c.env.file.data (c.env.file.pos.toNat + j)

/-- At the head of the loop: the buffer is the source of the move, and BX is the handle. -/
structure Ready (l : Labels) (c : Loader) : Prop where
  placed : l.Placed c
  ebx : c.reg16 .ebx = c.env.file.handle
  esi : c.reg16 .esi = BitVec.ofNat 16 l.xmm
  len : (l.args c).len = 4096#32
  srcoff : (l.args c).srcoff = BitVec.ofNat 16 l.buffer
  srcseg : (l.args c).srcseg = c.seg .ds

/-- A round moves the next page, and keeps the three counts in step. -/
structure Round (l : Labels) (c c' : Loader) : Prop where
  ready : Ready l c'
  ds : c'.seg .ds = c.seg .ds
  edi : c'.reg16 .edi = c.reg16 .edi - 1#16
  file : c'.env.file = { c.env.file with pos := c.env.file.pos + 4096#32 }
  args : l.args c' = { l.args c with desoff := (l.args c).desoff + 4096#32 }
  moves : c'.env.moves = c.env.moves ++ [⟨l.args c, nextPage c⟩]

section Round

variable {d : Services} {l : Labels} {c : Loader}

/-- The labels are in order in the segment, with the stack above them. All disjointness in a round
comes from these three inequalities. -/
theorem Ready.bounds (h : Ready l c) :
    l.xmm + 16 + 1024 ≤ l.buffer ∧ l.buffer + 4096 + 64 ≤ (c.reg16 .esp).toNat ∧
      (c.reg16 .esp).toNat < 2 ^ 16 := by
  obtain ⟨_, hxmm, hidMap, hroom, hsp⟩ := h.placed.bounds
  omega

/-- The loop's own writes, to the buffer and to the stack. -/
def readAndPushed (l : Labels) (c : Loader) : Mem :=
  (c.mem.splice (base c + BitVec.ofNat 32 l.buffer) 4096
      fun j => c.env.file.data (c.env.file.pos.toNat + j)).write16
    (base c + BitVec.ofNat 32 ((c.reg16 .esp).toNat - 2)) (c.reg16 .ebx)

/-- Neither the read nor the push touches the argument structure. -/
theorem moveStructAt_readAndPushed (h : Ready l c) :
    moveStructAt (readAndPushed l c) (base c + BitVec.ofNat 32 l.xmm) = l.args c := by
  obtain ⟨hbuffer, hstack, hsp⟩ := h.bounds
  have hpushed := Mem.splice_within
    (c.mem.splice (base c + BitVec.ofNat 32 l.buffer) 4096
      fun j => c.env.file.data (c.env.file.pos.toNat + j))
    (base c + BitVec.ofNat 32 ((c.reg16 .esp).toNat - 2)) 2
    fun i => (c.reg16 .ebx).extractLsb' (8 * i) 8
  have hread := Mem.splice_within c.mem (base c + BitVec.ofNat 32 l.buffer) 4096
    fun j => c.env.file.data (c.env.file.pos.toNat + j)
  calc moveStructAt (readAndPushed l c) (base c + BitVec.ofNat 32 l.xmm)
      = moveStructAt (c.mem.splice (base c + BitVec.ofNat 32 l.buffer) 4096
          fun j => c.env.file.data (c.env.file.pos.toNat + j))
          (base c + BitVec.ofNat 32 l.xmm) :=
        moveStructAt_of_within hpushed
          (Mem.apart_object _ (.inl (by omega)) (by omega) (by omega))
    _ = l.args c :=
        moveStructAt_of_within hread
          (Mem.apart_object _ (.inl (by omega)) (by omega) (by omega))

/-- The buffer holds the page that was at the position of the file, and the push has not reached
it. -/
theorem byte_readAndPushed (h : Ready l c) {j : Nat} (hj : j < 4096) :
    (readAndPushed l c).byte (base c + BitVec.ofNat 32 l.buffer) j =
      c.env.file.data (c.env.file.pos.toNat + j) := by
  obtain ⟨hbuffer, hstack, hsp⟩ := h.bounds
  unfold readAndPushed
  rw [Mem.byte_add, Mem.byte_write16 _ (by omega) (by omega), if_neg (by omega),
    Mem.byte_splice (by omega) (by decide) (by omega), if_pos (by omega), Nat.add_sub_cancel_left]

/-- The registers for the read. -/
def readRegs (l : Labels) (c : Loader) : Loader :=
  c.set16 .edi (c.reg16 .edi - 1#16) |>.setHigh8 .eax 0x3F#8 |>.set16 .ecx 4096#16
    |>.set16 .edx (BitVec.ofNat 16 l.buffer)

/-- What the set-up of a read does to the registers: the buffer and the count are set, DI is counted
down, and the others but AX are left. -/
theorem readRegs_reg16 (r : Reg) (hax : r ≠ .eax) :
    (readRegs l c).reg16 r = if r = .edx then BitVec.ofNat 16 l.buffer
      else if r = .ecx then 4096#16 else if r = .edi then c.reg16 .edi - 1#16 else c.reg16 r := by
  unfold readRegs
  rw [set16_reg16, set16_reg16, setHigh8_reg16, if_neg hax, set16_reg16]

/-- The call of DOS reads a whole page, if calls succeed, the handle is in BX, and the file has
another page. -/
theorem int21_readRegs (hd : d.Succeed) (hebx : c.reg16 .ebx = c.env.file.handle)
    (hfile : c.env.file.pos.toNat + 4096 ≤ c.env.file.size.toNat) :
    int21 d (readRegs l c) = dosReadBytes 4096 (readRegs l c) := by
  have hah : (readRegs l c).high8 .eax = 0x3F := by
    unfold readRegs
    rw [high8_eq_reg16, set16_reg16, if_neg (by decide), set16_reg16, if_neg (by decide),
      ← high8_eq_reg16, setHigh8_high8]
    rfl
  have hbx : (readRegs l c).reg16 .ebx = (readRegs l c).env.file.handle := by
    rw [readRegs_reg16 .ebx (by decide)]
    exact hebx
  have hcx : ((readRegs l c).reg16 .ecx).toNat = 4096 := by
    rw [readRegs_reg16 .ecx (by decide)]
    rfl
  have hread := int21_read hah hd hbx (by
    rw [hcx]
    show 4096 ≤ c.env.file.size.toNat - c.env.file.pos.toNat
    omega)
  rw [hcx] at hread
  exact hread

/-- The page in the buffer, the handle on the stack and the function number of the move in AH. -/
def readDone (l : Labels) (c : Loader) : Loader :=
  (dosReadBytes 4096 (readRegs l c)).push16 (c.reg16 .ebx) |>.setHigh8 .eax 0x0B#8

/-- The read leaves the stack pointer where it is, so that the pushes of the move find the same
stack in each round. -/
theorem dosReadBytes_esp : (dosReadBytes 4096 (readRegs l c)).reg16 .esp = c.reg16 .esp := by
  rw [dosReadBytes_reg16, if_neg (by decide), readRegs_reg16 .esp (by decide)]
  rfl

/-- The read moves the position in the file on by a page and does nothing else to the
environment. -/
theorem readDone_env : (readDone l c).env =
    { c.env with file := { c.env.file with pos := c.env.file.pos + 4096#32 } } := by
  unfold readDone
  rw [setHigh8_env, push16_env, dosReadBytes_env]
  rfl

/-- Memory after the read and the push: the page is in the buffer, and the register is on the
stack. -/
theorem readDone_mem (h : Ready l c) : (readDone l c).mem = readAndPushed l c := by
  obtain ⟨hbuffer, hstack, hsp⟩ := h.bounds
  have hread : (dosReadBytes 4096 (readRegs l c)).mem =
      c.mem.splice (base c + BitVec.ofNat 32 l.buffer) 4096
        fun j => c.env.file.data (c.env.file.pos.toNat + j) := by
    rw [dosReadBytes_mem]
    show c.mem.splice (linear (c.seg .ds) ((readRegs l c).reg16 .edx)) 4096 _ = _
    rw [readRegs_reg16 .edx (by decide), if_pos rfl, linear_ofNat _ (by omega)]
    rfl
  unfold readDone readAndPushed
  rw [setHigh8_mem, push16_mem, dosReadBytes_esp, hread, ← h.placed.push_place]
  rfl

/-- The registers after the read, those apart that DOS answers in. -/
theorem readDone_reg16 (r : Reg) (hax : r ≠ .eax) (hcx : r ≠ .ecx) (hdx : r ≠ .edx) :
    (readDone l c).reg16 r = if r = .esp then c.reg16 .esp - 2#16
      else if r = .edi then c.reg16 .edi - 1#16 else c.reg16 r := by
  unfold readDone
  rw [setHigh8_reg16, if_neg hax, push16_reg16, dosReadBytes_esp, dosReadBytes_reg16, if_neg hax,
    readRegs_reg16 r hax, if_neg hdx, if_neg hcx]

/-- What the driver is asked to move is the page that was read, to the place the arguments name. -/
theorem moveOf_readDone (h : Ready l c) : moveOf (readDone l c) = ⟨l.args c, nextPage c⟩ := by
  obtain ⟨hbuffer, hstack, hsp⟩ := h.bounds
  have hargs : moveStructAt (readDone l c).mem
      (linear ((readDone l c).seg .ds) ((readDone l c).reg16 .esi)) = l.args c := by
    rw [readDone_reg16 .esi (by decide) (by decide) (by decide), if_neg (by decide),
      if_neg (by decide), h.esi, readDone_mem h]
    show moveStructAt _ (linear (c.seg .ds) _) = _
    rw [linear_ofNat _ (by omega)]
    exact moveStructAt_readAndPushed h
  unfold moveOf
  dsimp only
  rw [hargs, h.len, h.srcoff, h.srcseg, readDone_mem h, linear_ofNat _ (by omega)]
  refine congrArg (Move.mk (l.args c)) ?_
  refine List.map_congr_left fun j hj => ?_
  exact byte_readAndPushed h (List.mem_range.mp hj)

/-- The handle is on the stack while the driver is called, which answers in BX. -/
theorem readAndPushed_handle (l : Labels) (c : Loader) :
    (readAndPushed l c).read16 (base c + BitVec.ofNat 32 ((c.reg16 .esp).toNat - 2)) =
      c.reg16 .ebx := Mem.read16_write16_same _ _ _

/-- The page moved, and the handle back in BX. -/
def moveDone (d : Services) (l : Labels) (c : Loader) : Loader :=
  (xmsMove d (readDone l c)).pop16 .ebx

theorem moveDone_seg (hd : d.Succeed) : (moveDone d l c).seg = c.seg := by
  rw [moveDone, pop16_seg, xmsMove_seg hd]
  rfl

/-- The call of the driver stores nothing in the memory of the program: the page goes to extended
memory, which the moves of the environment are the record of. -/
theorem moveDone_mem (hd : d.Succeed) (h : Ready l c) :
    (moveDone d l c).mem = readAndPushed l c := by
  rw [moveDone, pop16_mem, xmsMove_mem hd, readDone_mem h]

/-- The page of this round is added to the moves, and the file is a page further. -/
theorem moveDone_env (hd : d.Succeed) (h : Ready l c) :
    (moveDone d l c).env = ⟨{ c.env.file with pos := c.env.file.pos + 4096#32 },
      c.env.moves ++ [⟨l.args c, nextPage c⟩], c.env.cr3⟩ := by
  rw [moveDone, pop16_env, xmsMove_env hd, moveOf_readDone h, readDone_env]

/-- The driver leaves the stack pointer where the handle was pushed. -/
theorem xmsMove_readDone_esp (hd : d.Succeed) :
    (xmsMove d (readDone l c)).reg16 .esp = c.reg16 .esp - 2#16 := by
  rw [xmsMove_reg16 _ hd, if_neg (by decide), if_neg (by decide),
    readDone_reg16 .esp (by decide) (by decide) (by decide), if_pos rfl]

/-- The handle stays in BX through a round, and every later call of DOS uses it. -/
theorem moveDone_ebx (hd : d.Succeed) (h : Ready l c) :
    (moveDone d l c).reg16 .ebx = c.reg16 .ebx := by
  have hplace : linear ((xmsMove d (readDone l c)).seg .ss)
      ((xmsMove d (readDone l c)).reg16 .esp) =
        base c + BitVec.ofNat 32 ((c.reg16 .esp).toNat - 2) := by
    rw [xmsMove_readDone_esp hd, xmsMove_seg hd]
    exact h.placed.push_place
  rw [moveDone, pop16_reg16, if_pos rfl, hplace, xmsMove_mem hd, readDone_mem h,
    readAndPushed_handle]

/-- No other register has changed, but for those the calls use and the count. -/
theorem moveDone_reg16 (hd : d.Succeed) {q : Reg} (hbx : q ≠ .ebx) (hax : q ≠ .eax)
    (hcx : q ≠ .ecx) (hdx : q ≠ .edx) :
    (moveDone d l c).reg16 q = if q = .edi then c.reg16 .edi - 1#16 else c.reg16 q := by
  rw [moveDone, pop16_reg16, if_neg hbx]
  by_cases hesp : q = .esp
  · rw [hesp, if_pos rfl, if_neg (by decide), xmsMove_readDone_esp hd, BitVec.sub_add_cancel]
  · rw [if_neg hesp, xmsMove_reg16 _ hd, if_neg hbx, if_neg hax, readDone_reg16 q hax hcx hdx,
      if_neg hesp]

/-- The end of a round: the place of the next page. -/
def advanced (l : Labels) (c : Loader) : Loader :=
  let desoff := linear (c.seg .ds) (BitVec.ofNat 16 (l.xmm + 12))
  c.store desoff (c.mem.read32 desoff + 4096#32)

/-- One round, when the calls answer, DI does not come to zero, and the file has another page: the
loader goes round with the destination of the move set on. -/
theorem loadLoop_eq_advanced (hd : d.Succeed) (h : Ready l c) (hdi : c.reg16 .edi ≠ 1#16)
    (hfile : c.env.file.pos.toNat + 4096 ≤ c.env.file.size.toNat) :
    loadLoop d l c = .inl (advanced l (moveDone d l c)) := by
  have hedi : (c.set16 .edi (c.reg16 .edi - 1#16)).reg16 .edi ≠ 0#16 := by
    rw [set16_reg16, if_pos rfl]
    intro hzero
    exact hdi (BitVec.sub_eq_iff_eq_add.mp hzero)
  have hregs : ((((c.set16 .edi (c.reg16 .edi - 1#16)).setHigh8 .eax 0x3F#8).set16 .ecx
      4096#16).set16 .edx (BitVec.ofNat 16 l.buffer)) = readRegs l c := rfl
  have hbx : (dosReadBytes 4096 (readRegs l c)).reg16 .ebx = c.reg16 .ebx := by
    rw [dosReadBytes_reg16, if_neg (by decide), readRegs_reg16 .ebx (by decide)]
    rfl
  have hread := int21_readRegs (l := l) hd h.ebx hfile
  obtain ⟨b, hb⟩ : ∃ b, b = readDone l c := ⟨_, rfl⟩
  have hdone : ((dosReadBytes 4096 (readRegs l c)).push16 (c.reg16 .ebx)).setHigh8 .eax 0x0B#8 =
      b := hb.symm
  have hal : (xmsMove d b).low8 .eax = 1#8 := by
    rw [low8_eq_reg16, xmsMove_reg16 _ hd, if_neg (by decide), if_pos rfl]
    rfl
  obtain ⟨p, hp⟩ : ∃ p, p = (xmsMove d b).pop16 .ebx := ⟨_, rfl⟩
  unfold loadLoop moveDone
  dsimp only
  rw [if_neg hedi, hregs, hread, dosReadBytes_carry, if_neg Bool.false_ne_true, hbx, hdone,
    if_pos hal, ← hb, ← hp]
  rfl

theorem advanced_seg : (advanced l c).seg = c.seg := store_seg _ _ _

theorem advanced_reg16 (q : Reg) : (advanced l c).reg16 q = c.reg16 q := store_reg16 _ _ _ _

/-- To set the destination on is a change of the argument block alone. -/
theorem advanced_env : (advanced l c).env = c.env := store_env _ _ _

/-- Of the arguments, only the destination is changed by a round: it goes on by a page. -/
theorem advanced_args (hd : d.Succeed) (h : Ready l c) :
    l.args (advanced l (moveDone d l c)) =
      { l.args c with desoff := (l.args c).desoff + 4096#32 } := by
  obtain ⟨hbuffer, hstack, hsp⟩ := h.bounds
  have hbase : base (advanced l (moveDone d l c)) = base c := by
    unfold base
    rw [advanced_seg, moveDone_seg hd]
  have hplace : linear ((moveDone d l c).seg .ds) (BitVec.ofNat 16 (l.xmm + 12)) =
      base c + BitVec.ofNat 32 l.xmm + 12#32 := by
    rw [moveDone_seg hd, linear_ofNat _ (by omega), BitVec.ofNat_add]
    exact (BitVec.add_assoc _ _ _).symm
  have hkept := moveStructAt_readAndPushed h
  unfold Labels.args at hkept ⊢
  rw [hbase]
  unfold advanced
  dsimp only
  rw [store_mem, hplace, moveStructAt_desoff, moveDone_mem hd h, hkept, ← hkept]
  rfl

/-- A round that is not the last, with all that it does to the machine as one structure. The
premises are those of `Loading`, in terms of the registers and the file. -/
theorem loadLoop_round (hd : d.Succeed) (h : Ready l c) (hdi : c.reg16 .edi ≠ 1#16)
    (hfile : c.env.file.pos.toNat + 4096 ≤ c.env.file.size.toNat) :
    ∃ c', loadLoop d l c = .inl c' ∧ Round l c c' := by
  refine ⟨_, loadLoop_eq_advanced hd h hdi hfile, ?_⟩
  have hargs := advanced_args hd h
  have hseg : (advanced l (moveDone d l c)).seg = c.seg := by
    rw [advanced_seg, moveDone_seg hd]
  have henv := moveDone_env hd h
  have hready : Ready l (advanced l (moveDone d l c)) := by
    refine ⟨⟨?_, ?_, ?_⟩, ?_, ?_, ?_, ?_, ?_⟩
    · rw [hseg]
      exact h.placed.stack
    · rw [advanced_reg16, moveDone_reg16 hd (by decide) (by decide) (by decide) (by decide)]
      exact h.placed.room
    · rw [hseg]
      exact h.placed.conventional
    · rw [advanced_reg16, moveDone_ebx hd h, advanced_env, henv]
      exact h.ebx
    · rw [advanced_reg16, moveDone_reg16 hd (by decide) (by decide) (by decide) (by decide)]
      exact h.esi
    · rw [hargs]
      exact h.len
    · rw [hargs]
      exact h.srcoff
    · rw [hargs, hseg]
      exact h.srcseg
  refine ⟨hready, ?_, ?_, ?_, hargs, ?_⟩
  · rw [hseg]
  · rw [advanced_reg16, moveDone_reg16 hd (by decide) (by decide) (by decide) (by decide),
      if_pos rfl]
  · rw [advanced_env, henv]
  · rw [advanced_env, henv]

end Round

/-! ## The loop -/

/-- A page of the file, and the place for it. -/
def page (l : Labels) (c : Loader) (k : Nat) : Move where
  args := { l.args c with desoff := (l.args c).desoff + BitVec.ofNat 32 (4096 * k) }
  bytes := (List.range 4096).map fun j => c.env.file.data (4096 * k + j)

/-- The head of the loop, with `k` of `n` pages copied since it was first entered in `c₀`. -/
structure Loading (l : Labels) (c₀ : Loader) (n k : Nat) (c : Loader) : Prop where
  ready : Ready l c
  edi : c.reg16 .edi = BitVec.ofNat 16 (n - k)
  file : c.env.file = { c₀.env.file with pos := BitVec.ofNat 32 (4096 * k) }
  args : l.args c = { l.args c₀ with desoff := (l.args c₀).desoff + BitVec.ofNat 32 (4096 * k) }
  moves : c.env.moves = (List.range k).map (page l c₀)

section Loop

variable {d : Services} {l : Labels} {c₀ c : Loader} {n k : Nat}

/-- The step of the loop. If `k` pages have been moved and more than one is left, a round moves page
`k` to its place and the loader goes round. The premise `hk` is strict because DI is decremented
before it is tested: the last page has no round that moves it. -/
theorem Loading.round (hd : d.Succeed) (h : Loading l c₀ n k c) (hk : k + 1 < n) (hn : n < 2 ^ 16)
    (hsize : c₀.env.file.size = BitVec.ofNat 32 (4096 * n)) :
    ∃ c', loadLoop d l c = .inl c' ∧ Loading l c₀ n (k + 1) c' := by
  have hpos : c.env.file.pos.toNat = 4096 * k := by
    rw [h.file, BitVec.toNat_ofNat]
    omega
  have hend : c.env.file.size.toNat = 4096 * n := by
    rw [h.file]
    show c₀.env.file.size.toNat = _
    rw [hsize, BitVec.toNat_ofNat]
    omega
  have hedi : c.reg16 .edi ≠ 1#16 := by
    rw [h.edi]
    exact ofNat_ne (by omega) (by decide) (by omega)
  obtain ⟨c', hloop, hround⟩ := loadLoop_round hd h.ready hedi (by omega)
  have hnext : (4096 * (k + 1)) = 4096 * k + 4096 := Nat.mul_succ 4096 k
  refine ⟨c', hloop, hround.ready, ?_, ?_, ?_, ?_⟩
  · rw [hround.edi, h.edi]
    apply BitVec.eq_of_toNat_eq
    rw [BitVec.toNat_sub, BitVec.toNat_ofNat, BitVec.toNat_ofNat, BitVec.toNat_ofNat]
    omega
  · rw [hround.file, h.file, hnext, BitVec.ofNat_add]
  · rw [hround.args, h.args, hnext, BitVec.ofNat_add, ← BitVec.add_assoc]
  · rw [hround.moves, h.moves, List.range_succ, List.map_append]
    refine congrArg (_ ++ ·) ?_
    refine congrArg (fun v => [v]) ?_
    unfold page nextPage
    rw [h.args, hpos, h.file]

/-- The last round is left before its page is read. So many moves have been made as there are pages
less one. -/
theorem Loading.last (h : Loading l c₀ n (n - 1) c) (hn : 0 < n) :
    ∃ c', loadLoop d l c = .inr (.loaded c') ∧
      c'.env.moves = (List.range (n - 1)).map (page l c₀) := by
  have hedi : (c.set16 .edi (c.reg16 .edi - 1#16)).reg16 .edi = 0#16 := by
    have hone : n - (n - 1) = 1 := by omega
    rw [set16_reg16, if_pos rfl, h.edi, hone]
    rfl
  obtain ⟨e, he⟩ : ∃ e, e = c.set16 .edi (c.reg16 .edi - 1#16) := ⟨_, rfl⟩
  have hclose : int21 d (e.setHigh8 .eax 0x3E#8) = (e.setHigh8 .eax 0x3E#8).setCarry false := by
    refine int21_close (setHigh8_high8 _ _ _) ?_
    rw [setHigh8_reg16, if_neg (by decide), he, set16_reg16, if_neg (by decide)]
    exact h.ready.ebx
  refine ⟨(e.setHigh8 .eax 0x3E#8).setCarry false, ?_, ?_⟩
  · unfold loadLoop
    dsimp only
    rw [if_pos hedi, ← he, hclose]
  · rw [setCarry_env, setHigh8_env, he, set16_env]
    exact h.moves

/-- The loop ends, and has copied every page but the last. That is by induction on the pages that
are left, with `Loading` as the invariant. -/
theorem loadLoop_leaves (hd : d.Succeed) (h : Loading l c₀ n 0 c₀) (hpos : 0 < n)
    (hn : n < 2 ^ 16) (hsize : c₀.env.file.size = BitVec.ofNat 32 (4096 * n)) :
    ∃ c', Loop.Leaves (loadLoop d l) c₀ (.loaded c') ∧
      c'.env.moves = (List.range (n - 1)).map (page l c₀) := by
  let Post := fun o => ∃ c', o = Outcome.loaded c' ∧
    c'.env.moves = (List.range (n - 1)).map (page l c₀)
  have hround : ∀ k c, k < n - 1 → Loading l c₀ n k c →
      ∃ c', loadLoop d l c = .inl c' ∧ Loading l c₀ n (k + 1) c' :=
    fun k c hk hc => hc.round hd (by omega) hn hsize
  have hlast : ∀ c, Loading l c₀ n (n - 1) c → ∃ o, loadLoop d l c = .inr o ∧ Post o := by
    intro c hc
    obtain ⟨c', hloop, hmoves⟩ := Loading.last (d := d) hc hpos
    exact ⟨_, hloop, c', rfl, hmoves⟩
  obtain ⟨o, hleaves, c', rfl, hmoves⟩ := Loop.Leaves.of_countup _ Post hround hlast h
  exact ⟨c', hleaves, hmoves⟩

end Loop

/-! ## Up to the loop -/

/-- The loader as it comes to `LoadKernel`, with an image of `n` pages. -/
structure LoadEntry (l : Labels) where
  c : Loader
  placed : l.Placed c
  n : Nat
  pos : 0 < n
  lt : n < 2 ^ 16
  size : c.env.file.size = BitVec.ofNat 32 (4096 * n)
  len : (l.args c).len = 4096
  srchan : (l.args c).srchan = 0
  moves : c.env.moves = []

section Entry

variable {d : Services} {l : Labels} (hd : d.Succeed) (e : LoadEntry l)

/-- The length of the file, shifted down by a page, is the count of pages. It fits a word, since
there are less than 65536. -/
theorem pageCount {n : Nat} {size : DWORD} (hsize : size = BitVec.ofNat 32 (4096 * n)) :
    ((size.extractLsb' 16 16 ++ size.setWidth 16) >>> 12).setWidth 16 = BitVec.ofNat 16 n := by
  have hwhole : size.extractLsb' 16 16 ++ size.setWidth 16 = size := by
    apply BitVec.eq_of_getLsbD_eq
    intro i hi
    rw [BitVec.getLsbD_append, BitVec.getLsbD_extractLsb', BitVec.getLsbD_setWidth]
    by_cases hlow : i < 16
    · simp [hlow]
    · simp [hlow, show i - 16 < 16 by omega, show 16 + (i - 16) = i by omega]
  rw [hwhole, hsize]
  apply BitVec.eq_of_toNat_eq
  rw [BitVec.toNat_setWidth, BitVec.toNat_ushiftRight, BitVec.toNat_ofNat, BitVec.toNat_ofNat,
    Nat.shiftRight_eq_div_pow]
  omega

/-- `int 21h` with AX and with CX:DX zero: the file pointer is set by the method in AL. -/
def seekRegs (method : WORD) (c : Loader) : Loader :=
  c.set16 .eax method |>.set16 .ecx 0#16 |>.set16 .edx 0#16

/-- A seek asks for offset 0 from the beginning or from the end, in CX:DX, and keeps BX. -/
theorem seekRegs_reg16 (method : WORD) (c : Loader) (q : Reg) :
    (seekRegs method c).reg16 q = if q = .edx then 0#16 else if q = .ecx then 0#16
      else if q = .eax then method else c.reg16 q := by
  unfold seekRegs
  rw [set16_reg16, set16_reg16, set16_reg16]

/-- What DOS takes from the registers of a seek is the method in AL and an offset of zero. -/
theorem seekRegs_argument (method : WORD) (c : Loader) :
    (seekRegs method c).low8 .eax = method.setWidth 8 ∧
      (seekRegs method c).reg16 .ecx ++ (seekRegs method c).reg16 .edx = 0#32 := by
  refine ⟨?_, ?_⟩
  · rw [low8_eq_reg16, seekRegs_reg16]
    rfl
  · have hcx : (seekRegs method c).reg16 .ecx = 0#16 := seekRegs_reg16 method c .ecx
    have hdx : (seekRegs method c).reg16 .edx = 0#16 := seekRegs_reg16 method c .edx
    rw [hcx, hdx]
    decide

/-- The seek to the end answers the length of the file. -/
theorem seekTarget_end (c : Loader) :
    seekTarget (seekRegs 0x4202#16 c) = some c.env.file.size := by
  obtain ⟨hal, hoff⟩ := seekRegs_argument 0x4202#16 c
  unfold seekTarget
  dsimp only
  rw [hal, hoff, if_neg (by decide), if_neg (by decide), if_pos (by decide), BitVec.add_zero]
  rfl

/-- The seek to the beginning goes back to offset 0. -/
theorem seekTarget_start (c : Loader) : seekTarget (seekRegs 0x4200#16 c) = some 0#32 := by
  obtain ⟨hal, hoff⟩ := seekRegs_argument 0x4200#16 c
  unfold seekTarget
  dsimp only
  rw [hal, hoff, if_pos (by decide)]

/-- A call that has moved the file pointer. -/
structure Sought (c c' : Loader) (pos : DWORD) : Prop where
  seg : c'.seg = c.seg
  mem : c'.mem = c.mem
  env : c'.env = { c.env with file := { c.env.file with pos := pos } }
  edx : c'.reg16 .edx = pos.extractLsb' 16 16
  eax : c'.reg16 .eax = pos.setWidth 16
  other : ∀ q, q ≠ .eax → q ≠ .ecx → q ≠ .edx → c'.reg16 q = c.reg16 q

/-- A seek that DOS knows the handle and the method of leaves the position in DX:AX and in the file,
and all else alone. -/
theorem sought {method : WORD} {c : Loader} {pos : DWORD} (hmethod : method.extractLsb' 8 8 = 0x42)
    (hbx : c.reg16 .ebx = c.env.file.handle) (hpos : seekTarget (seekRegs method c) = some pos) :
    Sought c (int21 d (seekRegs method c)) pos := by
  have hah : (seekRegs method c).high8 .eax = 0x42 := by
    rw [high8_eq_reg16, seekRegs_reg16]
    exact hmethod
  have hhandle : (seekRegs method c).reg16 .ebx = (seekRegs method c).env.file.handle := by
    rw [seekRegs_reg16]
    exact hbx
  rw [int21_seek hah hhandle hpos]
  refine ⟨rfl, rfl, rfl, ?_, ?_, ?_⟩
  · rw [setPos_reg16, setCarry_reg16, set16_reg16, if_neg (by decide), set16_reg16, if_pos rfl]
  · rw [setPos_reg16, setCarry_reg16, set16_reg16, if_pos rfl]
  · intro q hax hcx hdx
    rw [setPos_reg16, setCarry_reg16, set16_reg16, if_neg hax, set16_reg16, if_neg hdx,
      seekRegs_reg16, if_neg hdx, if_neg hcx, if_neg hax]

/-- The open, with calls succeeding: the carry is clear, the handle is in AX, and the file is at its
beginning. -/
theorem opened (hd : d.Succeed) (c : Loader) :
    let opened := int21 d (c.set16 .eax 0x3D00#16 |>.set16 .edx (BitVec.ofNat 16 l.path))
    opened.carry = false ∧ opened.seg = c.seg ∧ opened.mem = c.mem ∧
      opened.env = { c.env with file := { c.env.file with pos := 0 } } ∧
      opened.reg16 .eax = c.env.file.handle ∧ opened.reg16 .esp = c.reg16 .esp := by
  intro opened
  have hah : (c.set16 .eax 0x3D00#16 |>.set16 .edx (BitVec.ofNat 16 l.path)).high8 .eax = 0x3D := by
    rw [high8_eq_reg16, set16_reg16, if_neg (by decide), set16_reg16, if_pos rfl]
    decide
  have hopen : opened = _ := int21_open hah hd
  rw [hopen]
  refine ⟨carry_setCarry _ _, rfl, rfl, rfl, ?_, ?_⟩
  · rw [setPos_reg16, setCarry_reg16, set16_reg16, if_pos rfl]
    rfl
  · rw [setPos_reg16, setCarry_reg16, set16_reg16, set16_reg16, set16_reg16]
    rfl

/-- The file open, and its handle in BX. -/
def fileOpened (d : Services) (l : Labels) (c : Loader) : Loader :=
  let c := int21 d (c.set16 .eax 0x3D00#16 |>.set16 .edx (BitVec.ofNat 16 l.path))
  c.set16 .ebx (c.reg16 .eax)

/-- The seek to the end has left the length in DX:AX, and the shift the pages in AX. -/
def pagesCounted (d : Services) (c : Loader) : Loader :=
  let c := int21 d (seekRegs 0x4202#16 c)
  c.set16 .eax (((c.reg16 .edx ++ c.reg16 .eax) >>> 12).setWidth 16)

/-- The count in DI, and the file pointer at the start of the file. -/
def rewound (d : Services) (c : Loader) : Loader :=
  int21 d (seekRegs 0x4200#16 (c.set16 .edi (c.reg16 .eax)))

/-- The argument structure has its source, and SI its place. -/
def sourceSet (l : Labels) (c : Loader) : Loader :=
  c.store16 (linear (c.seg .ds) (BitVec.ofNat 16 (l.xmm + 6))) (BitVec.ofNat 16 l.buffer)
    |>.store16 (linear (c.seg .ds) (BitVec.ofNat 16 (l.xmm + 8))) (c.seg .ds)
    |>.set16 .esi (BitVec.ofNat 16 l.xmm)

/-- What the calls before the loop leave: the file pointer and the count are set, and of the
registers the two stack registers and BX are kept. -/
structure Prepared (c c' : Loader) (pos : DWORD) : Prop where
  seg : c'.seg = c.seg
  mem : c'.mem = c.mem
  env : c'.env = { c.env with file := { c.env.file with pos := pos } }
  ebx : c'.reg16 .ebx = c.env.file.handle
  esp : c'.reg16 .esp = c.reg16 .esp

/-- The file that was opened is the one whose handle is in BX. -/
theorem Prepared.handle {c c' : Loader} {pos : DWORD} (h : Prepared c c' pos) :
    c'.reg16 .ebx = c'.env.file.handle := by
  rw [h.ebx, h.env]

/-- The open leaves the handle in BX and the file at its beginning. -/
theorem fileOpened_prepared (hd : d.Succeed) (c : Loader) :
    Prepared c (fileOpened d l c) 0 := by
  obtain ⟨_, hseg, hmem, henv, hax, hsp⟩ := opened (l := l) hd c
  unfold fileOpened
  refine ⟨?_, ?_, ?_, ?_, ?_⟩
  · rw [set16_seg, hseg]
  · rw [set16_mem, hmem]
  · rw [set16_env, henv]
  · rw [set16_reg16, if_pos rfl, hax]
  · rw [set16_reg16, if_neg (by decide), hsp]

/-- The length is asked for by a seek to the end, which leaves the file there. -/
theorem pagesCounted_prepared {c c' : Loader} {pos : DWORD} (h : Prepared c c' pos) :
    Prepared c (pagesCounted d c') c.env.file.size := by
  have hsize : c'.env.file.size = c.env.file.size := by rw [h.env]
  have hend := sought (d := d) (by decide) h.handle (seekTarget_end c')
  unfold pagesCounted
  refine ⟨?_, ?_, ?_, ?_, ?_⟩
  · rw [set16_seg, hend.seg, h.seg]
  · rw [set16_mem, hend.mem, h.mem]
  · rw [set16_env, hend.env, hsize, h.env]
  · rw [set16_reg16, if_neg (by decide), hend.other _ (by decide) (by decide) (by decide), h.ebx]
  · rw [set16_reg16, if_neg (by decide), hend.other _ (by decide) (by decide) (by decide), h.esp]

/-- The length that DOS answers in DX:AX is shifted down to a count of pages. The premise is that
the length is that of `n` pages, not more. -/
theorem pagesCounted_eax {c : Loader} {n : Nat} (hbx : c.reg16 .ebx = c.env.file.handle)
    (hsize : c.env.file.size = BitVec.ofNat 32 (4096 * n)) :
    (pagesCounted d c).reg16 .eax = BitVec.ofNat 16 n := by
  have hend := sought (d := d) (by decide) hbx (seekTarget_end c)
  unfold pagesCounted
  rw [set16_reg16, if_pos rfl, hend.edx, hend.eax]
  exact pageCount hsize

/-- The second seek, seen from the machine after the count was moved to DI. Its premise is that the
handle is in BX. -/
theorem rewound_sought {c : Loader} (hbx : c.reg16 .ebx = c.env.file.handle) :
    Sought (c.set16 .edi (c.reg16 .eax)) (rewound d c) 0 := by
  refine sought (by decide) ?_ (seekTarget_start _)
  rw [set16_reg16, if_neg (by decide), set16_env]
  exact hbx

/-- The second seek takes the file back to its beginning, where the first page is read. -/
theorem rewound_prepared {c c' : Loader} {pos : DWORD} (h : Prepared c c' pos) :
    Prepared c (rewound d c') 0 := by
  have hstart := rewound_sought (d := d) h.handle
  refine ⟨?_, ?_, ?_, ?_, ?_⟩
  · rw [hstart.seg, set16_seg, h.seg]
  · rw [hstart.mem, set16_mem, h.mem]
  · rw [hstart.env, set16_env, h.env]
  · rw [hstart.other _ (by decide) (by decide) (by decide), set16_reg16, if_neg (by decide), h.ebx]
  · rw [hstart.other _ (by decide) (by decide) (by decide), set16_reg16, if_neg (by decide), h.esp]

/-- The count of pages is moved to DI, which counts the rounds. -/
theorem rewound_edi {c : Loader} (hbx : c.reg16 .ebx = c.env.file.handle) :
    (rewound d c).reg16 .edi = c.reg16 .eax := by
  rw [(rewound_sought hbx).other _ (by decide) (by decide) (by decide), set16_reg16, if_pos rfl]

theorem sourceSet_reg16 (c : Loader) (q : Reg) (hsi : q ≠ .esi) :
    (sourceSet l c).reg16 q = c.reg16 q := by
  unfold sourceSet
  rw [set16_reg16, if_neg hsi, store16_reg16, store16_reg16]

theorem sourceSet_seg (c : Loader) : (sourceSet l c).seg = c.seg := by
  unfold sourceSet
  rw [set16_seg, store16_seg, store16_seg]

theorem sourceSet_env (c : Loader) : (sourceSet l c).env = c.env := by
  unfold sourceSet
  rw [set16_env, store16_env, store16_env]

/-- Of the argument block, the source of the move alone is set before the loop. -/
theorem sourceSet_args (c : Loader) (hfit : l.xmm + 16 ≤ 2 ^ 16) :
    l.args (sourceSet l c) = { l.args c with
      srcoff := BitVec.ofNat 16 l.buffer
      srcseg := c.seg .ds } := by
  have hplace : ∀ k, k < 16 → linear (c.seg .ds) (BitVec.ofNat 16 (l.xmm + k)) =
      base c + BitVec.ofNat 32 l.xmm + BitVec.ofNat 32 k := by
    intro k hk
    rw [linear_ofNat _ (by omega), BitVec.ofNat_add]
    exact (BitVec.add_assoc _ _ _).symm
  have hmem : (sourceSet l c).mem = (c.mem.write16 (base c + BitVec.ofNat 32 l.xmm + 6#32)
      (BitVec.ofNat 16 l.buffer)).write16 (base c + BitVec.ofNat 32 l.xmm + 8#32)
        (c.seg .ds) := by
    unfold sourceSet
    rw [set16_mem, store16_mem, store16_mem, hplace 6 (by decide), hplace 8 (by decide)]
  have hbase : base (sourceSet l c) = base c := by
    unfold base
    rw [sourceSet_seg]
  unfold Labels.args
  rw [hbase, hmem]
  exact moveStructAt_srcoff c.mem _ _ _

/-- The argument structure is in the loader's segment. -/
theorem LoadEntry.xmm_fits (e : LoadEntry l) : l.xmm + 16 ≤ 2 ^ 16 := by
  obtain ⟨_, hxmm, hidMap, hroom, hsp⟩ := e.placed.bounds
  omega

/-- An image has at least a page, and the count of them fits a word, so that the word is not
zero. -/
theorem LoadEntry.pages_ne_zero (e : LoadEntry l) : BitVec.ofNat 16 e.n ≠ 0#16 :=
  ofNat_ne e.lt (by decide) (Nat.ne_of_gt e.pos)

/-- The arguments of the first move, from what the calls before the loop have left in memory. -/
theorem LoadEntry.sourceSet_args (e : LoadEntry l) {c : Loader} (h : Prepared e.c c 0) :
    l.args (sourceSet l c) = { l.args e.c with
      srcoff := BitVec.ofNat 16 l.buffer
      srcseg := e.c.seg .ds } := by
  have hkept : l.args c = l.args e.c := by
    unfold Labels.args base
    rw [h.mem, h.seg]
  rw [Boot.sourceSet_args c e.xmm_fits, hkept, h.seg]

/-- The loop is entered ready for a round: the labels are in place, the argument block names the
buffer, and the handle is in BX. -/
theorem LoadEntry.sourceSet_ready (e : LoadEntry l) {c : Loader} (h : Prepared e.c c 0) :
    Ready l (sourceSet l c) := by
  have hds : (sourceSet l c).seg = e.c.seg := by rw [sourceSet_seg, h.seg]
  have hargs := e.sourceSet_args h
  refine ⟨⟨?_, ?_, ?_⟩, ?_, ?_, ?_, ?_, ?_⟩
  · rw [hds]
    exact e.placed.stack
  · rw [sourceSet_reg16 _ _ (by decide), h.esp]
    exact e.placed.room
  · rw [hds]
    exact e.placed.conventional
  · rw [sourceSet_reg16 _ _ (by decide), h.ebx, sourceSet_env, h.env]
  · unfold sourceSet
    rw [set16_reg16, if_pos rfl]
  · rw [hargs]
    exact e.len
  · rw [hargs]
  · rw [hargs, hds]

/-- The machine that comes to the loop. -/
def loopStart (d : Services) (l : Labels) (c : Loader) : Loader :=
  sourceSet l (rewound d (pagesCounted d (fileOpened d l c)))

/-- The loader as its stages in order, with the error exit of the open. Every theorem about the
whole loader starts from here, and none unfolds it. -/
theorem loadKernel_eq (d : Services) (l : Labels) (rounds : Nat) (c : Loader) :
    loadKernel d l rounds c =
      let opened := int21 d (c.set16 .eax 0x3D00#16 |>.set16 .edx (BitVec.ofNat 16 l.path))
      let counted := pagesCounted d (fileOpened d l c)
      if opened.carry then some (.fileError opened)
      else if counted.reg16 .eax = 0#16 then some (.corrupted counted)
      else Loop.run (loadLoop d l) rounds (loopStart d l c) := rfl

/-- With every call answered, the count in AX is that of the pages of the image. -/
theorem pagesCounted_pages (hd : d.Succeed) (e : LoadEntry l) :
    (pagesCounted d (fileOpened d l e.c)).reg16 .eax = BitVec.ofNat 16 e.n := by
  have hopened := fileOpened_prepared (l := l) hd e.c
  refine pagesCounted_eax hopened.handle ?_
  rw [hopened.env]
  exact e.size

/-- The loader comes to its loop with no page copied and all of them to copy, which is where the
invariant starts. -/
theorem loopStart_loading (hd : d.Succeed) (e : LoadEntry l) :
    Loading l (loopStart d l e.c) e.n 0 (loopStart d l e.c) ∧
      (l.args (loopStart d l e.c)).desoff = (l.args e.c).desoff ∧
      (loopStart d l e.c).env = { e.c.env with file := { e.c.env.file with pos := 0 } } := by
  have hcounted := pagesCounted_prepared (d := d) (fileOpened_prepared (l := l) hd e.c)
  have hrewound := rewound_prepared (d := d) hcounted
  have hdi := (rewound_edi (d := d) hcounted.handle).trans (pagesCounted_pages hd e)
  have hargs := e.sourceSet_args hrewound
  have henv : (loopStart d l e.c).env =
      { e.c.env with file := { e.c.env.file with pos := 0 } } := by
    unfold loopStart
    rw [sourceSet_env, hrewound.env]
  refine ⟨⟨e.sourceSet_ready hrewound, ?_, ?_, ?_, ?_⟩, ?_, henv⟩
  · unfold loopStart
    rw [sourceSet_reg16 _ _ (by decide), hdi, Nat.sub_zero]
  · rw [henv]
    rfl
  · rw [Nat.mul_zero, BitVec.add_zero]
  · rw [henv]
    exact e.moves
  · unfold loopStart
    rw [hargs]

/-- With every call answered, the loader comes to its loop with the first page to copy. -/
theorem loadKernel_loop (hd : d.Succeed) (e : LoadEntry l) :
    ∃ c₀, (∀ rounds, loadKernel d l rounds e.c = Loop.run (loadLoop d l) rounds c₀) ∧
      Loading l c₀ e.n 0 c₀ ∧ (l.args c₀).desoff = (l.args e.c).desoff ∧
        c₀.env.file.data = e.c.env.file.data ∧ c₀.env.file.size = e.c.env.file.size := by
  obtain ⟨hloading, hdesoff, henv⟩ := loopStart_loading hd e
  refine ⟨loopStart d l e.c, fun rounds => ?_, hloading, hdesoff, ?_, ?_⟩
  · obtain ⟨hcarry, _⟩ := opened (l := l) hd e.c
    have hpages : (pagesCounted d (fileOpened d l e.c)).reg16 .eax ≠ 0#16 :=
      pagesCounted_pages hd e ▸ e.pages_ne_zero
    rw [loadKernel_eq]
    dsimp only
    rw [hcarry, if_neg Bool.false_ne_true, if_neg hpages]
  · rw [henv]
  · rw [henv]

end Entry

end OS90.Boot
