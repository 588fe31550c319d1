import OS90.Boot.LoadKernel

/-!
# What the loader leaves alone

`Frame S c c'` is that a stretch of the loader keeps the segments, the stack pointer and the
direction flag, and of memory all but the offsets `S` in its own segment. It composes, so that the
frame of `LoadKernel` is that of its calls and of a round of its loop. None of this depends on
which calls succeed.

The offsets are of the segment and not of memory. A caller then has to compare numbers below 65536,
and the arithmetic of addresses is done once, in the lemmas about a single store. `Keeps` adds that
the file is the same, apart from the position in it.

A stretch may have a stack of another type of state behind it, and so the two machines of a frame
may have different environments: this is how the start of the program, which knows the driver, and
the loader, which knows the file, are put one after the other.
-/

namespace OS90.Boot

open OS90.Ia32 OS90.Ia32.Cpu OS90.Kernel

structure Frame {σ τ : Type} (S : Nat → Prop) (c : Cpu σ) (c' : Cpu τ) : Prop where
  seg : c'.seg = c.seg
  esp : c'.reg16 .esp = c.reg16 .esp
  df : c'.df = c.df
  mem : ∀ x, ¬ S (x - linear (c.seg .ds) 0#16).toNat → c'.mem x = c.mem x

namespace Frame

variable {σ τ υ : Type} {S T : Nat → Prop} {c : Cpu σ} {c' : Cpu τ} {c'' : Cpu υ}

/-- Nothing that happens leaves everything alone. -/
theorem refl (S : Nat → Prop) (c : Cpu σ) : Frame S c c := ⟨rfl, rfl, rfl, fun _ _ => rfl⟩

/-- Two stretches one after the other leave alone what each of them does. The offsets of the second
are taken in the segment of the first, which is the same. -/
theorem trans (h : Frame S c c') (h' : Frame S c' c'') : Frame S c c'' := by
  refine ⟨h'.seg.trans h.seg, h'.esp.trans h.esp, h'.df.trans h.df, fun x hx => ?_⟩
  rw [h'.mem x (by rw [h.seg]; exact hx), h.mem x hx]

/-- A frame that changes less than is allowed is a frame with what is allowed. -/
theorem mono (h : Frame S c c') (hST : ∀ j, S j → T j) : Frame T c c' :=
  ⟨h.seg, h.esp, h.df, fun x hx => h.mem x fun hS => hx (hST _ hS)⟩

/-- A byte of the segment that is not among the offsets `S` reads as before. This is what the
premise of every later reading comes down to. -/
theorem byte (h : Frame S c c') {j : Nat} (hj : j < 2 ^ 32) (hS : ¬ S j) :
    c'.mem.byte (linear (c.seg .ds) 0#16) j = c.mem.byte (linear (c.seg .ds) 0#16) j := by
  refine h.mem _ ?_
  rw [Mem.add_sub_cancel_toNat _ hj]
  exact hS

/-- A dword that lies apart from what the stretch may change reads as before it. Both premises are
about offsets, so that a caller needs no arithmetic of addresses. -/
theorem read32 (h : Frame S c c') {j : Nat} (hj : j + 4 ≤ 2 ^ 32) (hS : ∀ i < 4, ¬ S (j + i)) :
    c'.mem.read32 (linear (c.seg .ds) 0#16 + BitVec.ofNat 32 j) =
      c.mem.read32 (linear (c.seg .ds) 0#16 + BitVec.ofNat 32 j) := by
  have hbyte : ∀ i < 4, c'.mem.byte (linear (c.seg .ds) 0#16) (j + i) =
      c.mem.byte (linear (c.seg .ds) 0#16) (j + i) := fun i hi => h.byte (by omega) (hS i hi)
  rw [Mem.read32_eq_byte, Mem.read32_eq_byte, Mem.byte_add, Mem.byte_add, Mem.byte_add,
    Mem.byte_add, Mem.byte_add, Mem.byte_add, Mem.byte_add, Mem.byte_add, hbyte 3 (by decide),
    hbyte 2 (by decide), hbyte 1 (by decide), hbyte 0 (by decide)]

/-- The same for a word. -/
theorem read16 (h : Frame S c c') {j : Nat} (hj : j + 2 ≤ 2 ^ 32) (hS : ∀ i < 2, ¬ S (j + i)) :
    c'.mem.read16 (linear (c.seg .ds) 0#16 + BitVec.ofNat 32 j) =
      c.mem.read16 (linear (c.seg .ds) 0#16 + BitVec.ofNat 32 j) := by
  have hlow : c'.mem.byte (linear (c.seg .ds) 0#16) j = c.mem.byte (linear (c.seg .ds) 0#16) j :=
    h.byte (by omega) (hS 0 (by decide))
  have hhigh : c'.mem.byte (linear (c.seg .ds) 0#16) (j + 1) =
      c.mem.byte (linear (c.seg .ds) 0#16) (j + 1) := h.byte (by omega) (hS 1 (by decide))
  rw [Mem.read16_add, Mem.read16_add, hlow, hhigh]

/-- A step that keeps those three and writes one range of the segment has every frame the range is
in. -/
theorem of_within {lo n : Nat} (hseg : c'.seg = c.seg) (hesp : c'.reg16 .esp = c.reg16 .esp)
    (hdf : c'.df = c.df)
    (hmem : Mem.Within (linear (c.seg .ds) 0#16 + BitVec.ofNat 32 lo) n c.mem c'.mem)
    (hlo : lo < 2 ^ 16) (hn : n ≤ 2 ^ 16) (hS : ∀ j, lo ≤ j → j < lo + n → S j) :
    Frame S c c' := by
  refine ⟨hseg, hesp, hdf, fun x hx => hmem x ?_⟩
  by_contra hnear
  refine hx (hS _ ?_ ?_)
  · bv_omega
  · bv_omega

/-- A step that writes no memory has any frame, if it keeps the segments, the stack pointer and the
direction flag. -/
theorem of_mem_eq (hseg : c'.seg = c.seg) (hesp : c'.reg16 .esp = c.reg16 .esp)
    (hdf : c'.df = c.df) (hmem : c'.mem = c.mem) : Frame S c c' :=
  ⟨hseg, hesp, hdf, fun _ _ => by rw [hmem]⟩

/-! ## Instructions -/

section Instructions

variable {r : Reg} {v : BitVec 16} {a : BitVec 8} {off : Nat}

/-- A register other than ESP is free: the frame speaks of the stack pointer alone. -/
theorem set16 (hr : .esp ≠ r) : Frame S c (c.set16 r v) :=
  of_mem_eq rfl ((set16_reg16 c r .esp v).trans (if_neg hr)) rfl rfl

theorem setHigh8 (hr : .esp ≠ r) : Frame S c (c.setHigh8 r a) := set16 hr

theorem setLow8 (hr : .esp ≠ r) : Frame S c (c.setLow8 r a) := set16 hr

theorem df_setCarry (c : Cpu σ) (b : Bool) : (c.setCarry b).df = c.df := by
  have hset : (1#32 <<< 0).getLsbD 10 = false := by decide
  have hclear : (~~~(1#32 <<< 0)).getLsbD 10 = true := by decide
  unfold Cpu.setCarry Cpu.df withFlag
  cases b
  · show (c.eflags &&& ~~~(1#32 <<< 0)).getLsbD 10 = c.eflags.getLsbD 10
    rw [BitVec.getLsbD_and, hclear, Bool.and_true]
  · show (c.eflags ||| 1#32 <<< 0).getLsbD 10 = c.eflags.getLsbD 10
    rw [BitVec.getLsbD_or, hset, Bool.or_false]

/-- The carry is free, as the frame speaks of the direction flag alone. -/
theorem setCarry (b : Bool) : Frame S c (c.setCarry b) :=
  of_mem_eq rfl rfl (df_setCarry c b) rfl

/-- A word that is stored among the offsets of the frame. The premise that it ends within the
segment keeps the store from wrapping to its beginning. -/
theorem store16 (hoff : off + 2 ≤ 2 ^ 16) (hS : ∀ j, off ≤ j → j < off + 2 → S j) :
    Frame S c (c.store16 (linear (c.seg .ds) (BitVec.ofNat 16 off)) v) := by
  refine of_within rfl rfl rfl ?_ (by omega) (by decide) hS
  rw [← linear_ofNat _ (by omega)]
  exact Mem.splice_within c.mem _ 2 fun i => v.extractLsb' (8 * i) 8

theorem add16 (hr : .esp ≠ r) : Frame S c (c.add16 r v) := (set16 hr).trans (setCarry _)

theorem adc16 (hr : .esp ≠ r) : Frame S c (c.adc16 r v) := (set16 hr).trans (setCarry _)

theorem sub16 (hr : .esp ≠ r) : Frame S c (c.sub16 r v) := (set16 hr).trans (setCarry _)

theorem sbb16 (hr : .esp ≠ r) : Frame S c (c.sbb16 r v) := (set16 hr).trans (setCarry _)

theorem and16 (hr : .esp ≠ r) : Frame S c (c.and16 r v) := (set16 hr).trans (setCarry _)

/-- The same for a dword. -/
theorem store {w : Word} (hoff : off + 4 ≤ 2 ^ 16) (hS : ∀ j, off ≤ j → j < off + 4 → S j) :
    Frame S c (c.store (linear (c.seg .ds) (BitVec.ofNat 16 off)) w) := by
  refine of_within rfl rfl rfl ?_ (by omega) (by decide) hS
  rw [← linear_ofNat _ (by omega)]
  exact Mem.write32_within _ _ _

/-- A stretch between a push and its pop. The word that is pushed has to be among the offsets of the
frame, and SS has to be DS for it to be in the segment. -/
theorem push_pop (hss : c.seg .ss = c.seg .ds) (hsp : 2 ≤ (c.reg16 .esp).toNat)
    (hS : ∀ j, (c.reg16 .esp).toNat - 2 ≤ j → j < (c.reg16 .esp).toNat → S j) (hr : .esp ≠ r)
    (h : Frame S (c.push16 v) c') : Frame S c (c'.pop16 r) := by
  have hlt := (c.reg16 .esp).isLt
  refine ⟨h.seg, ?_, h.df, fun x hx => ?_⟩
  · rw [pop16_reg16, if_neg hr, if_pos rfl, h.esp, push16_reg16, if_pos rfl]
    exact BitVec.sub_add_cancel _ _
  · rw [pop16_mem, h.mem x hx, push16_mem, linear_push16 hsp, hss]
    refine Mem.splice_within _ _ _ _ x ?_
    by_contra hnear
    refine hx (hS _ ?_ ?_)
    · bv_omega
    · bv_omega

/-- The same between a `pusha` and its `popa`, for a stretch that writes nothing itself. The
premises are those of the eight words on the stack. -/
theorem pusha_popa {c' : Cpu τ} (hss : c.seg .ss = c.seg .ds) (hsp : 16 ≤ (c.reg16 .esp).toNat)
    (hS : ∀ j, (c.reg16 .esp).toNat - 16 ≤ j → j < (c.reg16 .esp).toNat → S j)
    (hseg : c'.seg = c.seg) (hesp : c'.reg16 .esp = c.reg16 .esp - 16#16) (hdf : c'.df = c.df)
    (hmem : c'.mem = c.pusha.mem) : Frame S c c'.popa := by
  have hlt := (c.reg16 .esp).isLt
  have hpushed := pusha_within hsp
  rw [hss] at hpushed
  have hesp' := popa_pusha_reg16 hsp (congrFun hseg .ss) hesp hmem .esp
  refine of_within (n := 16) hseg hesp' hdf ?_ (by omega) (by decide) fun j hlo hhi =>
    hS j hlo (by omega)
  rw [popa_mem, hmem]
  exact hpushed

end Instructions

end Frame

/-! ## The calls -/

/-- What `LoadKernel` writes: the source and the destination of the moves, the buffer and the
stack. -/
def scratch (l : Labels) (sp j : Nat) : Prop :=
  (l.xmm + 6 ≤ j ∧ j < l.xmm + 16) ∨ (l.buffer ≤ j ∧ j < l.buffer + 4096) ∨ (sp - 64 ≤ j ∧ j < sp)

/-- A stretch of the loader that keeps CR3 too. -/
structure Keeps (S : Nat → Prop) (c c' : Loader) : Prop where
  frame : Frame S c c'
  cr3 : c'.env.cr3 = c.env.cr3

section Calls

variable {S : Nat → Prop} {d : Services} {c c' c'' : Loader}

/-- Two stretches that keep the file and their frame keep both together. -/
theorem Keeps.trans (h : Keeps S c c') (h' : Keeps S c' c'') : Keeps S c c'' :=
  ⟨h.frame.trans h'.frame, h'.cr3.trans h.cr3⟩

/-- What has a frame and does not touch the environment keeps the file. -/
theorem Keeps.of_frame (h : Frame S c c') (henv : c'.env = c.env) : Keeps S c c' :=
  ⟨h, by rw [henv]⟩

theorem Keeps.set16 {r : Reg} {v : BitVec 16} (hr : .esp ≠ r) : Keeps S c (c.set16 r v) :=
  .of_frame (.set16 hr) rfl

theorem Keeps.setHigh8 {r : Reg} {v : BitVec 8} (hr : .esp ≠ r) : Keeps S c (c.setHigh8 r v) :=
  .set16 hr

theorem Keeps.setLow8 {r : Reg} {v : BitVec 8} (hr : .esp ≠ r) : Keeps S c (c.setLow8 r v) :=
  .set16 hr

theorem Keeps.setCarry (b : Bool) : Keeps S c (c.setCarry b) := .of_frame (.setCarry b) rfl

/-- A seek moves the position in the file, and `Keeps` leaves it out for that reason: the length,
the handle and the content are kept. -/
theorem Keeps.setPos (pos : DWORD) : Keeps S c (setPos pos c) :=
  ⟨.of_mem_eq rfl rfl rfl rfl, rfl⟩

/-- A call of DOS that fails writes AX and the carry only. -/
theorem dosFail_keeps (code : WORD) : Keeps S c (dosFail code c) :=
  (Keeps.set16 (by decide)).trans (.setCarry true)

/-- A read keeps all but the part of the segment it reads into, if that does not wrap around the
segment. -/
theorem dosReadBytes_keeps {n off : Nat} (hdx : c.reg16 .edx = BitVec.ofNat 16 off)
    (hfit : off + n ≤ 2 ^ 16) (hoff : off < 2 ^ 16) (hS : ∀ j, off ≤ j → j < off + n → S j) :
    Keeps S c (dosReadBytes n c) := by
  refine ⟨.of_within rfl ?_ ?_ ?_ hoff (by omega) hS, rfl⟩
  · rw [dosReadBytes_reg16, if_neg (by decide)]
  · exact Frame.df_setCarry (c.set16 .eax (BitVec.ofNat 16 n)) false
  · rw [dosReadBytes_mem, hdx, ← linear_ofNat _ hoff]
    exact Mem.splice_within _ _ _ _

/-- Whatever is asked of DOS, it writes to nothing but the buffer that is named in the registers.
Failed calls are included. -/
theorem int21_keeps {off n : Nat} (hfit : off + n ≤ 2 ^ 16) (hoff : off < 2 ^ 16)
    (hS : ∀ j, off ≤ j → j < off + n → S j)
    (hread : c.high8 .eax = 0x3F →
      c.reg16 .edx = BitVec.ofNat 16 off ∧ (c.reg16 .ecx).toNat ≤ n) :
    Keeps S c (int21 d c) := by
  unfold int21
  by_cases hopen : c.high8 .eax = 0x3D
  · rw [if_pos hopen]
    unfold dosOpen
    cases d.openError c with
    | some code => exact dosFail_keeps code
    | none => exact ((Keeps.set16 (by decide)).trans (.setCarry false)).trans (.setPos 0)
  rw [if_neg hopen]
  by_cases hclose : c.high8 .eax = 0x3E
  · rw [if_pos hclose]
    unfold dosClose
    split
    · exact .setCarry false
    · exact dosFail_keeps 6
  rw [if_neg hclose]
  by_cases hah : c.high8 .eax = 0x3F
  · obtain ⟨hdx, hcx⟩ := hread hah
    rw [if_pos hah]
    unfold dosRead
    dsimp only
    split
    · cases d.readError c with
      | some code => exact dosFail_keeps code
      | none => exact dosReadBytes_keeps hdx (by omega) hoff fun j hlo hhi => hS j hlo (by omega)
    · exact dosFail_keeps 6
  rw [if_neg hah]
  by_cases hseek : c.high8 .eax = 0x42
  · rw [if_pos hseek]
    unfold dosSeek
    split
    · cases seekTarget c with
      | some pos =>
        exact (((Keeps.set16 (by decide)).trans (.set16 (by decide))).trans
          (.setCarry false)).trans (.setPos pos)
      | none => exact dosFail_keeps 1
    · exact dosFail_keeps 6
  · rw [if_neg hseek]
    exact dosFail_keeps 1

/-- The driver writes nothing of the memory that the program runs in, whether the move is granted or
not. -/
theorem xmsMove_keeps : Keeps S c (xmsMove d c) := by
  unfold xmsMove
  cases d.moveError c with
  | some code => exact (Keeps.set16 (by decide)).trans (.setLow8 (by decide))
  | none =>
    have hregs := (Keeps.set16 (S := S) (c := c) (r := .eax) (v := 1) (by decide)).trans
      (Keeps.set16 (r := .ebx) (v := d.bx c) (by decide))
    exact ⟨⟨hregs.frame.seg, hregs.frame.esp, hregs.frame.df, hregs.frame.mem⟩, hregs.cr3⟩

end Calls

/-! ## `LoadKernel` -/

section Load

variable {d : Services} {l : Labels} {c c' : Loader}

/-- The labels stay where the program has them, as the segments and the stack pointer do. -/
theorem Keeps.placed {S : Nat → Prop} (h : Keeps S c c') (hplaced : l.Placed c) :
    l.Placed c' := by
  refine ⟨?_, ?_, ?_⟩
  · rw [h.frame.seg]
    exact hplaced.stack
  · rw [h.frame.esp]
    exact hplaced.room
  · rw [h.frame.seg]
    exact hplaced.conventional

/-- A call of DOS keeps all but the scratch. If it is a read, the premise is that it reads a page
into the buffer. -/
theorem int21_keeps_scratch (hplaced : l.Placed c) {sp : Nat}
    (hread : c.high8 .eax = 0x3F → c.reg16 .edx = BitVec.ofNat 16 l.buffer ∧
      c.reg16 .ecx = 4096#16) :
    Keeps (scratch l sp) c (int21 d c) := by
  obtain ⟨_, _, _, hroom, hsp⟩ := hplaced.bounds
  have hbuffer : ∀ j, l.buffer ≤ j → j < l.buffer + 4096 → scratch l sp j :=
    fun j hlo hhi => .inr (.inl ⟨hlo, hhi⟩)
  refine int21_keeps (by omega) (by omega) hbuffer fun hah => ?_
  obtain ⟨hdx, hcx⟩ := hread hah
  refine ⟨hdx, ?_⟩
  rw [hcx]
  decide

/-- The move of a page, with the handle saved around it on the stack, writes only there. -/
theorem move_keeps (hplaced : l.Placed c) {sp : Nat} (hsp : (c.reg16 .esp).toNat = sp) :
    Keeps (scratch l sp) c
      ((xmsMove d (c.push16 (c.reg16 .ebx) |>.setHigh8 .eax 0x0B#8)).pop16 .ebx) := by
  obtain ⟨_, _, _, hroom, _⟩ := hplaced.bounds
  have hmove : Keeps (scratch l sp) (c.push16 (c.reg16 .ebx))
      (xmsMove d (c.push16 (c.reg16 .ebx) |>.setHigh8 .eax 0x0B#8)) :=
    (Keeps.setHigh8 (by decide)).trans xmsMove_keeps
  refine ⟨.push_pop hplaced.stack (by omega) (fun j hlo hhi => ?_) (by decide) hmove.frame,
    hmove.cr3⟩
  exact .inr (.inr ⟨by omega, by omega⟩)

/-- The store of `XMM.desoff` stays within the scratch of the loader, since the labels are apart
from each other. -/
theorem desoff_keeps (hplaced : l.Placed c) {sp : Nat} (v : DWORD) :
    Keeps (scratch l sp) c
      (c.store (linear (c.seg .ds) (BitVec.ofNat 16 (l.xmm + 12))) v) := by
  obtain ⟨_, hxmm, hidMap, hroom, hlt⟩ := hplaced.bounds
  exact .of_frame (.store (by omega) fun j hlo hhi => .inl ⟨by omega, by omega⟩) rfl

/-- The registers of a read are set up without a store. -/
theorem readRegs_keeps {S : Nat → Prop} : Keeps S c (readRegs l c) :=
  (((Keeps.set16 (by decide)).trans (.setHigh8 (by decide))).trans (.set16 (by decide))).trans
    (.set16 (by decide))

/-- The read goes to the buffer and asks for a page. -/
theorem readRegs_read : (readRegs l c).reg16 .edx = BitVec.ofNat 16 l.buffer ∧
    (readRegs l c).reg16 .ecx = 4096#16 := by
  rw [readRegs_reg16 .edx (by decide), readRegs_reg16 .ecx (by decide)]
  exact ⟨rfl, rfl⟩

/-- A round keeps all but the scratch, both when the loop goes on and when it is left by the regular
exit, whatever the calls in it answer. -/
theorem loadLoop_keeps (hplaced : l.Placed c) {sp : Nat} (hsp : (c.reg16 .esp).toNat = sp) :
    (loadLoop d l c = .inl c' → Keeps (scratch l sp) c c') ∧
      (loadLoop d l c = .inr (.loaded c') → Keeps (scratch l sp) c c') := by
  have hregs : Keeps (scratch l sp) c (readRegs l c) := readRegs_keeps
  have hread : Keeps (scratch l sp) c (int21 d (readRegs l c)) :=
    hregs.trans (int21_keeps_scratch (hregs.placed hplaced) fun _ => readRegs_read)
  have hmove := hread.trans (move_keeps (d := d) (hread.placed hplaced) (by
    rw [hread.frame.esp]
    exact hsp))
  have hround := fun v => hmove.trans (desoff_keeps (hmove.placed hplaced) v)
  have hclose : Keeps (scratch l sp) c
      (int21 d ((c.set16 .edi (c.reg16 .edi - 1#16)).setHigh8 .eax 0x3E#8)) := by
    have hdec : Keeps (scratch l sp) c
        ((c.set16 .edi (c.reg16 .edi - 1#16)).setHigh8 .eax 0x3E#8) :=
      (Keeps.set16 (by decide)).trans (.setHigh8 (by decide))
    refine hdec.trans (int21_keeps_scratch (hdec.placed hplaced) fun hah => ?_)
    rw [setHigh8_high8] at hah
    exact absurd hah (by decide)
  unfold readRegs at hround
  unfold loadLoop
  dsimp only
  split
  · refine ⟨nofun, fun h => ?_⟩
    cases h
    exact hclose
  · split
    · exact ⟨nofun, nofun⟩
    · split
      · refine ⟨fun h => ?_, nofun⟩
        cases h
        exact hround _
      · exact ⟨nofun, nofun⟩

/-- A seek keeps all but the scratch. The premise excludes the one number for which DOS would write
to memory. -/
theorem seek_keeps (hplaced : l.Placed c) {sp : Nat} {method : WORD}
    (hmethod : method.extractLsb' 8 8 ≠ 0x3F#8) :
    Keeps (scratch l sp) c (int21 d (seekRegs method c)) := by
  have hregs : Keeps (scratch l sp) c (seekRegs method c) :=
    ((Keeps.set16 (by decide)).trans (.set16 (by decide))).trans (.set16 (by decide))
  refine hregs.trans (int21_keeps_scratch (hregs.placed hplaced) fun hah => absurd ?_ hmethod)
  rw [high8_eq_reg16, seekRegs_reg16] at hah
  exact hah

/-- The address of the buffer is stored in the argument block of the move, which is scratch. -/
theorem sourceSet_keeps (hplaced : l.Placed c) {sp : Nat} :
    Keeps (scratch l sp) c (sourceSet l c) := by
  obtain ⟨_, hxmm, hidMap, hroom, hlt⟩ := hplaced.bounds
  refine .of_frame ?_ (sourceSet_env c)
  have hoffset : Frame (scratch l sp) c (c.store16 (linear (c.seg .ds)
      (BitVec.ofNat 16 (l.xmm + 6))) (BitVec.ofNat 16 l.buffer)) :=
    .store16 (by omega) fun j hlo hhi => .inl ⟨by omega, by omega⟩
  refine hoffset.trans (Frame.trans ?_ (.set16 (by decide)))
  · exact .store16 (by omega) fun j hlo hhi => .inl ⟨by omega, by omega⟩

/-- `LoadKernel` writes the two places, its buffer and its stack, and no other byte of memory,
whatever DOS and the driver answer. -/
theorem loadKernel_keeps (hplaced : l.Placed c) {rounds : Nat}
    (h : loadKernel d l rounds c = some (.loaded c')) :
    Keeps (scratch l (c.reg16 .esp).toNat) c c' := by
  obtain ⟨sp, hsp⟩ : ∃ sp, sp = (c.reg16 .esp).toNat := ⟨_, rfl⟩
  rw [← hsp]
  have hopened : Keeps (scratch l sp) c (fileOpened d l c) := by
    have hregs : Keeps (scratch l sp) c
        (c.set16 .eax 0x3D00#16 |>.set16 .edx (BitVec.ofNat 16 l.path)) :=
      (Keeps.set16 (by decide)).trans (.set16 (by decide))
    refine (hregs.trans (int21_keeps_scratch (hregs.placed hplaced) fun hah => ?_)).trans
      (.set16 (by decide))
    rw [high8_eq_reg16, set16_reg16, if_neg (by decide), set16_reg16, if_pos rfl] at hah
    exact absurd hah (by decide)
  have hcounted : Keeps (scratch l sp) c (pagesCounted d (fileOpened d l c)) :=
    hopened.trans ((seek_keeps (hopened.placed hplaced) (by decide)).trans (.set16 (by decide)))
  have hrewound : Keeps (scratch l sp) c (rewound d (pagesCounted d (fileOpened d l c))) := by
    have hedi : Keeps (scratch l sp) c ((pagesCounted d (fileOpened d l c)).set16 .edi
        ((pagesCounted d (fileOpened d l c)).reg16 .eax)) := hcounted.trans (.set16 (by decide))
    exact hedi.trans (seek_keeps (hedi.placed hplaced) (by decide))
  have hset := hrewound.trans (sourceSet_keeps (hrewound.placed hplaced))
  have hrun : Loop.run (loadLoop d l) rounds (loopStart d l c) = some (.loaded c') := by
    rw [loadKernel_eq] at h
    dsimp only at h
    split at h
    · cases h
    · split at h
      · cases h
      · exact h
  refine Loop.run_of_invariant (Keeps (scratch l sp) c)
    (fun o => ∀ c', o = .loaded c' → Keeps (scratch l sp) c c') (fun s s' hs hround => ?_)
    (fun s o hs hlast => ?_) hset hrun c' rfl
  · exact hs.trans ((loadLoop_keeps (hs.placed hplaced) (by rw [hs.frame.esp, hsp])).1 hround)
  · rintro c' rfl
    exact hs.trans ((loadLoop_keeps (hs.placed hplaced) (by rw [hs.frame.esp, hsp])).2 hlast)

end Load

end OS90.Boot
