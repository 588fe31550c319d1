import OS90.Kernel.IntrTrap

/-!
# Entering V86 mode and coming back

The two routines of `vm86.asm`. `ScEnterV86` saves the callee saved registers, points TSS.ESP0
below them, loads the context it is passed and returns into V86 mode with `iret`.
`ScOnExceptRetReenterCallerV86` is called inside the handler of an exception from V86 mode, and
copies the saved registers into the frame that the handler's stub will restore. Both run from
their first instruction to the last one before they leave.

The frame that `ScEnterV86` pushes is nine dwords, and `iret` takes it, as the processor does when
the frame's flags say V86 mode. ESP0 is where it pushes the frame of the next exception.

The way back writes into the frame that the stub will restore, which it finds below ESP0, and its
last three copies have one destination, as the source has it. What the stub's `iret` then comes to
is in the module about calls of real mode, for the stub is not part of these routines.
-/

namespace OS90.Kernel

open OS90.Ia32 OS90.Ia32.Cpu

/-- The offset of a field of `TF`. The structure has the fields of a register context, in order. -/
def tf (i : Fin 17) : DWORD := BitVec.ofNat 32 (4 * i.val)

def tfSize : DWORD := 68

/-- `push dword [a]`. -/
def pushMem (a : DWORD) (m : Machine) : Machine := m.push (m.mem.read32 a)

/-- The registers that are saved. -/
def pushSaved (m : Machine) : Machine :=
  m.pushf |>.pushReg .ebx |>.pushReg .esi |>.pushReg .edi |>.pushReg .ebp

/-- The saved registers, and ESP0 below them. -/
def enterSave (layout : Layout) (m : Machine) : Machine :=
  let m := pushSaved m
  let m := m.load .ebx (m.gpr .esp + 24#32)
  let m := m.set .eax (m.gpr .esp)
  let m := m.set .eax (m.gpr .eax - 4#32)
  m.call (layout.addr .afterSetESP0) setESP0

/-- The registers of the context but EBX, which points to it. -/
def enterLoad (m : Machine) : Machine :=
  let ebx := m.gpr .ebx
  m.load .eax (ebx + tf RD.eax) |>.load .ecx (ebx + tf RD.ecx) |>.load .edx (ebx + tf RD.edx)
    |>.load .esi (ebx + tf RD.esi) |>.load .edi (ebx + tf RD.edi) |>.load .ebp (ebx + tf RD.ebp)

/-- The frame for `iret`: the selectors and stack of the context, the flags of the kernel with the
VM bit, and the context's entry point. -/
def enterFrame (m : Machine) : Machine :=
  let ebx := m.gpr .ebx
  let m := pushMem (ebx + tf RD.gs) m
  let m := pushMem (ebx + tf RD.fs) m
  let m := pushMem (ebx + tf RD.ds) m
  let m := pushMem (ebx + tf RD.es) m
  let m := pushMem (ebx + tf RD.ss) m
  let m := pushMem (ebx + tf RD.esp) m
  let m := m.pushf
  let m := m.store (m.gpr .esp) (m.stack 0 ||| 1#32 <<< 17)
  let m := pushMem (ebx + tf RD.cs) m
  pushMem (ebx + tf RD.eip) m

/-- `ScEnterV86`. -/
def scEnterV86 (layout : Layout) (m : Machine) : Machine :=
  let m := enterFrame (enterLoad (enterSave layout m))
  iret (m.load .ebx (m.gpr .ebx + tf RD.ebx))

/-- `mov ecx,[eax+src]` and `mov [eax-4+(dst-TF._size)],ecx`. -/
def copySaved (src : DWORD) (dst : Fin 17) (m : Machine) : Machine :=
  let m := m.load .ecx (m.gpr .eax + src)
  m.store (m.gpr .eax - 4#32 + (tf dst - tfSize)) (m.gpr .ecx)

/-- ESP0 in EAX. -/
def findSaved (layout : Layout) (m : Machine) : Machine :=
  let m := m.call (layout.addr .afterGetESP0) getESP0
  m.load .esi (m.gpr .eax - 4#32)

/-- `ScOnExceptRetReenterCallerV86`. The last three copies have one destination. -/
def scOnExceptRetReenterCallerV86 (layout : Layout) (m : Machine) : Machine :=
  findSaved layout m |> copySaved 0 RD.ebp |> copySaved 4 RD.esi |> copySaved 8 RD.esi
    |> copySaved 12 RD.esi

/-! ## A call from entry to return -/

/-- The machine where a V86 execution ends in a fault: still in V86 mode, everything else of the
program's making. The kernel takes part in it, with the faults it has handled on the way and the
calls nested in this one, so that the task state segment and the variables may have changed too. -/
structure V86Exit where
  gpr : Reg → DWORD
  seg : Seg → Selector
  eip : DWORD
  eflags : DWORD
  mem : Mem → Mem
  tss : Tss → Tss
  env : Statics → Statics
  vm : vm eflags = true

/-- A program that ends at once, with all registers zero. -/
def V86Exit.zero : V86Exit where
  gpr _ := 0
  seg _ := 0
  eip := 0
  eflags := 1#32 <<< 17
  mem := id
  tss := id
  env := id
  vm := by decide

def V86Exit.fault (x : V86Exit) (m : Machine) : Machine where
  gpr := x.gpr
  seg := x.seg
  eip := x.eip
  eflags := x.eflags
  mem := x.mem m.mem
  tss := x.tss m.tss
  env := x.env m.env

/-- The C code of an exception handler around its call of `ScOnExceptRetReenterCallerV86`, with
`depth` dwords of stack between its own return address and the call. It leaves the page of stack
above itself alone. -/
structure HandlerPath where
  depth : Nat
  depth_lt : depth < 2 ^ 20
  before : Machine → Machine
  before_esp : ∀ m, (before m).gpr .esp = m.gpr .esp - BitVec.ofNat 32 (4 * depth)
  before_tss : ∀ m, (before m).tss = m.tss
  before_stack : ∀ m, ∀ i < 1024, (before m).stack (depth + i) = m.stack i
  after : Machine → Machine
  after_tss : ∀ m, (after m).tss = m.tss
  after_stack : ∀ m, ∀ i < 1024, (after m).stack i = m.stack (depth + i)

/-- A handler that calls the routine and returns. -/
def HandlerPath.direct : HandlerPath where
  depth := 0
  depth_lt := by decide
  before := id
  before_esp m := (BitVec.sub_zero _).symm
  before_tss _ := rfl
  before_stack m i _ := by rw [Nat.zero_add]; rfl
  after := id
  after_tss _ := rfl
  after_stack m i _ := by rw [Nat.zero_add]; rfl

def HandlerPath.run (layout : Layout) (h : HandlerPath) (m : Machine) : Machine :=
  h.after ((h.before m).call (layout.addr .afterReenter) (scOnExceptRetReenterCallerV86 layout))

/-- The machine after the handler and the stub's `iret`, from the call of the handler. -/
def reentered (layout : Layout) (h : HandlerPath) (f : Machine) : Machine :=
  exceptLeave (f.call (layout.addr (.afterExcept .generalProtect)) (h.run layout))

/-! ## What entering does -/

section Enter

variable (layout : Layout) (m : Machine)

/-- ESP0 is set six dwords below the return address, one below the words that are saved. -/
theorem enterSave_esp0 : (enterSave layout m).tss.esp0 = m.gpr .esp - 24#32 := by
  simp only [enterSave, pushSaved, Cpu.call, setESP0, drop, pushReg, pushf, Cpu.load, set_tss,
    push_gpr, set_gpr, if_true, reduceCtorEq, if_false]
  bv_omega

/-- Saving takes six dwords of stack, one of them for the call of `SetESP0`. -/
theorem enterSave_within :
    Mem.Within (m.gpr .esp - 24#32) 24 m.mem (enterSave layout m).mem := by
  have hsaved : Pushed 5 m (pushSaved m) :=
    (Pushed.refl m).push _ |>.push _ |>.push _ |>.push _ |>.push _
  have hcalled := hsaved.push (layout.addr .afterSetESP0)
  have hmem := hcalled.mem
  rw [hcalled.esp] at hmem
  exact hmem

/-- Five words are saved before V86 mode is entered. -/
theorem enterSave_esp : (enterSave layout m).gpr .esp = m.gpr .esp - 20#32 := by
  simp only [enterSave, pushSaved, Cpu.call, setESP0, drop, pushReg, pushf, Cpu.load, push_gpr,
    set_gpr, if_true, reduceCtorEq, if_false]
  bv_omega

/-- The frame for the way into V86 mode is nine dwords, all taken from the context but the flags. -/
theorem enterFrame_pushed : Pushed 9 m (enterFrame m) :=
  -- the seventh dword is the flags, which get their VM bit on the stack
  (Pushed.refl m).push _ |>.push _ |>.push _ |>.push _ |>.push _ |>.push _ |>.push _
    |>.store_top _ |>.push _ |>.push _

/-- Entering writes to the fourteen dwords below the return address and nowhere else. -/
theorem scEnterV86_within :
    Mem.Within (m.gpr .esp - 56#32) 56 m.mem (scEnterV86 layout m).mem := by
  have hframe := (enterFrame_pushed (enterLoad (enterSave layout m))).mem
  rw [(enterFrame_pushed _).esp] at hframe
  have hesp : (enterLoad (enterSave layout m)).gpr .esp = m.gpr .esp - 20#32 :=
    enterSave_esp layout m
  rw [hesp] at hframe
  have hmem : (scEnterV86 layout m).mem = (enterFrame (enterLoad (enterSave layout m))).mem := by
    unfold scEnterV86
    rw [iret_mem]
    rfl
  rw [hmem]
  refine ((enterSave_within layout m).mono ?_).trans (hframe.mono ?_)
  · bv_omega
  · bv_omega

theorem scEnterV86_tss : (scEnterV86 layout m).tss = (enterSave layout m).tss := by
  unfold scEnterV86
  rw [iret_tss]
  rfl

/-- The routine leaves with the flags of its caller, in V86 mode. Those in the context are not
used. -/
theorem scEnterV86_eflags : (scEnterV86 layout m).eflags = m.eflags ||| 1#32 <<< 17 := by
  unfold scEnterV86
  rw [iret_eflags, stack_load_of_ne _ (by decide)]
  unfold enterFrame pushMem
  dsimp only
  rw [stack_push_succ _ _ (i := 1) (by decide), stack_push_succ _ _ (i := 0) (by decide),
    stack_store_top]
  unfold pushf
  rw [stack_push_zero]
  rfl

/-- The entry ends in V86 mode, for it sets the flag in the frame itself. -/
theorem scEnterV86_vm : vm (scEnterV86 layout m).eflags = true := by
  rw [scEnterV86_eflags]
  simp [vm]

end Enter

/-! ## What a fault leaves on the stack -/

section FaultFrame

variable (g : Gate) {c : Machine} (err : DWORD)

/-- The frame of a fault from V86 mode, at the call of the C function: EFLAGS is ten dwords up, and
ESP0 seventeen. -/
theorem faultFrame (hvm : vm c.eflags = true) :
    let f := exceptCalled .generalProtect (c.deliver g (some err))
    f.stack 10 = c.eflags ∧ f.tss.esp0 = f.gpr .esp + 68#32 := by
  intro f
  constructor
  · show (exceptCalled .generalProtect (c.deliver g (some err))).stack (2 + 8) = c.eflags
    rw [exceptCalled_stack _ _ (by decide)]
    show ((c.deliver g (some err)).drop 1).stack 2 = c.eflags
    rw [stack_drop, deliver_stack_some g c err (i := 2) (by decide), pushFrame_eflags]
  · rw [exceptCalled_tss, deliver_tss, exceptCalled_esp]
    show c.tss.esp0 = ((c.deliver g (some err)).drop 1).gpr .esp - 32#32 + 68#32
    unfold drop
    rw [set_gpr, if_pos rfl, deliver_vm_esp g hvm]
    bv_omega

/-- On the stack of the handler, the instruction that has faulted is eight dwords up. -/
theorem faultFrame_eip :
    (exceptCalled .generalProtect (c.deliver g (some err))).stack 8 = c.eip := by
  show (exceptCalled .generalProtect (c.deliver g (some err))).stack (0 + 8) = c.eip
  rw [exceptCalled_stack _ _ (by decide)]
  show ((c.deliver g (some err)).drop 1).stack 0 = c.eip
  rw [stack_drop, deliver_stack_some g c err (i := 0) (by decide), pushFrame_eip]

end FaultFrame

/-! ## What coming back does -/

section Reenter

variable {layout : Layout} {m : Machine}

/-- Where a copy goes, when ESP0 is a place of the stack. -/
theorem copySaved_address {dst : Fin 17} {k : Nat} (a : DWORD) (hk : 18 ≤ k) :
    a + BitVec.ofNat 32 (4 * k) - 4#32 + (tf dst - tfSize) =
      a + BitVec.ofNat 32 (4 * (k - 18 + dst.val)) := by
  obtain ⟨j, rfl⟩ := Nat.exists_eq_add_of_le hk
  have hj : 18 + j - 18 + dst.val = j + dst.val := by omega
  rw [hj, Nat.mul_add, Nat.mul_add, BitVec.ofNat_add, BitVec.ofNat_add]
  unfold tf tfSize
  bv_omega

/-- A copy writes one dword of the stack, the field it is for in the frame below ESP0. -/
theorem copySaved_stack {src : DWORD} {dst : Fin 17} {k i : Nat}
    (heax : m.gpr .eax = m.gpr .esp + BitVec.ofNat 32 (4 * k)) (hk : 18 ≤ k) (hk' : k < 2 ^ 27)
    (hi : i < 2 ^ 27) (hne : i ≠ k - 18 + dst.val) :
    (copySaved src dst m).stack i = m.stack i := by
  have hdst := dst.isLt
  unfold copySaved
  dsimp only
  have haddress : (m.load .ecx (m.gpr .eax + src)).gpr .eax - 4#32 + (tf dst - tfSize) =
      (m.load .ecx (m.gpr .eax + src)).gpr .esp + BitVec.ofNat 32 (4 * (k - 18 + dst.val)) := by
    show m.gpr .eax - 4#32 + (tf dst - tfSize) = m.gpr .esp + _
    rw [heax, copySaved_address _ hk]
  rw [haddress, stack_store _ _ (by omega) (by omega), if_neg hne, stack_load_of_ne _ (by decide)]

/-- To copy a word of the context uses ECX. -/
theorem copySaved_gpr (src : DWORD) (dst : Fin 17) {r : Reg} (hr : r ≠ .ecx) :
    (copySaved src dst m).gpr r = m.gpr r := by
  unfold copySaved
  simp [Cpu.load, hr]

/-- The call that finds the saved registers returns to the same stack. -/
theorem findSaved_esp : (findSaved layout m).gpr .esp = m.gpr .esp := by
  simp only [findSaved, Cpu.load, Cpu.call, getESP0, drop, set_gpr, push_gpr, if_true,
    reduceCtorEq, if_false]
  bv_omega

/-- It answers ESP0, below which they were saved. -/
theorem findSaved_eax : (findSaved layout m).gpr .eax = m.tss.esp0 := rfl

/-- It leaves its return address below the stack and nothing else. -/
theorem findSaved_mem : (findSaved layout m).mem = (m.push (layout.addr .afterGetESP0)).mem := rfl

/-- The words of the stack are those from before. -/
theorem findSaved_stack {i : Nat} (hi : i < 2 ^ 28) :
    (findSaved layout m).stack i = m.stack i := by
  unfold findSaved
  rw [stack_load_of_ne _ (by decide)]
  exact stack_call m _ rfl rfl hi

/-- Of the stack above it the routine changes the two dwords that lie twelve and fourteen places
below ESP0. -/
theorem scOnExcept_stack {k i : Nat}
    (hesp0 : m.tss.esp0 = m.gpr .esp + BitVec.ofNat 32 (4 * k)) (hk : 18 ≤ k) (hk' : k < 2 ^ 27)
    (hi : i < 2 ^ 27) (hebp : i ≠ k - 12) (hesi : i ≠ k - 14) :
    (scOnExceptRetReenterCallerV86 layout m).stack i = m.stack i := by
  have heax : (findSaved layout m).gpr .eax =
      (findSaved layout m).gpr .esp + BitVec.ofNat 32 (4 * k) := by
    rw [findSaved_esp, findSaved_eax, hesp0]
  -- EAX and ESP are the same before each of the four copies
  have hcopy : ∀ {src dst} {n : Machine}, n.gpr .eax = n.gpr .esp + BitVec.ofNat 32 (4 * k) →
      (copySaved src dst n).gpr .eax =
        (copySaved src dst n).gpr .esp + BitVec.ofNat 32 (4 * k) := by
    intro src dst n h
    rw [copySaved_gpr _ _ (by decide), copySaved_gpr _ _ (by decide), h]
  have hesi' : i ≠ k - 18 + RD.esi.val := by
    show i ≠ k - 18 + 4
    omega
  have hebp' : i ≠ k - 18 + RD.ebp.val := by
    show i ≠ k - 18 + 6
    omega
  unfold scOnExceptRetReenterCallerV86
  rw [copySaved_stack (hcopy (hcopy (hcopy heax))) hk hk' hi hesi',
    copySaved_stack (hcopy (hcopy heax)) hk hk' hi hesi',
    copySaved_stack (hcopy heax) hk hk' hi hesi', copySaved_stack heax hk hk' hi hebp',
    findSaved_stack (by omega)]

/-- The routine returns with the stack as it was called. -/
theorem scOnExcept_esp :
    (scOnExceptRetReenterCallerV86 layout m).gpr .esp = m.gpr .esp := by
  unfold scOnExceptRetReenterCallerV86
  rw [copySaved_gpr _ _ (by decide), copySaved_gpr _ _ (by decide), copySaved_gpr _ _ (by decide),
    copySaved_gpr _ _ (by decide), findSaved_esp]

/-- ESI is left with the dword below ESP0, which the routine has taken its source from. -/
theorem scOnExcept_esi {k : Nat} (hesp0 : m.tss.esp0 = m.gpr .esp + BitVec.ofNat 32 (4 * k))
    (hk : 18 ≤ k) (hk' : k < 2 ^ 27) :
    (scOnExceptRetReenterCallerV86 layout m).gpr .esi = m.mem.read32 (m.tss.esp0 - 4#32) := by
  obtain ⟨j, rfl⟩ : ∃ j, k = j + 1 := ⟨k - 1, by omega⟩
  let p := m.push (layout.addr .afterGetESP0)
  have hesp : p.gpr .esp = m.gpr .esp - 4#32 := push_gpr _ _ _
  have hplace : m.tss.esp0 - 4#32 = m.gpr .esp + BitVec.ofNat 32 (4 * j) := by
    rw [hesp0, Nat.mul_add, BitVec.ofNat_add]
    bv_omega
  have hplace' : m.tss.esp0 - 4#32 = p.gpr .esp + BitVec.ofNat 32 (4 * (j + 1)) := by
    rw [hesp, hesp0]
    bv_omega
  have hread : p.stack (j + 1) = m.stack j := stack_push_succ m _ (by omega)
  unfold scOnExceptRetReenterCallerV86
  rw [copySaved_gpr _ _ (by decide), copySaved_gpr _ _ (by decide), copySaved_gpr _ _ (by decide),
    copySaved_gpr _ _ (by decide)]
  show p.mem.read32 (m.tss.esp0 - 4#32) = _
  unfold stack at hread
  rw [hplace', hread, ← hplace', hplace]

/-- Of the registers it uses three, and the others stay. -/
theorem scOnExcept_of_not_mem {r : Reg} (hr : r ∉ [Reg.eax, .ecx, .esi, .esp]) :
    (scOnExceptRetReenterCallerV86 layout m).gpr r = m.gpr r := by
  simp only [List.mem_cons, List.not_mem_nil, or_false, not_or] at hr
  obtain ⟨heax, hecx, hesi, hesp⟩ := hr
  unfold scOnExceptRetReenterCallerV86
  rw [copySaved_gpr _ _ hecx, copySaved_gpr _ _ hecx, copySaved_gpr _ _ hecx,
    copySaved_gpr _ _ hecx]
  simp [findSaved, Cpu.load, Cpu.call, getESP0, drop, heax, hesi, hesp]

/-- A handler around the routine, called with ESP0 above a frame of seventeen dwords: of the stack
it changes two dwords of the frame, the fourth and the sixth. -/
theorem HandlerPath.run_stack (layout : Layout) (h : HandlerPath) {i : Nat}
    (hesp0 : m.tss.esp0 = m.gpr .esp + 72#32) (hi : i < 1000) (hedx : i ≠ 4) (hedi : i ≠ 6) :
    (h.run layout m).stack i = m.stack i := by
  have hdepth := h.depth_lt
  let q := (h.before m).push (layout.addr .afterReenter)
  have hplace : q.tss.esp0 = q.gpr .esp + BitVec.ofNat 32 (4 * (h.depth + 19)) := by
    show (h.before m).tss.esp0 = (q.gpr .esp) + _
    rw [h.before_tss, push_gpr, if_pos rfl, h.before_esp, hesp0, Nat.mul_add, BitVec.ofNat_add]
    bv_omega
  calc (h.run layout m).stack i
      = (scOnExceptRetReenterCallerV86 layout q).stack (1 + (h.depth + i)) := by
        unfold HandlerPath.run
        rw [h.after_stack _ _ (by omega)]
        exact stack_drop _ _ _
    _ = q.stack (h.depth + i + 1) := by
        rw [Nat.add_comm 1]
        exact scOnExcept_stack hplace (by omega) (by omega) (by omega) (by omega) (by omega)
    _ = m.stack i := by
        rw [stack_push_succ _ _ (by omega), h.before_stack _ _ (by omega)]

/-- Coming back leaves the task state segment alone: ESP0 is not moved back. -/
theorem reentered_tss (layout : Layout) (h : HandlerPath) (m : Machine) :
    (reentered layout h m).tss = m.tss := by
  unfold reentered exceptLeave
  rw [iret_tss]
  show (h.run layout _).tss = m.tss
  unfold HandlerPath.run
  rw [h.after_tss]
  exact h.before_tss _

/-- The handler changes neither the EFLAGS in its frame nor what the `iret` will pop. -/
theorem reentered_eflags (layout : Layout) (h : HandlerPath) {f : Machine}
    (hesp0 : f.tss.esp0 = f.gpr .esp + 68#32) :
    (reentered layout h f).eflags = f.stack 10 := by
  let p := f.push (layout.addr (.afterExcept .generalProtect))
  have hplace : p.tss.esp0 = p.gpr .esp + 72#32 := by
    show f.tss.esp0 = p.gpr .esp + 72#32
    rw [push_gpr, if_pos rfl, hesp0]
    bv_omega
  calc (reentered layout h f).eflags
      = (h.run layout p).stack (1 + (8 + 2)) := by
        unfold reentered exceptLeave
        rw [iret_eflags, restTrapRegs_stack]
        exact stack_drop _ _ _
    _ = p.stack (10 + 1) := h.run_stack layout hplace (by decide) (by decide) (by decide)
    _ = f.stack 10 := stack_push_succ _ _ (by decide)

/-- So the stub of a fault from V86 mode goes back there. -/
theorem reentered_vm (layout : Layout) (h : HandlerPath) {c f : Machine} {err : DWORD}
    (hvm : vm c.eflags = true)
    (hf : f = exceptCalled (exceptName 13) (exceptStub layout 13 err c)) :
    vm (reentered layout h f).eflags = true := by
  have hframe : f = exceptCalled .generalProtect
      (c.deliver (layout.gate (.lowExcept .generalProtect)) (some err)) := hf
  obtain ⟨heflags, hesp0⟩ := faultFrame (layout.gate (.lowExcept .generalProtect)) err hvm
  rw [← hframe] at heflags hesp0
  rw [reentered_eflags layout h hesp0, heflags]
  exact hvm

end Reenter

end OS90.Kernel
