import OS90.Kernel.Vm86

/-!
# The V86 monitor

`V86.c`: `ScVirtual86_Int`, which runs a real-mode interrupt for the kernel, and `ScMonitorV86`,
which emulates the instruction a V86 program faulted on. `ScVirtual86_Int` is its two halves, the
one up to the call of `ScEnterV86` and the one after that call has returned. The monitor answers
what it does next (`Monitor`), because two of its branches leave V86 mode or enter it again.

A context is read and written at its address in memory, entry by entry, so that the code that has
the address can change it while a handler runs. The variables that the kernel's code shares are the
environment of the machine (`Statics`).

Where the monitor is called from, with which frame and which flag, is not part of it. The handler of
the general protection fault is in a module of its own, and the laws compose the two with the stub
that the processor comes to.
-/

namespace OS90.Kernel

open OS90.Ia32 OS90.Ia32.Cpu

def TSS_ALLOW_OFFSET : WORD := 104

def TSS_DENY_OFFSET : WORD := 104 + 8192

/-- `IaIOPB_Allow()`. -/
def iaIOPB_Allow (m : Machine) : Machine :=
  { m with tss := { m.tss with iobpOff := TSS_ALLOW_OFFSET } }

/-- `IaIOPB_Deny()` is the same assignment. -/
def iaIOPB_Deny (m : Machine) : Machine :=
  { m with tss := { m.tss with iobpOff := TSS_ALLOW_OFFSET } }

/-- `MK_LP`. -/
def mkLP (seg off : WORD) : PTR := seg.setWidth 32 * 16#32 + off.setWidth 32

/-- `C_memcpy` of a register context. -/
def copyContext (dst src : PTR) (m : Machine) : Machine :=
  (List.finRange 17).foldl (fun m i => m.store (dst + tf i) (m.mem.read32 (src + tf i))) m

/-- `real_mode_ivt[vector]`: the interrupt vector table is at address zero. -/
def realModeIvt (m : Machine) (vector : BYTE) : DWORD := m.mem.read32 (vector.setWidth 32 * 4#32)

/-- `ScVirtual86_Int` up to its call of `ScEnterV86`, with its local array at `newContext`. -/
def virtual86IntBegin (newContext context : PTR) (vector : BYTE) (m : Machine) : Machine :=
  let m := { m with env := { m.env with supervisorCall := 1 } }
  let m := copyContext newContext context m
  let m := m.store (newContext + tf RD.cs) (realModeIvt m vector >>> 16)
  let m := m.store (newContext + tf RD.eip) (realModeIvt m vector &&& 0xFFFF#32)
  iaIOPB_Allow m

/-- `ScVirtual86_Int` after the call. -/
def virtual86IntEnd (m : Machine) : Machine := iaIOPB_Deny m

/-! ## Emulation -/

/-- What the monitor comes to. -/
inductive Monitor where
  /-- It calls `ScVirtual86_Int` with the faulting context, and then returns. -/
  | virtualInt (vector : BYTE)
  /-- It calls `ScOnExceptRetReenterCallerV86`, and then returns. -/
  | reenter (m : Machine)
  /-- It returns. -/
  | done (m : Machine)

/-- The instruction a context points to. -/
def faultingInstruction (context : PTR) (m : Machine) : PTR :=
  let regs := contextAt m.mem context
  mkLP ((regs RD.cs).setWidth 16) ((regs RD.eip).setWidth 16)

/-- `IntsOff()` and `IntsOn()`, in the monitor itself. -/
def setIF (v : Bool) (m : Machine) : Machine := { m with eflags := withFlag m.eflags 9 v }

/-- `context[RD_EIP]++`. -/
def skipInstruction (context : PTR) (m : Machine) : Machine :=
  m.store (context + tf RD.eip) (contextAt m.mem context RD.eip + 1#32)

/-- `ScMonitorV86`. -/
def scMonitorV86 (context : PTR) (m : Machine) : Monitor :=
  let ins := faultingInstruction context m
  if m.mem ins = 0xCD#8 then .virtualInt (m.mem (ins + 1#32))
  else if m.env.supervisorCall ≠ 0 then
    if m.mem ins = 0xCF#8 then .reenter m
    else if m.mem ins = 0xFA#8 then .done (skipInstruction context (setIF false m))
    else if m.mem ins = 0xFB#8 then .done (skipInstruction context (setIF true m))
    else .done m
  else .done m

/-! ## Contexts in memory -/

/-- A context whose bytes are as they were is as it was. -/
theorem contextAt_congr {mem mem' : Mem} {context : PTR}
    (h : ∀ k < 68, mem' (context + BitVec.ofNat 32 k) = mem (context + BitVec.ofNat 32 k)) :
    contextAt mem' context = contextAt mem context := by
  funext i
  have hi := i.isLt
  have hbyte : ∀ j < 4, mem' (context + BitVec.ofNat 32 (4 * i.val) + BitVec.ofNat 32 j) =
      mem (context + BitVec.ofNat 32 (4 * i.val) + BitVec.ofNat 32 j) := by
    intro j hj
    rw [BitVec.add_assoc, ← BitVec.ofNat_add]
    exact h _ (by omega)
  have h₀ := hbyte 0 (by decide)
  rw [BitVec.add_zero] at h₀
  unfold contextAt Mem.read32
  rw [hbyte 3 (by decide), hbyte 2 (by decide), hbyte 1 (by decide), h₀]

/-- A store to a field of a context changes that field and no other. -/
theorem contextAt_store (m : Machine) (context : PTR) (i j : Fin 17) (v : DWORD) :
    contextAt (m.store (context + tf j) v).mem context i =
      if i = j then v else contextAt m.mem context i := by
  have hi := i.isLt
  have hj := j.isLt
  unfold contextAt
  rw [store_mem]
  have hwrite := stack_write v context m.mem (i := i.val) (j := j.val) (by omega) (by omega)
  simp only [Fin.val_inj] at hwrite
  exact hwrite

/-- A change apart from a context leaves all of its fields. -/
theorem contextAt_of_within {mem mem' : Mem} {context lo : PTR} {n : Nat}
    (h : Mem.Within lo n mem mem') (hapart : Mem.Apart context 68 lo n) :
    contextAt mem' context = contextAt mem context :=
  contextAt_congr fun k hk => h _ (hapart k hk)

/-! ## The supervisor flag -/

section Flag

variable (m : Machine)

@[simp] theorem copyContext_env (dst src : PTR) : (copyContext dst src m).env = m.env := by
  unfold copyContext
  induction List.finRange 17 generalizing m with
  | nil => rfl
  | cons i l ih =>
    rw [List.foldl_cons, ih]
    rfl

@[simp] theorem copyContext_eflags (dst src : PTR) :
    (copyContext dst src m).eflags = m.eflags := by
  unfold copyContext
  induction List.finRange 17 generalizing m with
  | nil => rfl
  | cons i l ih =>
    rw [List.foldl_cons, ih]
    rfl

@[simp] theorem iaIOPB_Allow_env : (iaIOPB_Allow m).env = m.env := rfl

@[simp] theorem iaIOPB_Allow_mem : (iaIOPB_Allow m).mem = m.mem := rfl

theorem virtual86IntBegin_env (newContext context : PTR) (vector : BYTE) :
    (virtual86IntBegin newContext context vector m).env = { m.env with supervisorCall := 1 } := by
  unfold virtual86IntBegin
  rw [iaIOPB_Allow_env, store_env, store_env, copyContext_env]

/-- Where the monitor has gone on from: its machine, if it has not called `ScVirtual86_Int`. -/
def Monitor.machine? : Monitor → Option Machine
  | .virtualInt _ => none
  | .reenter m => some m
  | .done m => some m

/-- What the monitor may come to, for every instruction: a nested interrupt, the way back to the
caller, an instruction that is skipped, or nothing. -/
theorem scMonitorV86_branches (context : PTR) :
    (∃ vector, scMonitorV86 context m = .virtualInt vector) ∨
    scMonitorV86 context m = .reenter m ∨
    (∃ v, scMonitorV86 context m = .done (skipInstruction context (setIF v m))) ∨
    scMonitorV86 context m = .done m := by
  unfold scMonitorV86
  dsimp only
  split
  · exact .inl ⟨_, rfl⟩
  · split
    · split
      · exact .inr (.inl rfl)
      · split
        · exact .inr (.inr (.inl ⟨false, rfl⟩))
        · split
          · exact .inr (.inr (.inl ⟨true, rfl⟩))
          · exact .inr (.inr (.inr rfl))
    · exact .inr (.inr (.inr rfl))

/-- Where the monitor comes to an end, it has not touched the variables or the task state segment.
That is what the invariants over runs need of it. -/
theorem scMonitorV86_keeps {context : PTR} {m' : Machine}
    (h : (scMonitorV86 context m).machine? = some m') : m'.env = m.env ∧ m'.tss = m.tss := by
  rcases scMonitorV86_branches m context with ⟨_, hb⟩ | hb | ⟨v, hb⟩ | hb
  · rw [hb] at h
    cases h
  · rw [hb] at h
    cases h
    exact ⟨rfl, rfl⟩
  · rw [hb] at h
    cases h
    exact ⟨store_env _ _ _, store_tss _ _ _⟩
  · rw [hb] at h
    cases h
    exact ⟨rfl, rfl⟩

end Flag

end OS90.Kernel
