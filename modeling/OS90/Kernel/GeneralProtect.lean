import OS90.Kernel.RealModeCall

/-!
# The general protection handler

`GeneralProtect` of `Scheduler.c`: it calls the monitor when it is told that the fault is from V86
mode, and ends the process after that, whatever the monitor has done. `ScNukeCurrentProcess` has an
empty body, so that nothing is ended. Two of the monitor's branches are calls of their own, and are
carried out here: `ScVirtual86_Int` by a whole real-mode call, which does not come back, and
`ScOnExceptRetReenterCallerV86` from C code that writes to its own stack only.

`protectRound` is the whole of a general protection fault, from the instruction that takes it
through the stub and the handler to the stub's `iret`. From V86 mode there is one thing it can come
to, whichever selectors are refused and whatever the monitor finds: the program is at the
instruction again, with the flags it had (`protectRound_resumes`). The monitor steps on in a context
that begins one dword into the frame, and sets IF in the flags it runs with itself.
-/

namespace OS90.Kernel

open OS90.Ia32 OS90.Ia32.Cpu

/-- `ScNukeCurrentProcess`. Its body is empty. -/
def scNukeCurrentProcess (m : Machine) : Machine := m

section Handler

variable (refused : Selector → Bool) (layout : Layout) (idt : IDT) (rm : RealMode)
  (h path : QuietPath) (err : DWORD)

/-- The rest of `ScMonitorV86`, up to its return. `f` is the frame of the nested call, `path` the C
code around the other. -/
def Monitor.finish (f : Frame) (context : PTR) (m : Machine) : Monitor → Option Machine
  | .virtualInt vector => scVirtual86_Int refused layout idt rm h err f context vector m
  | .reenter m' => some (path.run layout m')
  | .done m' => some m'

/-- `GeneralProtect`. -/
def generalProtect (f : Frame) (vm : DWORD) (regs : PTR) (m : Machine) : Option Machine := do
  let m ← if vm ≠ 0 then
      (scMonitorV86 regs m).finish refused layout idt rm h path err f regs m
    else some m
  return scNukeCurrentProcess m

/-- A general protection fault with error code `fault`, up to the end of the stub's `iret`, if it
comes to that. -/
def protectRound (fault : DWORD) (f : Frame) (c : Machine) : Option Machine := do
  let (name, g) ← exceptEntry refused layout idt 13 fault c
  let m := g.push (layout.addr (.afterExcept name))
  let m ← generalProtect refused layout idt rm h path err f (g.gpr .eax) (g.gpr .edx) m
  return exceptLeave (m.drop 1)

end Handler

/-! ## What the handler leaves of the frame -/

section Frame

variable {refused : Selector → Bool} {layout : Layout} {idt : IDT} {rm : RealMode}
  {h path : QuietPath} {err fault : DWORD} {f : Frame} {c d m m' : Machine}

/-- The monitor is given a context that begins two dwords above its return address. Of the frame
from there to ESP0 it may change three dwords: the saved EDX, EDI and CS. -/
theorem Monitor.finish_stack (hesp0 : m.tss.esp0 = m.gpr .esp + 72#32)
    (hrun : (scMonitorV86 (m.gpr .esp + 8#32) m).finish refused layout (fillIDT layout idt) rm h
      path err f (m.gpr .esp + 8#32) m = some m') {i : Nat} (hi : i < 18) (hedx : i ≠ 4)
    (hedi : i ≠ 6) (hcs : i ≠ 10) : m'.stack i = m.stack i := by
  rcases scMonitorV86_branches m (m.gpr .esp + 8#32) with ⟨vector, hb⟩ | hb | ⟨v, hb⟩ | hb
  · -- the nested call has no end
    rw [hb] at hrun
    have hnone := scVirtual86_Int_none refused layout idt rm h err f (m.gpr .esp + 8#32) vector m
    exact absurd (hnone.symm.trans hrun) (by simp)
  · rw [hb] at hrun
    cases hrun
    exact path.run_stack layout hesp0 (by omega) hedx hedi
  · rw [hb] at hrun
    cases hrun
    have hplace : m.gpr .esp + 8#32 + tf RD.eip = m.gpr .esp + BitVec.ofNat 32 (4 * 10) := by
      show m.gpr .esp + 8#32 + 32#32 = m.gpr .esp + 40#32
      bv_omega
    unfold skipInstruction
    rw [hplace]
    exact (stack_store (setIF v m) _ (by omega) (by decide)).trans (if_neg hcs)
  · rw [hb] at hrun
    cases hrun
    rfl

/-- What the handler leaves of the saved frame, whatever the flag is that it is given: all but EDX,
EDI and CS. The premises are the place of the frame under ESP0 and that the handler comes back. -/
theorem generalProtect_stack (hesp0 : m.tss.esp0 = m.gpr .esp + 72#32) {vm : DWORD}
    (hrun : generalProtect refused layout (fillIDT layout idt) rm h path err f vm
      (m.gpr .esp + 8#32) m = some m') {i : Nat} (hi : i < 18) (hedx : i ≠ 4) (hedi : i ≠ 6)
    (hcs : i ≠ 10) : m'.stack i = m.stack i := by
  unfold generalProtect at hrun
  dsimp only at hrun
  by_cases hvm : vm ≠ 0
  · rw [if_pos hvm] at hrun
    obtain ⟨m'', hfinish, hr⟩ := Option.bind_eq_some_iff.mp hrun
    cases hr
    exact Monitor.finish_stack hesp0 hfinish hi hedx hedi hcs
  · rw [if_neg hvm] at hrun
    cases hrun
    rfl

/-- The stub calls the handler with the fault's frame under the return address, up to ESP0, and a
context that begins at its second dword. -/
theorem exceptEntry_handler (hvm : vm c.eflags = true) {name : ExceptName} {g : Machine}
    (hentry : exceptEntry refused layout (fillIDT layout idt) 13 fault c = some (name, g))
    (hm : m = g.push (layout.addr (.afterExcept name))) :
    g.gpr .edx = m.gpr .esp + 8#32 ∧ m.tss.esp0 = m.gpr .esp + 72#32 ∧ m.stack 9 = c.eip ∧
      m.stack 11 = c.eflags := by
  obtain ⟨gate, hgate⟩ : ∃ gate, gate = layout.gate (.lowExcept .generalProtect) := ⟨_, rfl⟩
  have hg : g = exceptCalled .generalProtect (c.deliver gate (some fault)) := by
    rw [hgate]
    exact (exceptEntry_called hentry).2
  obtain ⟨heflags, hesp0⟩ := faultFrame gate fault hvm
  have heip := faultFrame_eip gate fault (c := c)
  have hedx := exceptCalled_edx (c.deliver gate (some fault)) .generalProtect
  rw [← hg] at heflags hesp0 heip hedx
  have hesp : m.gpr .esp = g.gpr .esp - 4#32 := by
    rw [hm, push_gpr, if_pos rfl]
  have hstack : ∀ i < 17, m.stack (i + 1) = g.stack i := by
    intro i hi
    rw [hm]
    exact stack_push_succ g _ (by omega)
  refine ⟨?_, ?_, (hstack 8 (by decide)).trans heip, (hstack 10 (by decide)).trans heflags⟩
  · rw [hedx, hesp]
    bv_omega
  · rw [hesp, hm, push_tss, hesp0]
    bv_omega

/-- If a general protection fault from V86 mode comes to the stub's `iret`, the program goes on at
the instruction that faulted, with the flags it had. -/
theorem protectRound_resumes (hvm : vm c.eflags = true)
    (hd : protectRound refused layout (fillIDT layout idt) rm h path err fault f c = some d) :
    d.eip = c.eip ∧ d.eflags = c.eflags := by
  obtain ⟨⟨name, g⟩, hentry, hd⟩ := Option.bind_eq_some_iff.mp hd
  obtain ⟨m, hm⟩ : ∃ m, m = g.push (layout.addr (.afterExcept name)) := ⟨_, rfl⟩
  obtain ⟨hcontext, hesp0, heip, heflags⟩ := exceptEntry_handler hvm hentry hm
  dsimp only at hd
  rw [← hm, hcontext] at hd
  obtain ⟨m', hrun, hd⟩ := Option.bind_eq_some_iff.mp hd
  cases hd
  refine ⟨?_, ?_⟩
  · calc (exceptLeave (m'.drop 1)).eip
        = m'.stack (1 + (8 + 0)) := by
          unfold exceptLeave
          rw [iret_eip, restTrapRegs_stack]
          exact stack_drop _ _ _
      _ = m.stack 9 :=
          generalProtect_stack hesp0 hrun (by decide) (by decide) (by decide) (by decide)
      _ = c.eip := heip
  · calc (exceptLeave (m'.drop 1)).eflags
        = m'.stack (1 + (8 + 2)) := by
          unfold exceptLeave
          rw [iret_eflags, restTrapRegs_stack]
          exact stack_drop _ _ _
      _ = m.stack 11 :=
          generalProtect_stack hesp0 hrun (by decide) (by decide) (by decide) (by decide)
      _ = c.eflags := heflags

end Frame

end OS90.Kernel
