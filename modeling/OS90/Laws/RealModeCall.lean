import OS90.Kernel.Dpmi
import OS90.Kernel.V86Entry

/-!
# Real-mode calls

Four laws of a call of `ScVirtual86_Int`, in the order in which the call passes them. `EntryLaw` is
that the processor comes to the entry point of the vector in V86 mode, with the registers of the
caller's context, and that the context itself is as the caller made it. `DosStackLaw` is that a DOS
call made for a process starts on the real-mode stack of its control block. `ReenterLaw` is that the
fault at the end of the real-mode program brings the processor back to the caller of `ScEnterV86`,
in ring 0 and with the registers the calling convention promises. `CallLaw` is that the caller then
finds the program's registers and flags in its context, and `AllocateLaw` that
`MmAllocateDosMemory` answers what DOS has answered.

The first holds for every call (`entryLaw`). The second holds just for the processes whose two words
are the same, as `ScInitDosCallTrapFrame` gives each of the two entries the other's word
(`dosStackLaw_iff`). The third never holds: the routine behind the handler copies registers, but
never the flags, the selector or the return address, so that the frame keeps the EFLAGS of V86 mode
(`reentered_vm`); and before that the stub takes its error code through a DS that is null. So the
last two never hold either, as no call comes back.

That nothing would be written back if one did is a matter of its own. The program runs on a copy of
the context, and what it ends with is pushed with the frame of its fault, which is dropped. The
answer would be in the context exactly when it was there before the call, and
`MmAllocateDosMemory` would answer by the carry flag of a dword it has never written
(`realModeCall_returned`).
-/

namespace OS90.Laws

open OS90.Ia32 OS90.Ia32.Cpu OS90.Kernel

/-! ## Calls -/

/-- A DOS that answers with a segment and a clear carry flag. -/
def dosWithMemory : RealMode where
  run _ := { V86Exit.zero with gpr := fun r => if r = .eax then 0x1234 else 0 }
  mem _ := Mem.Within.refl _ _ _
  tss _ := rfl

/-- A call with its context just above the frame of `ScVirtual86_Int`. -/
def kernelCall : CallSite where
  frame := ⟨0xC007FF00#32, 0x100, by decide, 0x10, by decide⟩
  context := 0xC0080000#32
  clear := by
    intro k hk
    have hdist : 0xC0080000#32 + BitVec.ofNat 32 k - (0xC007FF00#32 - 0x1000000#32) =
        0x1000100#32 + BitVec.ofNat 32 k := by grind
    unfold Frame.Clear Frame.span Frame.low realModeLimit
    dsimp only
    rw [hdist, BitVec.toNat_add, BitVec.toNat_add, BitVec.toNat_ofNat, BitVec.toNat_ofNat,
      BitVec.toNat_ofNat]
    omega

/-! ## The code a call enters -/

/-- A context with the entry point a vector names: its offset in the low word, its segment in the
high. -/
def entryContext (regs : Context) (entry : DWORD) : Context := fun i =>
  if i = RD.eip then (entry.extractLsb' 0 16).setWidth 32
  else if i = RD.cs then (entry.extractLsb' 16 16).setWidth 32
  else regs i

/-- A call whose local array is not in the interrupt vector table. -/
structure EntrySite extends CallSite where
  ivt : Mem.Apart 0#32 1024 frame.newContext 68

def EntryLaw (layout : Layout) (site : EntrySite) (vector : BYTE) (m : Machine) : Prop :=
  let entered := virtual86Entered layout site.frame site.context vector m
  let regs := contextAt m.mem site.context
  Loaded (entryContext regs (realModeIvt m vector)) entered ∧
    contextAt entered.mem site.context = regs

/-- The low half of a vector table entry is the offset. -/
theorem and_ffff (v : DWORD) : v &&& 0xFFFF#32 = (v.extractLsb' 0 16).setWidth 32 := by
  apply BitVec.eq_of_getLsbD_eq
  intro i hi
  have hmask : (0xFFFF#32).getLsbD i = decide (i < 16) := by
    revert i
    decide
  rw [BitVec.getLsbD_and, hmask, BitVec.getLsbD_setWidth, BitVec.getLsbD_extractLsb', Nat.zero_add]
  by_cases hlow : i < 16
  · simp [hlow, hi]
  · simp [hlow]

/-- Its high half is the segment. -/
theorem ushiftRight_16 (v : DWORD) : v >>> 16 = (v.extractLsb' 16 16).setWidth 32 := by
  apply BitVec.eq_of_getLsbD_eq
  intro i hi
  rw [BitVec.getLsbD_ushiftRight, BitVec.getLsbD_setWidth, BitVec.getLsbD_extractLsb']
  by_cases hlow : i < 16
  · simp [hlow, hi]
  · simp [hlow, v.getLsbD_of_ge (16 + i) (by omega)]

/-- For every context, vector, content of the interrupt vector table and machine: the law of the
entry holds. It is carried by `EntrySite`, where the context, the local array and the stack are
apart and out of reach of real mode. It ends at the first instruction in V86 mode, and says nothing
of a way back. -/
theorem entryLaw (layout : Layout) (site : EntrySite) (vector : BYTE) (m : Machine) :
    EntryLaw layout site vector m := by
  let f := site.frame
  have hcontext : contextAt (virtual86IntBegin f.newContext site.context vector m).mem
      f.newContext = entryContext (contextAt m.mem site.context) (realModeIvt m vector) := by
    funext i
    rw [virtual86IntBegin_context m vector site.context_apart site.ivt, and_ffff, ushiftRight_16]
    rfl
  have hloads := virtual86Entered_loads layout f site.context vector m
  rw [hcontext] at hloads
  refine ⟨hloads, contextAt_congr fun k hk => ?_⟩
  exact virtual86Entered_within layout f site.context vector m _ (site.clear k hk).1

/-- The call with its context just above its frame, in the kernel's part of memory. -/
def kernelEntry : EntrySite where
  toCallSite := kernelCall
  ivt := by
    intro i hi
    show 68 ≤ (0#32 + BitVec.ofNat 32 i - (0xC007FF00#32 + 0x10#32)).toNat
    rw [BitVec.zero_add, BitVec.toNat_sub, BitVec.toNat_ofNat]
    show 68 ≤ (2 ^ 32 - 0xC007FF10 + i % 2 ^ 32) % 2 ^ 32
    omega

/-- A DOS call of the kernel, from a machine that does nothing. -/
theorem entryLaw_kernelEntry : EntryLaw Layout.linked kernelEntry 0x21 Machine.idle :=
  entryLaw Layout.linked kernelEntry 0x21 Machine.idle

/-! ## The stack of a DOS call -/

/-- A DOS call for a process. The context and the interrupt vector table are not in the local array
of `ScVirtual86_Int`. -/
structure DosCall where
  currentPcb : THREAD
  frame : Frame
  context : PTR
  apart : Mem.Apart context 68 frame.newContext 68
  ivt : Mem.Apart 0#32 1024 frame.newContext 68

/-- V86 mode on the process's stack, with the other registers those of a context. -/
structure OnProcessStack (currentPcb : THREAD) (regs : Context) (c : Machine) : Prop where
  vm : vm c.eflags = true
  ss : c.seg .ss = currentPcb.kernelRealModeSs
  esp : c.gpr .esp = currentPcb.kernelRealModeSp.setWidth 32
  gpr : ∀ r, r ≠ .esp → c.gpr r = gprEntry regs r
  es : c.seg .es = (regs RD.es).setWidth 16
  ds : c.seg .ds = (regs RD.ds).setWidth 16
  fs : c.seg .fs = (regs RD.fs).setWidth 16
  gs : c.seg .gs = (regs RD.gs).setWidth 16

section Call

variable (layout : Layout) (x : DosCall) (vector : BYTE) (m : Machine)

/-- The machine at the start of the real-mode program. -/
def DosCall.entered : Machine :=
  virtual86Entered layout x.frame x.context vector
    (scInitDosCallTrapFrame x.currentPcb x.context m)

def DosStackLaw : Prop :=
  OnProcessStack x.currentPcb (contextAt m.mem x.context) (x.entered layout vector m)

/-- The entries of the context the program is entered with. The two of the stack are exchanged. -/
theorem DosCall.context_begun {i : Fin 17} (heip : i ≠ RD.eip) (hcs : i ≠ RD.cs) :
    contextAt (virtual86IntBegin x.frame.newContext x.context vector
        (scInitDosCallTrapFrame x.currentPcb x.context m)).mem x.frame.newContext i =
      if i = RD.ss then x.currentPcb.kernelRealModeSp.setWidth 32
      else if i = RD.esp then x.currentPcb.kernelRealModeSs.setWidth 32
      else contextAt m.mem x.context i := by
  rw [virtual86IntBegin_context _ vector x.apart x.ivt, if_neg heip, if_neg hcs]
  unfold scInitDosCallTrapFrame
  rw [contextAt_store, contextAt_store]

/-- A field that is not one of the four comes from the context of the caller. -/
theorem DosCall.context_kept (i : Fin 17) (hi : i ∉ [RD.eip, RD.cs, RD.ss, RD.esp]) :
    contextAt (virtual86IntBegin x.frame.newContext x.context vector
        (scInitDosCallTrapFrame x.currentPcb x.context m)).mem x.frame.newContext i =
      contextAt m.mem x.context i := by
  simp only [List.mem_cons, List.not_mem_nil, or_false, not_or] at hi
  obtain ⟨heip, hcs, hss, hesp⟩ := hi
  rw [x.context_begun vector m heip hcs, if_neg hss, if_neg hesp]

/-- The program starts with the segment as its stack pointer, and the pointer as its segment. -/
theorem DosCall.entered_stack :
    (x.entered layout vector m).seg .ss = x.currentPcb.kernelRealModeSp ∧
      (x.entered layout vector m).gpr .esp = x.currentPcb.kernelRealModeSs.setWidth 32 := by
  have hloads := virtual86Entered_loads layout x.frame x.context vector
    (scInitDosCallTrapFrame x.currentPcb x.context m)
  have hss := hloads.ss
  have hesp := hloads.esp
  rw [x.context_begun vector m (by decide) (by decide), if_pos rfl] at hss
  rw [x.context_begun vector m (by decide) (by decide), if_neg (by decide), if_pos rfl] at hesp
  refine ⟨hss.trans ?_, hesp⟩
  exact setWidth_selector _

/-- All other registers arrive in V86 mode as the context has them. -/
theorem DosCall.entered_gpr {r : Reg} (hr : r ≠ .esp) :
    (x.entered layout vector m).gpr r = gprEntry (contextAt m.mem x.context) r := by
  have hloads := virtual86Entered_loads layout x.frame x.context vector
    (scInitDosCallTrapFrame x.currentPcb x.context m)
  have hkept := x.context_kept vector m
  cases r with
  | eax => exact hloads.eax.trans (hkept _ (by decide))
  | ebx => exact hloads.ebx.trans (hkept _ (by decide))
  | ecx => exact hloads.ecx.trans (hkept _ (by decide))
  | edx => exact hloads.edx.trans (hkept _ (by decide))
  | esi => exact hloads.esi.trans (hkept _ (by decide))
  | edi => exact hloads.edi.trans (hkept _ (by decide))
  | ebp => exact hloads.ebp.trans (hkept _ (by decide))
  | esp => exact absurd rfl hr

/-- For every process, context, vector and machine: the program starts on the process's stack
exactly when the segment and the pointer of that stack are one number. All other fields are right
for every process. -/
theorem dosStackLaw_iff :
    DosStackLaw layout x vector m ↔
      x.currentPcb.kernelRealModeSs = x.currentPcb.kernelRealModeSp := by
  obtain ⟨hss, hesp⟩ := x.entered_stack layout vector m
  constructor
  · intro hlaw
    exact hlaw.ss.symm.trans hss
  · intro hsame
    have hloads := virtual86Entered_loads layout x.frame x.context vector
      (scInitDosCallTrapFrame x.currentPcb x.context m)
    have hkept := fun i hi => congrArg (BitVec.setWidth 16) (x.context_kept vector m i hi)
    exact
      { vm := hloads.vm
        ss := hss.trans hsame.symm
        esp := hesp.trans (congrArg _ hsame)
        gpr := fun r hr => x.entered_gpr layout vector m hr
        es := hloads.es.trans (hkept _ (by decide))
        ds := hloads.ds.trans (hkept _ (by decide))
        fs := hloads.fs.trans (hkept _ (by decide))
        gs := hloads.gs.trans (hkept _ (by decide)) }

end Call

/-- A process with its real-mode stack at 2000:1000. -/
def dosProcess : THREAD where
  kernelRealModeSs := 0x2000
  kernelRealModeSp := 0x1000
  localIdt _ := ⟨0, 0, 0⟩

/-- A DOS call for it, with the context just above the frame of `ScVirtual86_Int`. -/
def dosProcessCall : DosCall where
  currentPcb := dosProcess
  frame := kernelEntry.frame
  context := kernelEntry.context
  apart := kernelEntry.context_apart
  ivt := kernelEntry.ivt

/-- The program of the example starts on a stack at 1000:2000, the two words exchanged. -/
theorem dosStackLaw_dosProcess :
    ¬ DosStackLaw Layout.linked dosProcessCall 0x21 Machine.idle := by
  intro hlaw
  have hss := (dosProcessCall.entered_stack Layout.linked 0x21 Machine.idle).1
  have hsame : dosProcess.kernelRealModeSs = dosProcess.kernelRealModeSp := hlaw.ss.symm.trans hss
  exact absurd hsame (by decide)

/-! ## The way back -/

/-- `ScEnterV86` has returned to its caller: `m` is the machine it was called in. -/
structure BackInCaller (m d : Machine) : Prop where
  vm : vm d.eflags = false
  ring0 : d.seg .cs &&& 3 = 0
  eip : d.eip = m.stack 0
  ebx : d.gpr .ebx = m.gpr .ebx
  esi : d.gpr .esi = m.gpr .esi
  edi : d.gpr .edi = m.gpr .edi
  ebp : d.gpr .ebp = m.gpr .ebp
  esp : d.gpr .esp = m.gpr .esp + 4#32

/-- The law of a real-mode call. `V86Exit` is any end of the V86 execution, and `HandlerPath` any C
code around the call of `ScOnExceptRetReenterCallerV86`, at any depth. -/
def ReenterLaw (refused : Selector → Bool) (layout : Layout) (idt : IDT) (m : Machine) (x : V86Exit)
    (err : DWORD) (h : HandlerPath) : Prop :=
  ∃ f, exceptEntry refused layout idt 13 err (x.fault (scEnterV86 layout m)) =
      some (.generalProtect, f) ∧ BackInCaller m (reentered layout h f)

/-- Whatever the caller, the V86 program and the handler, the `iret` is back in V86 mode. -/
theorem reenterLaw_false {refused : Selector → Bool} {layout : Layout} {idt : IDT} {m : Machine}
    {x : V86Exit} {err : DWORD} {h : HandlerPath}
    (hlaw : ReenterLaw refused layout (fillIDT layout idt) m x err h) : False := by
  obtain ⟨f, hf, hback⟩ := hlaw
  have hvm : vm (reentered layout h f).eflags = true :=
    reentered_vm layout h (c := x.fault (scEnterV86 layout m)) x.vm (exceptEntry_called hf).2
  exact absurd (hvm.symm.trans hback.vm) (by decide)

/-- No real-mode call comes back to the caller of `ScEnterV86`. It is not only that the stub faults
where DS is null: with any set of selectors refused, the empty one too, the stub's `iret` is not to
the caller. -/
theorem not_reenterLaw (refused : Selector → Bool) (layout : Layout) (idt : IDT) (m : Machine)
    (x : V86Exit) (err : DWORD) (h : HandlerPath) :
    ¬ ReenterLaw refused layout (fillIDT layout idt) m x err h := reenterLaw_false

theorem reenterLaw_idle :
    ¬ ReenterLaw nullSelector Layout.linked (fillIDT Layout.linked .zero) Machine.idle V86Exit.zero
        0 HandlerPath.direct := reenterLaw_false

/-! ## Results -/

/-- A context holds the general registers and flags a real-mode program ended with. -/
structure Results (x : V86Exit) (regs : Context) : Prop where
  eax : regs RD.eax = x.gpr .eax
  ebx : regs RD.ebx = x.gpr .ebx
  ecx : regs RD.ecx = x.gpr .ecx
  edx : regs RD.edx = x.gpr .edx
  esi : regs RD.esi = x.gpr .esi
  edi : regs RD.edi = x.gpr .edi
  ebp : regs RD.ebp = x.gpr .ebp
  eflags : regs RD.eflags = x.eflags

/-- The carry flag. -/
def cf (eflags : DWORD) : Bool := eflags.getLsbD 0

section Laws

variable (refused : Selector → Bool) (layout : Layout) (idt : IDT) (rm : RealMode) (h : QuietPath)
  (err : DWORD) (site : CallSite) (m : Machine)

/-- How the real-mode program behind a call ends. -/
def realModeEnd (vector : BYTE) (m : Machine) : V86Exit :=
  rm.run (virtual86Entered layout site.frame site.context vector m)

/-- When `ScVirtual86_Int` has returned, its caller's context holds the results. -/
def CallLaw (vector : BYTE) : Prop :=
  ∃ m', scVirtual86_Int refused layout idt rm h err site.frame site.context vector m = some m' ∧
    Results (realModeEnd layout rm site vector m) (contextAt m'.mem site.context)

/-- DOS's AX, or 0xFFFF if DOS has set the carry flag. -/
def dosAnswer (x : V86Exit) : WORD := if cf x.eflags then 0xFFFF else (x.gpr .eax).setWidth 16

/-- `MmAllocateDosMemory` answers that. -/
def AllocateLaw (paragraphs : WORD) : Prop :=
  mmAllocateDosMemory refused layout idt rm h err site paragraphs m =
    some (dosAnswer (realModeEnd layout rm site 0x21 (allocateRequest site.context paragraphs m)))

/-- Whichever selectors are refused, and for every layout and table, every real-mode program,
handler and error code, every context, vector and content of the interrupt vector table and every
paragraph count: the call has no end at its caller, so that there are no results to find in the
context, and no answer. -/
theorem not_realModeCallLaw :
    (∀ vector, ¬ CallLaw refused layout (fillIDT layout idt) rm h err site m vector) ∧
      ∀ paragraphs,
        ¬ AllocateLaw refused layout (fillIDT layout idt) rm h err site m paragraphs := by
  refine ⟨fun vector hlaw => ?_, fun paragraphs hlaw => ?_⟩
  · obtain ⟨m', hrun, -⟩ := hlaw
    rw [scVirtual86_Int_none] at hrun
    cases hrun
  · unfold AllocateLaw at hlaw
    rw [mmAllocateDosMemory_none] at hlaw
    cases hlaw

/-- DOS has memory at segment 1234h, and the kernel is never told. -/
theorem realModeCall_dos :
    ¬ CallLaw nullSelector Layout.linked (fillIDT Layout.linked .zero) dosWithMemory .direct 0
        kernelCall Machine.idle 0x21 ∧
      ¬ AllocateLaw nullSelector Layout.linked (fillIDT Layout.linked .zero) dosWithMemory .direct 0
        kernelCall Machine.idle 0x10 := by
  refine ⟨?_, ?_⟩
  · rintro ⟨m', hrun, -⟩
    rw [scVirtual86_Int_none] at hrun
    cases hrun
  · unfold AllocateLaw
    rw [mmAllocateDosMemory_none]
    exact fun hanswer => by cases hanswer

end Laws

/-! ## Were a call to return -/

/-- The test of the flags is that of the carry. -/
theorem and_one_ne_zero_iff (eflags : DWORD) : eflags &&& 1#32 ≠ 0 ↔ cf eflags = true := by
  unfold cf
  rw [BitVec.and_one_eq_setWidth_ofBool_getLsbD]
  cases eflags.getLsbD 0 <;> decide

/-- When `MmAllocateDosMemory` would answer what DOS has answered. `stale` is the carry flag of the
dword that the array's EFLAGS happens to be. -/
def AllocateMeets (stale : Bool) (x : V86Exit) : Prop :=
  if cf x.eflags then stale = true
  else if stale then (x.gpr .eax).setWidth 16 = (0xFFFF : WORD)
  else (x.gpr .eax).setWidth 16 = (0x4800 : WORD)

section Returned

variable (layout : Layout) (rm : RealMode) (h : QuietPath) (err : DWORD) (site : CallSite)
  (m : Machine)

/-- If the call were to return, its answer would be made of what was found on the stack, and of
nothing that DOS has answered. -/
theorem allocateAnswer_returned (paragraphs : WORD) :
    allocateAnswer (contextAt (virtual86Returned layout rm h err site.frame site.context 0x21
        (allocateRequest site.context paragraphs m)).mem site.context) =
      if cf (contextAt m.mem site.context RD.eflags) then 0xFFFF else 0x4800 := by
  obtain ⟨regs, hregs⟩ : ∃ regs,
    regs = contextAt (allocateRequest site.context paragraphs m).mem site.context := ⟨_, rfl⟩
  have heax : regs RD.eax = 0x4800#32 := by
    rw [hregs, allocateRequest, contextAt_store, if_neg (by decide), contextAt_store, if_pos rfl]
  have heflags : regs RD.eflags = contextAt m.mem site.context RD.eflags := by
    rw [hregs, allocateRequest, contextAt_store, if_neg (by decide), contextAt_store,
      if_neg (by decide)]
  rw [virtual86Returned_context, ← hregs]
  unfold allocateAnswer
  rw [heax, heflags]
  cases hcf : cf (contextAt m.mem site.context RD.eflags) with
  | false => rw [if_neg (by rw [and_one_ne_zero_iff, hcf]; decide)]; rfl
  | true => rw [if_pos (by rw [and_one_ne_zero_iff, hcf])]; rfl

/-- If the way out of the fault were to the caller, and for whatever it has passed and DOS has done:
the results would be in the context exactly when they were there before the call, and
`MmAllocateDosMemory` would answer DOS's answer exactly when the uninitialised EFLAGS of its array
and the constant it has asked with make it so. -/
theorem realModeCall_returned :
    (∀ vector, Results (realModeEnd layout rm site vector m)
        (contextAt (virtual86Returned layout rm h err site.frame site.context vector m).mem
          site.context) ↔
      Results (realModeEnd layout rm site vector m) (contextAt m.mem site.context)) ∧
    ∀ paragraphs,
      allocateAnswer (contextAt (virtual86Returned layout rm h err site.frame site.context 0x21
          (allocateRequest site.context paragraphs m)).mem site.context) =
        dosAnswer (realModeEnd layout rm site 0x21 (allocateRequest site.context paragraphs m)) ↔
      AllocateMeets (cf (contextAt m.mem site.context RD.eflags))
        (realModeEnd layout rm site 0x21 (allocateRequest site.context paragraphs m)) := by
  refine ⟨fun vector => ?_, fun paragraphs => ?_⟩
  · rw [virtual86Returned_context]
  · rw [allocateAnswer_returned]
    unfold dosAnswer AllocateMeets
    generalize realModeEnd layout rm site 0x21 (allocateRequest site.context paragraphs m) = x
    cases cf x.eflags <;> cases cf (contextAt m.mem site.context RD.eflags) <;>
      simp [eq_comm]

end Returned

end OS90.Laws
