import OS90.Kernel.IntrTrap
import OS90.Lib.Run

/-!
# Entry and exit of exceptions and interrupts

Three laws of the stubs in `Intr_Trap.asm`. `ExceptLaw` is what the C function behind an exception
is promised, whatever was interrupted: it is told truly whether V86 mode was, it is handed the
interrupted registers, and when it returns with its frame alone the interrupted code goes on as if
nothing had happened. `IrqLaw` is the same of `InMasterDispatch` for an interrupt line, from the
controllers as `PIC_Remap` programs them. `ErrorCodeLaw` is that a handler reads the error code of
its own fault, at every moment of a run in which faults nest.

The first two are never kept. The flag of an exception contradicts the EFLAGS beside it, since the
stub tests for the VM bit in the very dword it hands over as EFLAGS, and sets the flag when the bit
is clear (`exceptCalled_eflags`). Of the sixteen vectors the controllers send only the first has a
gate, and that gate is the stub of line 15 (`irqEntry_of_ne`, `irqEntry_zero`). The third is kept by
the runs in which every handler that comes back to another had the same error code
(`errorCodeLaw_iff`): there is one `_ErrorCode`, and no stub saves it.

All three are for any set of selectors through which the stubs' stores are refused. A refused store
is an exception of its own, at the stub's first instruction: the law of an exception is not kept by
it either, and a run of faults has no step there.
-/

namespace OS90.Laws

open OS90.Device OS90.Ia32 OS90.Ia32.Cpu OS90.Kernel OS90.Run

/-! ## Exceptions -/

/-- The registers of the interrupted machine, where C code looks for them. -/
structure Saved (c : Machine) (regs : Context) : Prop where
  eax : regs RD.eax = c.gpr .eax
  ebx : regs RD.ebx = c.gpr .ebx
  ecx : regs RD.ecx = c.gpr .ecx
  edx : regs RD.edx = c.gpr .edx
  esi : regs RD.esi = c.gpr .esi
  edi : regs RD.edi = c.gpr .edi
  ebp : regs RD.ebp = c.gpr .ebp
  eip : regs RD.eip = c.eip
  cs : regs RD.cs = (c.seg .cs).setWidth 32
  eflags : regs RD.eflags = c.eflags

/-- The law of exception `v`, delivered to machine `c` with error code `err`. -/
def ExceptLaw (refused : Selector → Bool) (layout : Layout) (idt : IDT) (v : Fin 15)
    (err : DWORD) (c : Machine) : Prop :=
  ∃ m, exceptEntry refused layout idt v err c = some (exceptName v, m) ∧
    (m.gpr .eax = 1 ↔ vm c.eflags = true) ∧
      Saved c (contextAt m.mem (m.gpr .edx)) ∧
        ∀ handler : CCode, Resumed c (exceptExit layout (exceptName v) handler m)

/-- The flag a C function is given says that the EFLAGS it is given has no VM bit. -/
theorem exceptCalled_eflags (name : ExceptName) (m : Machine) :
    (exceptCalled name m).gpr .eax = 1 ↔
      vm (contextAt (exceptCalled name m).mem ((exceptCalled name m).gpr .edx) RD.eflags) =
        false := by
  rw [contextAt_exceptCalled, exceptCalled_eax]
  show (if vm ((exceptCalled name m).stack 11) then (0 : DWORD) else 1) = 1 ↔
    vm ((exceptCalled name m).stack 11) = false
  cases vm ((exceptCalled name m).stack 11) <;> decide

/-! ## The way out -/

section Exit

variable {c : Machine} {name : ExceptName}

/-- What a stub builds its frame on: the interrupted state as delivered without an error code, when
the stub takes an error code off the stack exactly if there is one. -/
theorem exceptBase_deliver (g : Gate) (c : Machine) {err : Option DWORD}
    (herr : errcode name = err.isSome) :
    (∀ i < 9, (exceptBase name (c.deliver g err)).stack i = (c.deliver g none).stack i) ∧
      (exceptBase name (c.deliver g err)).gpr = (c.deliver g none).gpr ∧
        (exceptBase name (c.deliver g err)).seg = (c.deliver g none).seg := by
  unfold exceptBase
  cases err with
  | none =>
    rw [if_neg (by rw [herr]; decide)]
    exact ⟨fun _ _ => rfl, rfl, rfl⟩
  | some e =>
    rw [if_pos (by rw [herr]; rfl)]
    refine ⟨fun i hi => ?_, ?_, rfl⟩
    · show ((c.deliver g (some e)).drop 1).stack i = _
      rw [stack_drop, Nat.add_comm, deliver_stack_some g c e (by omega), deliver_stack_none]
    · funext r
      show (((pushFrame c).push e).drop 1).gpr r = (pushFrame c).gpr r
      by_cases hr : r = .esp
      · rw [hr, drop_esp, push_gpr, if_pos rfl]
        bv_omega
      · rw [drop_of_ne _ _ _ hr, push_gpr, if_neg hr]

/-- The dword above the saved EFLAGS, which the stub tests for the VM bit. -/
def testedDword (c : Machine) : DWORD := (pushFrame c).stack 3

/-- When the C function leaves its frame alone, the stub's `iret` resumes the interrupted code, if
the stub takes the error code there is and does not reload the selectors of a kernel or ring 3
program. -/
theorem exceptExit_resumed (layout : Layout) (g : Gate) (err : Option DWORD)
    (herr : errcode name = err.isSome)
    (hsegs : vm c.eflags = true ∨ vm (testedDword c) = false) (handler : CCode) :
    Resumed c (exceptExit layout name handler (exceptCalled name (c.deliver g err))) := by
  obtain ⟨hstack, hgpr, hseg⟩ := exceptBase_deliver g c herr
  let f := exceptCalled name (c.deliver g err)
  let back := handler.call layout (.afterExcept name) f
  have hholds : FrameHolds (exceptBase name (c.deliver g err)) back :=
    handler.call_holds layout _ f (exceptCalled_holds _ name)
  have hframe : ∀ i < 9, (restTrapRegs back).stack i = (c.deliver g none).stack i := by
    intro i hi
    rw [restTrapRegs_stack, Nat.add_comm, handler.call_stack layout _ f (by omega),
      exceptCalled_stack _ _ (by omega), hstack i hi]
  refine (resumed_iret_deliver g c).trans (resumed_iret hframe ?_ ?_)
  · rw [restTrapRegs_gpr hholds, hgpr]
  · rw [deliver_eflags_saved]
    refine hsegs.imp_right fun htested => ?_
    rw [restTrapRegs_seg, handler.call_seg layout _ f, ← hseg]
    refine exceptCalled_seg _ name ?_
    rw [hstack 3 (by decide), deliver_stack_none]
    exact htested

/-- Of the fifteen stubs only that of vector 5 gets the error code wrong, expecting one that the
processor does not push. -/
theorem errcode_except (v : Fin 15) : errcode (exceptName v) = pushesErrorCode v ↔ v ≠ 5 := by
  revert v
  decide

end Exit

/-- The flag that the handler is given contradicts the EFLAGS of the frame beside it, in every case
the stub comes to its call. -/
theorem exceptLaw_false {refused : Selector → Bool} {layout : Layout} {idt : IDT} {v : Fin 15}
    {err : DWORD} {c : Machine} (hlaw : ExceptLaw refused layout (fillIDT layout idt) v err c) :
    False := by
  obtain ⟨m, hm, hflag, hsaved, _⟩ := hlaw
  obtain ⟨d, hd⟩ : ∃ d, d = exceptStub layout v err c := ⟨_, rfl⟩
  have hcalled : m = exceptCalled (exceptName v) d := by
    rw [hd]
    exact (exceptEntry_called hm).2
  have hclear := exceptCalled_eflags (exceptName v) d
  rw [← hcalled, hflag, hsaved.eflags] at hclear
  cases hvm : vm c.eflags with
  | false => exact absurd (hclear.mpr hvm) (by simp [hvm])
  | true => exact absurd (hclear.mp hvm) (by simp [hvm])

/-- No exception that `FillIDT` installs keeps its law, whatever it interrupts and whichever
selectors are refused. Where the stub comes to its call, its flag says the opposite of the EFLAGS it
hands over; where it does not, there is no call. -/
theorem not_exceptLaw (refused : Selector → Bool) (layout : Layout) (idt : IDT) (v : Fin 15)
    (err : DWORD) (c : Machine) : ¬ ExceptLaw refused layout (fillIDT layout idt) v err c :=
  exceptLaw_false

/-- A division by zero in the kernel: the C function is told that V86 mode was interrupted. -/
theorem exceptLaw_divide0 :
    ¬ ExceptLaw nullSelector Layout.linked (fillIDT Layout.linked .zero) 0 0 Machine.idle :=
  exceptLaw_false

/-! ## Interrupt lines -/

/-- The machine at the call of `InMasterDispatch`, when delivery of the line comes to one. -/
def irqEntry (refused : Selector → Bool) (layout : Layout) (idt : IDT) (pics : PicPair)
    (irq : Irq) (c : Machine) : Option Machine := do
  match ← deliverVector layout idt (pics.vector irq) none c with
  | (.low n, m) => irqEnter refused n m
  | _ => none

/-- The machine after `InMasterDispatch` and the `iret` of `Continue`. -/
def irqExit (layout : Layout) (dispatch : CCode) (m : Machine) : Machine :=
  irqLeave (dispatch.call layout .afterDispatch m)

/-- The law of a line: `InMasterDispatch` is called with its number and the interrupted registers,
and when it returns the interrupted code goes on. `s` is the state before `PIC_Remap`. -/
def IrqLaw (refused : Selector → Bool) (layout : Layout) (s : System) (irq : Irq) (c : Machine) :
    Prop :=
  ∃ s', picRemap.run s = some ((), s') ∧
    ∃ m, irqEntry refused layout (fillIDT layout .zero) s'.pics irq c = some m ∧
      m.gpr .edx = irq.vint ∧
        Saved c (contextAt m.mem (m.gpr .eax)) ∧
          ∀ dispatch : CCode, Resumed c (irqExit layout dispatch m)

section Entry

variable (refused : Selector → Bool) (layout : Layout) (p : PicPair) (c : Machine)

/-- The first vector of the lines comes to the last stub, the one whose gate was stored there
last. -/
theorem irqEntry_zero :
    irqEntry refused layout (fillIDT layout .zero) (remappedPics p) 0 c =
      irqEnter refused 15 (c.deliver (layout.gate (.low 15)) none) := by
  have hvector : (remappedPics p).vector 0 = IRQ_BASE := vector_remappedPics p 0
  unfold irqEntry
  rw [hvector, deliverVector_of_descriptor (low_mem_stubs 15) (fillIDT_irqBase layout .zero)]
  rfl

/-- The vectors of the other lines come nowhere, as their gates are zero. -/
theorem irqEntry_of_ne {irq : Irq} (hirq : irq ≠ 0) :
    irqEntry refused layout (fillIDT layout .zero) (remappedPics p) irq c = none := by
  have hgate : ∀ v, gateOf (IDT.zero v) = none := by
    intro v
    unfold IDT.zero
    decide
  unfold irqEntry deliverVector
  rw [vector_remappedPics, fillIDT_irq layout .zero hirq, hgate]
  rfl

end Entry

/-- What delivery calls, if anything, is not `InMasterDispatch` for the line that was granted: the
number in EDX is another. -/
theorem irqEntry_edx {refused : Selector → Bool} {layout : Layout} {p : PicPair} {irq : Irq}
    {c m : Machine}
    (h : irqEntry refused layout (fillIDT layout .zero) (remappedPics p) irq c = some m) :
    m.gpr .edx ≠ irq.vint := by
  by_cases hirq : irq = 0
  · subst hirq
    rw [irqEntry_zero] at h
    rw [irqEnter_edx h]
    decide
  · rw [irqEntry_of_ne refused layout p c hirq] at h
    cases h

/-- A line whose delivery calls for another line, or not at all, has not kept its law. -/
theorem irqLaw_false {refused : Selector → Bool} {layout : Layout} {s : System} {irq : Irq}
    {c : Machine} (h : IrqLaw refused layout s irq c) : False := by
  obtain ⟨s', hrun, m, hentry, hedx, _⟩ := h
  obtain ⟨s'', hrun', hpics⟩ := picRemap_run s
  obtain rfl : s'' = s' := congrArg Prod.snd (Option.some.inj (hrun'.symm.trans hrun))
  rw [hpics] at hentry
  exact irqEntry_edx hentry hedx

/-- No interrupt line keeps its law, whatever it interrupts, in whichever state `PIC_Remap` has
found the controllers. The table is the one `FillIDT` makes of zeros, and this carries it: fifteen
of the lines have no gate there, and the one that has leads to the stub of another. -/
theorem not_irqLaw (refused : Selector → Bool) (layout : Layout) (s : System) (irq : Irq)
    (c : Machine) : ¬ IrqLaw refused layout s irq c := irqLaw_false

/-- An interrupt of the timer calls the dispatcher for IRQ 15. -/
theorem irqLaw_timer : ¬ IrqLaw nullSelector Layout.linked System.powerUp 0 Machine.idle :=
  irqLaw_false

/-! ## Error codes -/

/-- An exception for which the processor pushes an error code, and what it interrupts. -/
structure CodedFault where
  v : Fin 15
  pushes : pushesErrorCode v = true
  err : DWORD
  c : Machine

inductive FaultEvent where
  | fault (f : CodedFault)
  /-- The innermost handler returns, in a machine of its own making. -/
  | handlerReturn (m : Machine)

/-- The variable, and the error codes of the faults whose handlers are active, the innermost
first. -/
structure Faults where
  errorCode : DWORD
  active : List DWORD

/-- A machine with that variable. -/
def Faults.within (r : Faults) (m : Machine) : Machine :=
  { m with env := { m.env with errorCode := r.errorCode } }

def faultStep (refused : Selector → Bool) (layout : Layout) (idt : IDT) (r : Faults) :
    FaultEvent → Option Faults
  | .fault f => do
    let (_, m) ← exceptEntry refused layout (fillIDT layout idt) f.v f.err (r.within f.c)
    return ⟨m.env.errorCode, f.err :: r.active⟩
  | .handlerReturn m =>
    match r.active with
    | [] => none
    | _ :: outer => some ⟨(exceptLeave (r.within m)).env.errorCode, outer⟩

/-- The handler in charge reads its own error code. -/
def OwnCode (r : Faults) : Prop :=
  ∀ code outer, r.active = code :: outer → ∀ m, scGetFaultErrorCode (r.within m) = code ∧
    (getErrCode (r.within m)).gpr .eax = code

def ErrorCodeLaw (refused : Selector → Bool) (layout : Layout) (idt : IDT) (errorCode : DWORD)
    (es : List FaultEvent) : Prop :=
  ∀ r ∈ states (faultStep refused layout idt) ⟨errorCode, []⟩ es, OwnCode r

/-- A handler that comes back to another had the other's error code. -/
def ReturnsAlike (r : Faults) : FaultEvent → Prop
  | .fault _ => True
  | .handlerReturn _ => ∀ code code' outer, r.active = code :: code' :: outer → code = code'

/-- Whether a handler has its own code is a matter of the variable and of the activation on top. -/
theorem ownCode_iff (r : Faults) :
    OwnCode r ↔ ∀ code outer, r.active = code :: outer → r.errorCode = code := by
  have hread : ∀ m, (getErrCode (r.within m)).gpr .eax = r.errorCode := by
    intro m
    unfold getErrCode
    rw [set_gpr, if_pos rfl]
    rfl
  constructor
  · intro h code outer hactive
    exact (h code outer hactive Machine.idle).1
  · intro h code outer hactive m
    refine ⟨h code outer hactive, ?_⟩
    rw [hread, h code outer hactive]

section Steps

variable (refused : Selector → Bool) (layout : Layout) (idt : IDT)

/-- A fault whose stub comes to its call leaves its own error code in the variable, whatever was
there. -/
theorem faultStep_fault {r r' : Faults} {f : CodedFault}
    (hstep : faultStep refused layout idt r (.fault f) = some r') :
    r' = ⟨f.err, f.err :: r.active⟩ := by
  have hname : ∀ v, pushesErrorCode v = true → errcode (exceptName v) = true := by decide
  obtain ⟨⟨name, m⟩, hentry, hstep⟩ := Option.bind_eq_some_iff.mp hstep
  cases hstep
  obtain ⟨d, hd⟩ : ∃ d, d = exceptStub layout f.v f.err (r.within f.c) := ⟨_, rfl⟩
  have htop : d.stack 0 = f.err := by
    rw [hd]
    unfold exceptStub
    rw [if_pos f.pushes]
    exact stack_push_zero (pushFrame (r.within f.c)) f.err
  have hm : m = exceptCalled (exceptName f.v) d := by
    rw [hd]
    exact (exceptEntry_called hentry).2
  have hcode := exceptCalled_errorCode d (exceptName f.v) (hname f.v f.pushes)
  rw [← hm, htop] at hcode
  rw [hcode]

/-- It comes to it from code with a DS that is not refused, unless that is in V86 mode. -/
theorem faultStep_of_code (r : Faults) (f : CodedFault) (hvm : vm f.c.eflags = false)
    (hds : refused (f.c.seg .ds) = false) :
    faultStep refused layout idt r (.fault f) = some ⟨f.err, f.err :: r.active⟩ := by
  have hstub : (exceptStub layout f.v f.err (r.within f.c)).seg .ds = f.c.seg .ds :=
    deliver_seg _ (c := r.within f.c) hvm (by decide) (by decide) _
  have hentry : exceptEntry refused layout (fillIDT layout idt) f.v f.err (r.within f.c) =
      some (exceptName f.v, exceptCalled (exceptName f.v)
        (exceptStub layout f.v f.err (r.within f.c))) := by
    rw [exceptEntry_fillIDT, exceptEnter_eq, hstub, hds, if_neg (by simp)]
    rfl
  obtain ⟨r', hstep⟩ : ∃ r', faultStep refused layout idt r (.fault f) = some r' :=
    ⟨_, Option.bind_eq_some_iff.mpr ⟨_, hentry, rfl⟩⟩
  rw [hstep, faultStep_fault refused layout idt hstep]

/-- A return leaves the variable as it is, with the code of the handler that has ended. -/
theorem faultStep_handlerReturn (r : Faults) (m : Machine) {code : DWORD} {outer : List DWORD}
    (h : r.active = code :: outer) :
    faultStep refused layout idt r (.handlerReturn m) = some ⟨r.errorCode, outer⟩ := by
  have henv : (exceptLeave (r.within m)).env = (r.within m).env := iret_env _
  unfold faultStep
  rw [h]
  dsimp only
  rw [henv]
  rfl

/-- An event keeps the law exactly when it is not the return of a handler to one with another error
code. -/
theorem returnsAlike_iff (r : Faults) (e : FaultEvent) (hr : OwnCode r) :
    ReturnsAlike r e ↔ ∀ r', faultStep refused layout idt r e = some r' → OwnCode r' := by
  cases e with
  | fault f =>
    refine iff_of_true trivial fun r' hstep => ?_
    obtain rfl := faultStep_fault refused layout idt hstep
    rw [ownCode_iff]
    rintro code outer ⟨⟩
    rfl
  | handlerReturn m =>
    cases hactive : r.active with
    | nil =>
      refine iff_of_true (fun code code' outer h => ?_) fun r' hstep => ?_
      · rw [hactive] at h
        cases h
      · unfold faultStep at hstep
        rw [hactive] at hstep
        cases hstep
    | cons code rest =>
      have hown : r.errorCode = code := (ownCode_iff r).mp hr code rest hactive
      rw [faultStep_handlerReturn refused layout idt r m hactive]
      constructor
      · rintro halike r' ⟨⟩
        rw [ownCode_iff]
        rintro code' outer rfl
        exact hown.trans (halike code code' outer hactive)
      · intro hlaw inner code' outer h
        rw [hactive] at h
        cases h
        have hnext := (ownCode_iff ⟨r.errorCode, code' :: outer⟩).mp (hlaw _ rfl) code' outer rfl
        exact hown.symm.trans hnext

end Steps

/-- No handler is in charge at the start, so that there is nothing to be right about. -/
theorem ownCode_start (errorCode : DWORD) : OwnCode ⟨errorCode, []⟩ := by
  intro code outer h
  cases h

/-- For every table, every nesting of faults of any depth and every code of the handlers: each
handler reads its own error code at every moment exactly when no handler comes back to one with
another error code. It is no matter where the faults come from. One whose stub is refused DS has no
handler, and ends the run. -/
theorem errorCodeLaw_iff (refused : Selector → Bool) (layout : Layout) (idt : IDT)
    (errorCode : DWORD) (es : List FaultEvent) :
    ErrorCodeLaw refused layout idt errorCode es ↔
      EachStep (faultStep refused layout idt) ReturnsAlike ⟨errorCode, []⟩ es :=
  forall_states_iff (returnsAlike_iff refused layout idt) (ownCode_start errorCode) es

/-- A general protection fault in the kernel, during whose handling a page fault is taken. -/
def pageFaultInside : List FaultEvent :=
  [.fault ⟨13, by decide, 0, .idle⟩, .fault ⟨14, by decide, 4, .idle⟩, .handlerReturn .idle]

/-- A page fault inside a handler leaves its own error code to the rest of that handler. -/
theorem errorCodeLaw_pageFaultInside :
    ¬ ErrorCodeLaw nullSelector Layout.linked .zero 0 pageFaultInside := by
  intro hlaw
  have hgp := faultStep_of_code nullSelector Layout.linked .zero ⟨0, []⟩ ⟨13, by decide, 0, .idle⟩
    (by decide) (by decide)
  have hpf := faultStep_of_code nullSelector Layout.linked .zero ⟨0, [0]⟩
    ⟨14, by decide, 4, .idle⟩ (by decide) (by decide)
  have heach := (forall_states_iff (returnsAlike_iff nullSelector Layout.linked .zero)
    (ownCode_start 0) pageFaultInside).mp hlaw
  have hsecond := heach.2 _ hgp
  have hthird := hsecond.2 _ hpf
  have halike : (4 : DWORD) = 0 := hthird.1 4 0 [] rfl
  exact absurd halike (by decide)

end OS90.Laws
