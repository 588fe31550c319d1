import OS90.Kernel.Ia32

/-!
# The interrupt stubs

`Intr_Trap.asm`: the stub that `MakeExcept` makes for each exception and the sixteen stubs of the
interrupt lines with their common tail `Continue`. A stub is its way in, up to the call of the C
function, and its way out, after the call returns. What C code may do in between is `CCode`: it
keeps the registers the calling convention names and its callers' stack.

The error code of a fault and the number of a line go through a variable, and the `pop` that stores
them goes through DS. The processor refuses it when DS is null (`nullSelector`), which it is in
every stub entered from V86 mode, since delivery nulls the data selectors and the stub reloads them
only afterwards. The stubs are defined for any set of selectors `refused`, and a `pop` that is
refused answers `none`, with nothing done. A result for every `refused` is about what the rest of
the stub does; one for `nullSelector` is about the processor.
-/

namespace OS90.Kernel

open OS90.Ia32 OS90.Ia32.Cpu

/-! ## Macros -/

def saveTrapRegs (m : Machine) : Machine :=
  m.pushReg .ebp |>.pushReg .esp |>.pushReg .edi |>.pushReg .esi |>.pushReg .edx |>.pushReg .ecx
    |>.pushReg .ebx |>.pushReg .eax

def restTrapRegs (m : Machine) : Machine :=
  m.pop .eax |>.pop .ebx |>.pop .ecx |>.pop .edx |>.pop .esi |>.pop .edi |>.drop 1 |>.pop .ebp

/-- `RestoreSegsIfNecessary`. The dword it tests for the VM bit is one above the saved EFLAGS. -/
def restoreSegsIfNecessary (m : Machine) : Machine :=
  let m := m.load .eax (m.gpr .esp + 44#32)
  let m := m.test (m.gpr .eax) (1#32 <<< 17)
  if zf m.eflags then m
  else
    let m := m.set .eax ((m.seg .ss).setWidth 32)
    let sel := (m.gpr .eax).setWidth 16
    m.setSeg .ds sel |>.setSeg .es sel |>.setSeg .fs sel |>.setSeg .gs sel

/-! ## Exceptions -/

/-- The second argument of each `MakeExcept`: whether the stub takes an error code off the
stack. -/
def errcode : ExceptName → Bool
  | .boundRangeExceeded => true
  | .doubleFault => true
  | .invalidTSS => true
  | .segNotPresent => true
  | .stackSegFault => true
  | .generalProtect => true
  | .pageFault => true
  | _ => false

/-- The selectors that name no segment. An access through one is a general protection fault. -/
def nullSelector (s : Selector) : Bool := s &&& 0xFFFC#16 = 0

/-- `pop dword [_ErrorCode]`, which stores through DS. -/
def popErrorCode (refused : Selector → Bool) (m : Machine) : Option Machine :=
  if refused (m.seg .ds) then none
  else some { m.drop 1 with env := { m.env with errorCode := m.stack 0 } }

/-- `MakeExcept` up to the call: EAX and EDX are the arguments of the C function. `setz` sets the
first when the tested bit was clear, and the second leaves out the lowest dword of the frame.
There is no call when the first instruction faults. -/
def exceptEnter (refused : Selector → Bool) (name : ExceptName) (m : Machine) :
    Option Machine := do
  let m ← if errcode name then popErrorCode refused m else some m
  let m := restoreSegsIfNecessary (saveTrapRegs m)
  let m := m.set .eax (if zf m.eflags then 1 else 0)
  return m.set .edx (m.gpr .esp + 4#32)

def exceptLeave (m : Machine) : Machine := iret (restTrapRegs m)

/-- `GetErrCode`, up to its `ret`. -/
def getErrCode (m : Machine) : Machine := m.set .eax m.env.errorCode

/-- `ScGetFaultErrorCode`. -/
def scGetFaultErrorCode (m : Machine) : DWORD := m.env.errorCode

/-! ## Interrupt lines -/

/-- `pop dword [TheIRQ]`, which stores through DS. -/
def popTheIRQ (refused : Selector → Bool) (m : Machine) : Option Machine :=
  if refused (m.seg .ds) then none
  else some { m.drop 1 with env := { m.env with theIRQ := m.stack 0 } }

/-- The stub of a line, and `Continue` up to the call of `InMasterDispatch`: EAX and EDX are its
arguments. It reads `TheIRQ` through the DS it has stored it through. -/
def irqEnter (refused : Selector → Bool) (irq : Irq) (m : Machine) : Option Machine := do
  let m ← popTheIRQ refused (m.push irq.vint)
  let m := saveTrapRegs m
  let m := m.set .eax (m.gpr .esp + 48#32)
  return m.set .edx m.env.theIRQ

/-- `Continue` after the call. It drops a dword that nobody pushed. -/
def irqLeave (m : Machine) : Machine := iret (restTrapRegs (m.drop 1))

/-! ## C code -/

/-- The registers a C function gives back as it found them. -/
def calleeSaved : List Reg := [.ebx, .esi, .edi, .ebp, .esp]

/-- The body of a C function, from its first instruction to its `ret`: it gives back the callee
saved registers and the selectors, and leaves a page of its callers' stack alone. -/
structure CCode where
  run : Machine → Machine
  saved : ∀ m, ∀ r ∈ calleeSaved, (run m).gpr r = m.gpr r
  seg : ∀ m, (run m).seg = m.seg
  stack : ∀ m, ∀ i < 1024, (run m).stack i = m.stack i

/-- A C function that returns at once. -/
instance : Inhabited CCode := ⟨⟨id, fun _ _ _ => rfl, fun _ => rfl, fun _ _ _ => rfl⟩⟩

/-- A stub's call of a C function. -/
def CCode.call (layout : Layout) (site : Label) (h : CCode) (m : Machine) : Machine :=
  Cpu.call (layout.addr site) h.run m

/-! ## From the interrupted code and back to it -/

/-- The exceptions for which the processor pushes an error code. -/
def pushesErrorCode (v : Fin 15) : Bool := v ∈ [(8 : Fin 15), 10, 11, 12, 13, 14]

/-- The exception whose stub the processor comes to, and the machine at the stub's first
instruction. -/
def exceptDelivered (layout : Layout) (idt : IDT) (v : Fin 15) (err : DWORD) (c : Machine) :
    Option (ExceptName × Machine) := do
  let pushed := if pushesErrorCode v then some err else none
  match ← deliverVector layout idt (exceptVector v) pushed c with
  | (.lowExcept name, m) => return (name, m)
  | _ => none

/-- The machine at the call of the exception's C function, if it comes to that. -/
def exceptEntry (refused : Selector → Bool) (layout : Layout) (idt : IDT) (v : Fin 15)
    (err : DWORD) (c : Machine) : Option (ExceptName × Machine) := do
  let (name, m) ← exceptDelivered layout idt v err c
  return (name, ← exceptEnter refused name m)

/-- The machine after the C function and the stub's `iret`. -/
def exceptExit (layout : Layout) (name : ExceptName) (handler : CCode) (m : Machine) : Machine :=
  exceptLeave (handler.call layout (.afterExcept name) m)

/-- The register context at an address, as C code sees it. -/
def contextAt (mem : Mem) (regs : PTR) : Context :=
  fun i => mem.read32 (regs + BitVec.ofNat 32 (4 * i.val))

/-! ## What the stubs do -/

section Stubs

variable (m : Machine)

/-- Above the eight words that `SaveTrapRegs` pushes is what was on the stack before. -/
theorem saveTrapRegs_stack {i : Nat} (hi : i < 2 ^ 27) :
    (saveTrapRegs m).stack (i + 8) = m.stack i := by
  unfold saveTrapRegs pushReg
  rw [stack_push_succ _ _ (i := i + 7) (by omega), stack_push_succ _ _ (i := i + 6) (by omega),
    stack_push_succ _ _ (i := i + 5) (by omega), stack_push_succ _ _ (i := i + 4) (by omega),
    stack_push_succ _ _ (i := i + 3) (by omega), stack_push_succ _ _ (i := i + 2) (by omega),
    stack_push_succ _ _ (i := i + 1) (by omega), stack_push_succ _ _ (i := i) (by omega)]

/-- The registers of `c` are in the frame on top of `d`'s stack, where `RestTrapRegs` looks for
them. -/
structure FrameHolds (c d : Machine) : Prop where
  eax : d.stack 0 = c.gpr .eax
  ebx : d.stack 1 = c.gpr .ebx
  ecx : d.stack 2 = c.gpr .ecx
  edx : d.stack 3 = c.gpr .edx
  esi : d.stack 4 = c.gpr .esi
  edi : d.stack 5 = c.gpr .edi
  ebp : d.stack 7 = c.gpr .ebp
  esp : d.gpr .esp = c.gpr .esp - 32#32

/-- What a stub has saved stays saved as long as the eight words of it are on the stack. -/
theorem FrameHolds.congr {c d e : Machine} (h : FrameHolds c d)
    (hstack : ∀ i < 8, e.stack i = d.stack i) (hesp : e.gpr .esp = d.gpr .esp) :
    FrameHolds c e where
  eax := (hstack 0 (by decide)).trans h.eax
  ebx := (hstack 1 (by decide)).trans h.ebx
  ecx := (hstack 2 (by decide)).trans h.ecx
  edx := (hstack 3 (by decide)).trans h.edx
  esi := (hstack 4 (by decide)).trans h.esi
  edi := (hstack 5 (by decide)).trans h.edi
  ebp := (hstack 7 (by decide)).trans h.ebp
  esp := hesp.trans h.esp

/-- The stub pushes eight words and stores nothing else. -/
theorem saveTrapRegs_pushed : Pushed 8 m (saveTrapRegs m) :=
  (Pushed.refl m).push _ |>.push _ |>.push _ |>.push _ |>.push _ |>.push _ |>.push _ |>.push _

/-- Each of them is a register of the interrupted code. -/
theorem saveTrapRegs_holds : FrameHolds m (saveTrapRegs m) := by
  refine ⟨?_, ?_, ?_, ?_, ?_, ?_, ?_, (saveTrapRegs_pushed m).esp⟩
  all_goals unfold saveTrapRegs pushReg
  all_goals simp (disch := decide) [stack_push_succ]

@[simp] theorem saveTrapRegs_seg : (saveTrapRegs m).seg = m.seg := rfl

@[simp] theorem saveTrapRegs_tss : (saveTrapRegs m).tss = m.tss := rfl

/-- `RestTrapRegs` takes eight dwords off the stack, whatever is in them. -/
theorem restTrapRegs_stack (i : Nat) : (restTrapRegs m).stack i = m.stack (8 + i) := by
  unfold restTrapRegs
  rw [stack_pop _ (by decide), stack_drop, stack_pop _ (by decide), stack_pop _ (by decide),
    stack_pop _ (by decide), stack_pop _ (by decide), stack_pop _ (by decide),
    stack_pop _ (by decide)]
  congr 1
  omega

/-- And it gives back the registers it finds there, those of the interrupted code, if the words are
still what was saved. -/
theorem restTrapRegs_gpr {c d : Machine} (h : FrameHolds c d) : (restTrapRegs d).gpr = c.gpr := by
  funext r
  unfold restTrapRegs
  cases r
  all_goals simp (disch := decide) only [pop_self, pop_of_ne, pop_esp, drop_of_ne, drop_esp,
    stack_pop, stack_drop, Nat.reduceAdd, Nat.reduceMul]
  · exact h.eax
  · exact h.ebx
  · exact h.ecx
  · exact h.edx
  · exact h.esi
  · exact h.edi
  · exact h.ebp
  · rw [h.esp]
    bv_omega

@[simp] theorem restTrapRegs_seg : (restTrapRegs m).seg = m.seg := rfl

@[simp] theorem restoreSegsIfNecessary_mem : (restoreSegsIfNecessary m).mem = m.mem := by
  unfold restoreSegsIfNecessary
  dsimp only
  split <;> rfl

@[simp] theorem restoreSegsIfNecessary_tss : (restoreSegsIfNecessary m).tss = m.tss := by
  unfold restoreSegsIfNecessary
  dsimp only
  split <;> rfl

@[simp] theorem restoreSegsIfNecessary_env : (restoreSegsIfNecessary m).env = m.env := by
  unfold restoreSegsIfNecessary
  dsimp only
  split <;> rfl

/-- To load the selectors goes through EAX, and no other register is used. -/
theorem restoreSegsIfNecessary_gpr {r : Reg} (hr : r ≠ .eax) :
    (restoreSegsIfNecessary m).gpr r = m.gpr r := by
  unfold restoreSegsIfNecessary
  dsimp only
  split <;> simp [Cpu.load, hr]

/-- The segments are set in registers, and so the stack stays. -/
theorem restoreSegsIfNecessary_stack (i : Nat) :
    (restoreSegsIfNecessary m).stack i = m.stack i :=
  stack_congr (restoreSegsIfNecessary_mem m) (restoreSegsIfNecessary_gpr m (by decide)) i

/-- The mask of the test is the VM flag. -/
theorem and_bit17_eq_zero (v : DWORD) : v &&& 1#32 <<< 17 = 0 ↔ vm v = false := by
  have hpow : (1#32 <<< 17 : DWORD) = BitVec.twoPow 32 17 := by decide
  rw [hpow, BitVec.and_twoPow]
  unfold vm
  cases v.getLsbD 17 <;> decide

/-- The zero flag it leaves says that bit 17 of the dword it tested is clear. -/
theorem restoreSegsIfNecessary_zf :
    zf (restoreSegsIfNecessary m).eflags = !vm (m.stack 11) := by
  have htest : (restoreSegsIfNecessary m).eflags =
      (Cpu.test (m.stack 11) (1#32 <<< 17) m).eflags := by
    unfold restoreSegsIfNecessary
    dsimp only
    split <;> rfl
  rw [htest, test_zf]
  cases hvm : vm (m.stack 11) with
  | false => exact decide_eq_true ((and_bit17_eq_zero _).mpr hvm)
  | true =>
    refine decide_eq_false fun hzero => ?_
    rw [(and_bit17_eq_zero _).mp hzero] at hvm
    cases hvm

/-- With that bit clear the selectors are left alone, and the handler runs with those of the
interrupted code. -/
theorem restoreSegsIfNecessary_seg (h : vm (m.stack 11) = false) :
    (restoreSegsIfNecessary m).seg = m.seg := by
  have hzf : zf (restoreSegsIfNecessary m).eflags = true := by
    rw [restoreSegsIfNecessary_zf, h]
    rfl
  unfold restoreSegsIfNecessary at hzf ⊢
  dsimp only at hzf ⊢
  split
  · rfl
  · rename_i hclear
    rw [if_neg hclear] at hzf
    exact absurd hzf hclear

/-- The machine an exception's stub builds its frame on, once it has the error code. -/
def exceptBase (name : ExceptName) (m : Machine) : Machine :=
  if errcode name then { m.drop 1 with env := { m.env with errorCode := m.stack 0 } } else m

/-- The base of the frame is computed without a store. -/
theorem exceptBase_mem (name : ExceptName) : (exceptBase name m).mem = m.mem := by
  unfold exceptBase
  split <;> rfl

/-- The machine at the call of an exception's C function, once the stub has the error code. -/
def exceptCalled (name : ExceptName) (m : Machine) : Machine :=
  let m := restoreSegsIfNecessary (saveTrapRegs (exceptBase name m))
  let m := m.set .eax (if zf m.eflags then 1 else 0)
  m.set .edx (m.gpr .esp + 4#32)

/-- A stub comes to its call unless it takes an error code and DS is refused. -/
theorem exceptEnter_eq (refused : Selector → Bool) (name : ExceptName) :
    exceptEnter refused name m =
      if errcode name = true ∧ refused (m.seg .ds) = true then none
      else some (exceptCalled name m) := by
  unfold exceptEnter exceptCalled exceptBase popErrorCode
  cases errcode name with
  | false => rfl
  | true =>
    cases refused (m.seg .ds) with
    | false => rfl
    | true => rfl

/-- After the registers have been saved, the stub's way in leaves the stack alone. -/
theorem exceptCalled_saved (name : ExceptName) (i : Nat) :
    (exceptCalled name m).stack i = (saveTrapRegs (exceptBase name m)).stack i := by
  unfold exceptCalled
  dsimp only
  rw [stack_set_of_ne _ _ (by decide), stack_set_of_ne _ _ (by decide),
    restoreSegsIfNecessary_stack]

/-- The stub of an exception pushes eight registers below the base of its frame, and changes no
other memory. -/
theorem exceptCalled_pushed (name : ExceptName) :
    Pushed 8 (exceptBase name m) (exceptCalled name m) := by
  let base := exceptBase name m
  refine (saveTrapRegs_pushed base).congr ?_ (restoreSegsIfNecessary_mem (saveTrapRegs base))
  unfold exceptCalled
  dsimp only
  rw [set_gpr, set_gpr, if_neg (by decide), if_neg (by decide)]
  exact restoreSegsIfNecessary_gpr (saveTrapRegs base) (by decide)

/-- Under the eight registers the stack of an exception's C function is the processor's frame. -/
theorem exceptCalled_stack (name : ExceptName) {i : Nat} (hi : i < 2 ^ 27) :
    (exceptCalled name m).stack (i + 8) = (exceptBase name m).stack i := by
  rw [exceptCalled_saved, saveTrapRegs_stack _ hi]

/-- At the call of the handler the stub has pushed eight words in all. -/
theorem exceptCalled_esp (name : ExceptName) :
    (exceptCalled name m).gpr .esp = (exceptBase name m).gpr .esp - 32#32 :=
  (exceptCalled_pushed m name).esp

/-- The registers are saved when the handler is called. -/
theorem exceptCalled_holds (name : ExceptName) :
    FrameHolds (exceptBase name m) (exceptCalled name m) := by
  refine (saveTrapRegs_holds (exceptBase name m)).congr (fun i _ => exceptCalled_saved m name i) ?_
  rw [exceptCalled_esp, (saveTrapRegs_pushed _).esp]

/-- The stub reloads the data selectors when bit 17 is set in the dword above EFLAGS. -/
theorem exceptCalled_seg (name : ExceptName) (h : vm ((exceptBase name m).stack 3) = false) :
    (exceptCalled name m).seg = (exceptBase name m).seg := by
  have htested : vm ((saveTrapRegs (exceptBase name m)).stack (3 + 8)) = false := by
    rw [saveTrapRegs_stack _ (by decide), h]
  unfold exceptCalled
  dsimp only
  rw [set_seg, set_seg]
  exact restoreSegsIfNecessary_seg _ htested

/-- The stub does not change the task state segment. -/
theorem exceptCalled_tss (name : ExceptName) : (exceptCalled name m).tss = m.tss := by
  unfold exceptCalled
  dsimp only
  rw [set_tss, set_tss, restoreSegsIfNecessary_tss, saveTrapRegs_tss]
  unfold exceptBase
  split <;> rfl

/-- The variable has the error code that was on top of the stack. -/
theorem exceptCalled_errorCode (name : ExceptName) (h : errcode name = true) :
    (exceptCalled name m).env.errorCode = m.stack 0 := by
  unfold exceptCalled
  dsimp only
  rw [set_env, set_env, restoreSegsIfNecessary_env]
  show (exceptBase name m).env.errorCode = _
  unfold exceptBase
  rw [if_pos h]

/-- The first argument of an exception's C function is 1 when bit 17 of the twelfth dword of the
stack is clear. -/
theorem exceptCalled_eax (name : ExceptName) :
    (exceptCalled name m).gpr .eax = if vm ((exceptCalled name m).stack 11) then 0 else 1 := by
  unfold exceptCalled
  dsimp only
  rw [stack_set_of_ne _ _ (by decide), stack_set_of_ne _ _ (by decide),
    restoreSegsIfNecessary_stack, restoreSegsIfNecessary_zf]
  cases vm ((saveTrapRegs (exceptBase name m)).stack 11) <;> simp

/-- The second argument of the handler points one dword above the stack pointer. -/
theorem exceptCalled_edx (name : ExceptName) :
    (exceptCalled name m).gpr .edx = (exceptCalled name m).gpr .esp + 4#32 := by
  unfold exceptCalled
  simp

/-- The pointer in EDX is to the saved words, so that the handler reads the context off the stack.
The first field is one word above what the stub pushed last. -/
theorem contextAt_exceptCalled (name : ExceptName) (i : Fin 17) :
    contextAt (exceptCalled name m).mem ((exceptCalled name m).gpr .edx) i =
      (exceptCalled name m).stack (i.val + 1) := by
  unfold contextAt stack
  rw [exceptCalled_edx, Nat.mul_add, BitVec.ofNat_add, BitVec.add_assoc, BitVec.add_comm (4#32)]

/-- The number of the line comes through the stack and `TheIRQ`, if the stub is not refused the
access to that. -/
theorem irqEnter_edx {refused : Selector → Bool} {irq : Irq} {m e : Machine}
    (h : irqEnter refused irq m = some e) : e.gpr .edx = irq.vint := by
  have hpop : (m.push irq.vint).stack 0 = irq.vint := stack_push_zero m irq.vint
  unfold irqEnter popTheIRQ at h
  obtain ⟨p, hp, h⟩ := Option.bind_eq_some_iff.mp h
  split at hp
  · cases hp
  · cases hp
    cases h
    rw [set_gpr, if_pos rfl]
    exact hpop

end Stubs

/-! ## What C code leaves -/

section CCode

variable (layout : Layout) (site : Label) (h : CCode) (m : Machine)

/-- A C function called from a stub keeps the words above its return address. This is the convention
the stub relies on, and a field of `CCode`. -/
theorem CCode.call_stack {i : Nat} (hi : i < 1023) :
    (h.call layout site m).stack i = m.stack i := by
  unfold CCode.call Cpu.call
  rw [stack_drop, h.stack _ _ (by omega), Nat.add_comm, stack_push_succ _ _ (by omega)]

/-- It returns with the stack where it was. -/
theorem CCode.call_esp : (h.call layout site m).gpr .esp = m.gpr .esp := by
  unfold CCode.call Cpu.call
  rw [drop_esp, h.saved _ .esp (by decide), push_gpr, if_pos rfl]
  bv_omega

/-- It leaves the segment registers. -/
theorem CCode.call_seg : (h.call layout site m).seg = m.seg := by
  unfold CCode.call Cpu.call
  rw [drop_seg, h.seg, push_seg]

/-- So what the stub has saved outlives the call. -/
theorem CCode.call_holds {c : Machine} (hm : FrameHolds c m) :
    FrameHolds c (h.call layout site m) :=
  hm.congr (fun _ hi => h.call_stack layout site m (by omega)) (h.call_esp layout site m)

end CCode

/-! ## The stub of an exception -/

section Entry

variable (refused : Selector → Bool) (layout : Layout) (idt : IDT) (v : Fin 15) (err : DWORD)
  (c : Machine)

/-- The machine at the first instruction of the stub. -/
def exceptStub : Machine :=
  c.deliver (layout.gate (.lowExcept (exceptName v))) (if pushesErrorCode v then some err else none)

/-- After `FillIDT` an exception comes to the stub of its own name. -/
theorem exceptDelivered_fillIDT :
    exceptDelivered layout (fillIDT layout idt) v err c =
      some (exceptName v, exceptStub layout v err c) := by
  unfold exceptDelivered
  dsimp only
  rw [deliverVector_of_descriptor (lowExcept_mem_stubs v) (fillIDT_except layout idt v)]
  rfl

/-- An exception through the IDT that `InitIA32` has filled goes to the stub with its name, if the
processor does not refuse the first instruction of that stub. -/
theorem exceptEntry_fillIDT :
    exceptEntry refused layout (fillIDT layout idt) v err c =
      (exceptEnter refused (exceptName v) (exceptStub layout v err c)).map
        fun m => (exceptName v, m) := by
  unfold exceptEntry
  rw [exceptDelivered_fillIDT, Option.map_eq_bind]
  rfl

variable {refused layout idt v err c}

/-- If it comes to a call, it is of the function of that name, behind the stub. -/
theorem exceptEntry_called {name : ExceptName} {m : Machine}
    (h : exceptEntry refused layout (fillIDT layout idt) v err c = some (name, m)) :
    name = exceptName v ∧ m = exceptCalled (exceptName v) (exceptStub layout v err c) := by
  rw [exceptEntry_fillIDT, exceptEnter_eq] at h
  split at h
  · cases h
  · cases h
    exact ⟨rfl, rfl⟩

/-- A stub that takes no error code always comes to the call of its handler: nothing before that
goes through DS. -/
theorem exceptEntry_of_uncoded (hv : errcode (exceptName v) = false) :
    exceptEntry refused layout (fillIDT layout idt) v err c =
      some (exceptName v, exceptCalled (exceptName v) (exceptStub layout v err c)) := by
  rw [exceptEntry_fillIDT, exceptEnter_eq, if_neg (by rw [hv]; simp)]
  rfl

/-- One that takes an error code does not when DS is refused. -/
theorem exceptEntry_of_refused (hv : errcode (exceptName v) = true)
    (hds : refused ((exceptStub layout v err c).seg .ds) = true) :
    exceptEntry refused layout (fillIDT layout idt) v err c = none := by
  rw [exceptEntry_fillIDT, exceptEnter_eq, if_pos ⟨hv, hds⟩]
  rfl

end Entry

end OS90.Kernel
