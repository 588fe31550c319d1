import OS90.Kernel.V86

/-!
# Real-mode calls from the kernel

`ScVirtual86_Int` as a whole, and `MmAllocateDosMemory` of `MemoryMGR.c`, which calls DOS through
it. The real-mode program is any function of the machine it starts in (`RealMode`), and the handler
of the fault that ends it is C code around `ScOnExceptRetReenterCallerV86` that writes to its own
stack only (`QuietPath`).

The call comes back if the stub's `iret`, at the end of that fault, takes the processor to the
instruction behind the call of `ScEnterV86` (`AtCaller`). It never does: either the stub has faulted
on its own first instruction, or its `iret` takes EFLAGS from the frame of the fault, where the VM
bit is set (`scVirtual86_Int_none`).

What the C code means to happen is kept beside it. `virtual86Returned` is the caller going on with
its registers and whatever the call has left in memory. Such a call would have written to the frame
of `ScVirtual86_Int`, the stack below it and the memory real mode reaches, and nowhere else
(`virtual86Returned_mem`), the caller's context not among them.
-/

namespace OS90.Kernel

open OS90.Ia32 OS90.Ia32.Cpu

/-- What real-mode code can address: a megabyte and the high memory area. -/
def realModeLimit : Nat := 0x110000

/-- A real-mode program, from the machine it is entered in to the fault that ends it. -/
structure RealMode where
  run : Machine → V86Exit
  mem : ∀ m, Mem.Within 0#32 realModeLimit m.mem ((run m).mem m.mem)
  tss : ∀ m, (run m).tss = id

/-- A handler's C code that writes to no memory but four megabytes of stack below its own return
address. -/
structure QuietPath extends HandlerPath where
  before_mem : ∀ m, Mem.Within (m.gpr .esp - 0x400000#32) 0x400000 m.mem (before m).mem
  after_mem : ∀ m, Mem.Within (m.gpr .esp + BitVec.ofNat 32 (4 * depth) - 0x400000#32) 0x400000
    m.mem (after m).mem

/-- A handler that does nothing else. -/
def QuietPath.direct : QuietPath where
  toHandlerPath := .direct
  before_mem _ := Mem.Within.refl _ _ _
  after_mem _ := Mem.Within.refl _ _ _

/-- The stack frame of `ScVirtual86_Int`: ESP when it comes to call `ScEnterV86`, the size of what
is above, and the place of its local array there. -/
structure Frame where
  callEsp : DWORD
  size : Nat
  size_lt : size < 2 ^ 24
  place : Nat
  place_le : place + 68 ≤ size

def Frame.newContext (f : Frame) : PTR := f.callEsp + BitVec.ofNat 32 f.place

/-- The end of so many bytes of stack below the frame. -/
def Frame.below (f : Frame) (d : Nat) : PTR := f.callEsp - BitVec.ofNat 32 d

/-- The lower end of the sixteen megabytes of stack below the frame. -/
def Frame.low (f : Frame) : PTR := f.callEsp - 0x1000000#32

/-- The size of the frame and the stack below it. -/
def Frame.span (f : Frame) : Nat := 0x1000000 + f.size

/-- An address neither in the frame, nor in the stack below it, nor in reach of real mode. -/
def Frame.Clear (f : Frame) (x : PTR) : Prop :=
  f.span ≤ (x - f.low).toNat ∧ realModeLimit ≤ x.toNat

/-- A call of `ScVirtual86_Int`: its frame, and the caller's context elsewhere. -/
structure CallSite where
  frame : Frame
  context : PTR
  clear : ∀ k < 68, frame.Clear (context + BitVec.ofNat 32 k)

section Call

variable (refused : Selector → Bool) (layout : Layout) (idt : IDT) (rm : RealMode) (h : QuietPath)
  (err : DWORD)

/-- The call of `ScEnterV86`, with its argument and return address. -/
def Frame.enter (f : Frame) (m : Machine) : Machine :=
  m.set .esp f.callEsp |>.push f.newContext |>.push (layout.addr .afterEnterV86)

/-- The machine in which the real-mode program starts. -/
def virtual86Entered (f : Frame) (context : PTR) (vector : BYTE) (m : Machine) : Machine :=
  scEnterV86 layout (f.enter layout (virtual86IntBegin f.newContext context vector m))

/-- The processor is in ring 0, at the instruction behind the call of `ScEnterV86`. -/
def AtCaller (d : Machine) : Prop :=
  vm d.eflags = false ∧ d.seg .cs &&& 3 = 0 ∧ d.eip = layout.addr .afterEnterV86

instance (d : Machine) : Decidable (AtCaller layout d) := inferInstanceAs (Decidable (_ ∧ _ ∧ _))

/-- `ScVirtual86_Int`, if the fault that ends the real-mode program brings the processor back to it.
`err` is the error code of that fault. -/
def scVirtual86_Int (f : Frame) (context : PTR) (vector : BYTE) (m : Machine) :
    Option Machine := do
  let entered := virtual86Entered layout f context vector m
  let (_, fault) ← exceptEntry refused layout idt 13 err ((rm.run entered).fault entered)
  let back := reentered layout h.toHandlerPath fault
  if AtCaller layout back then return virtual86IntEnd back else none

/-- `MmAllocateDosMemory` up to its call, with its local array as the context. Of the seventeen
dwords it initialises two. -/
def allocateRequest (regparm : PTR) (paragraphs : WORD) (m : Machine) : Machine :=
  (m.store (regparm + tf RD.eax) 0x4800#32).store (regparm + tf RD.ebx) (paragraphs.setWidth 32)

/-- And after it: what it answers. -/
def allocateAnswer (regs : Context) : WORD :=
  if regs RD.eflags &&& 1#32 ≠ 0 then 0xFFFF else (regs RD.eax).setWidth 16

/-- `MmAllocateDosMemory`. -/
def mmAllocateDosMemory (site : CallSite) (paragraphs : WORD) (m : Machine) : Option WORD := do
  let m ← scVirtual86_Int refused layout idt rm h err site.frame site.context 0x21
    (allocateRequest site.context paragraphs m)
  return allocateAnswer (contextAt m.mem site.context)

end Call

/-! ## What a call writes to -/

theorem tf_toNat (i : Fin 17) : (tf i).toNat = 4 * i.val := by
  have hi := i.isLt
  unfold tf
  rw [BitVec.toNat_ofNat]
  omega

/-- A copy goes to the eighteen dwords below ESP0, whichever field it is for. -/
theorem copySaved_within (src : DWORD) (dst : Fin 17) (m : Machine) :
    Mem.Within (m.gpr .eax - 72#32) 72 m.mem (copySaved src dst m).mem := by
  have hdst := dst.isLt
  have hplace : m.gpr .eax - 4#32 + (tf dst - tfSize) - (m.gpr .eax - 72#32) = tf dst := by
    unfold tfSize
    grind
  refine (Mem.write32_within _ _ _).mono ?_
  show (m.gpr .eax - 4#32 + (tf dst - tfSize) - (m.gpr .eax - 72#32)).toNat + 4 ≤ 72
  rw [hplace, tf_toNat]
  omega

section Within

variable {layout : Layout} {m : Machine}

/-- A store to a field of a context is within the context. -/
theorem store_tf_within (a : PTR) (i : Fin 17) (v : DWORD) :
    Mem.Within a 68 m.mem (m.store (a + tf i) v).mem := by
  have hi := i.isLt
  have hdist : a + tf i - a = tf i := by grind
  refine (Mem.write32_within _ _ _).mono ?_
  rw [hdist, tf_toNat]
  omega

/-- To come back to the caller writes one dword below ESP and eighteen below ESP0. The premises say
where both are from one base. -/
theorem scOnExcept_within {b : DWORD} {c d n : Nat} (hesp : m.gpr .esp = b - BitVec.ofNat 32 c)
    (hesp0 : m.tss.esp0 = b + 68#32) (hc : c + 4 ≤ d) (hn : d + 68 ≤ n) :
    Mem.Within (b - BitVec.ofNat 32 d) n m.mem (scOnExceptRetReenterCallerV86 layout m).mem := by
  have hfind : Mem.Within (b - BitVec.ofNat 32 d) n m.mem (findSaved layout m).mem := by
    rw [findSaved_mem, push_mem, hesp]
    exact (Mem.write32_within _ _ _).below (Mem.sub_sub_ofNat b c 4) hc (by omega)
  have heax : (findSaved layout m).gpr .eax = b + 68#32 := findSaved_eax.trans hesp0
  have hcopy : ∀ (src : DWORD) (dst : Fin 17) {q : Machine}, q.gpr .eax = b + 68#32 →
      Mem.Within (b - BitVec.ofNat 32 d) n m.mem q.mem →
        (copySaved src dst q).gpr .eax = b + 68#32 ∧
          Mem.Within (b - BitVec.ofNat 32 d) n m.mem (copySaved src dst q).mem := by
    intro src dst q heax hq
    have hplace : q.gpr .eax - 72#32 = b - BitVec.ofNat 32 4 := by
      rw [heax]
      grind
    refine ⟨(copySaved_gpr _ _ (by decide)).trans heax, hq.trans ?_⟩
    exact (copySaved_within src dst q).below hplace (by omega) (by omega)
  obtain ⟨heax₁, h₁⟩ := hcopy 0 RD.ebp heax hfind
  obtain ⟨heax₂, h₂⟩ := hcopy 4 RD.esi heax₁ h₁
  obtain ⟨heax₃, h₃⟩ := hcopy 8 RD.esi heax₂ h₂
  exact (hcopy 12 RD.esi heax₃ h₃).2

/-- The whole way out of the fault writes to the frame and the stack that the handler uses. -/
theorem reentered_within (layout : Layout) (h : QuietPath)
    (hesp0 : m.tss.esp0 = m.gpr .esp + 68#32) :
    Mem.Within (m.gpr .esp - 0x40000C#32) 0x400050 m.mem
      (reentered layout h.toHandlerPath m).mem := by
  have hdepth := h.depth_lt
  let b := m.gpr .esp
  let p := m.push (layout.addr (.afterExcept .generalProtect))
  let q := (h.before p).push (layout.addr .afterReenter)
  let e := (h.before p).call (layout.addr .afterReenter) (scOnExceptRetReenterCallerV86 layout)
  have hmem : (reentered layout h.toHandlerPath m).mem = (h.after e).mem := by
    unfold reentered exceptLeave
    rw [iret_mem]
    rfl
  -- how far below the frame ESP is at each step
  have hp : p.gpr .esp = b - BitVec.ofNat 32 4 := by
    show (m.push _).gpr .esp = _
    rw [push_gpr, if_pos rfl]
  have hq : q.gpr .esp = b - BitVec.ofNat 32 (4 + (4 * h.depth + 4)) := by
    show ((h.before p).push _).gpr .esp = _
    rw [push_gpr, if_pos rfl, h.before_esp, hp, Mem.sub_sub_ofNat, Mem.sub_sub_ofNat]
  have he : e.gpr .esp + BitVec.ofNat 32 (4 * h.depth) = b - BitVec.ofNat 32 4 := by
    show ((scOnExceptRetReenterCallerV86 layout q).drop 1).gpr .esp + _ = _
    rw [drop_esp, scOnExcept_esp, hq, BitVec.ofNat_add, BitVec.ofNat_add]
    grind
  have hquiet : b - BitVec.ofNat 32 4 - 0x400000#32 = b - BitVec.ofNat 32 (4 + 0x400000) :=
    Mem.sub_sub_ofNat b 4 0x400000
  have h₁ : Mem.Within (b - BitVec.ofNat 32 0x40000C) 0x400050 m.mem p.mem :=
    (Mem.write32_within _ _ _).below (c := 4) rfl (by omega) (by omega)
  have h₂ : Mem.Within (b - BitVec.ofNat 32 0x40000C) 0x400050 p.mem (h.before p).mem := by
    have hbefore := h.before_mem p
    rw [hp, hquiet] at hbefore
    exact hbefore.below rfl (by omega) (by omega)
  have h₃ : Mem.Within (b - BitVec.ofNat 32 0x40000C) 0x400050 (h.before p).mem q.mem := by
    have hplace : (h.before p).gpr .esp - 4#32 = b - BitVec.ofNat 32 (4 + (4 * h.depth + 4)) := by
      rw [h.before_esp, hp, Mem.sub_sub_ofNat, Mem.sub_sub_ofNat]
    exact (Mem.write32_within _ _ _).below hplace (by omega) (by omega)
  have h₄ : Mem.Within (b - BitVec.ofNat 32 0x40000C) 0x400050 q.mem e.mem := by
    have hqesp0 : q.tss.esp0 = b + 68#32 := (congrArg Tss.esp0 (h.before_tss p)).trans hesp0
    have hemem : e.mem = (scOnExceptRetReenterCallerV86 layout q).mem := call_mem _ _ _
    rw [hemem]
    exact scOnExcept_within hq hqesp0 (by omega) (by omega)
  have h₅ : Mem.Within (b - BitVec.ofNat 32 0x40000C) 0x400050 e.mem (h.after e).mem := by
    have hafter := h.after_mem e
    rw [he, hquiet] at hafter
    exact hafter.below rfl (by omega) (by omega)
  rw [hmem]
  exact h₁.trans (h₂.trans (h₃.trans (h₄.trans h₅)))

/-- The copy of a context writes its 68 bytes. -/
theorem copyContext_within (dst src : PTR) :
    Mem.Within dst 68 m.mem (copyContext dst src m).mem := by
  unfold copyContext
  induction List.finRange 17 generalizing m with
  | nil => exact Mem.Within.refl _ _ _
  | cons i l ih =>
    rw [List.foldl_cons]
    refine Mem.Within.trans ?_ ih
    exact store_tf_within dst i _

/-- The local array takes the context and its new entry point, and nothing else is written. -/
theorem virtual86IntBegin_within (newContext context : PTR) (vector : BYTE) :
    Mem.Within newContext 68 m.mem (virtual86IntBegin newContext context vector m).mem := by
  let begun : Machine := { m with env := { m.env with supervisorCall := 1 } }
  have hcopy : Mem.Within newContext 68 m.mem (copyContext newContext context begun).mem :=
    copyContext_within (m := begun) newContext context
  unfold virtual86IntBegin
  rw [iaIOPB_Allow_mem]
  exact hcopy.trans ((store_tf_within newContext RD.cs _).trans
    (store_tf_within newContext RD.eip _))

end Within

section Frame

variable (layout : Layout) (f : Frame)

/-- A change that begins `c` bytes below the frame and ends within it. -/
theorem Frame.within {c d n : Nat} {m m' : Mem}
    (h : Mem.Within (f.callEsp - BitVec.ofNat 32 c) n m m') (hc : c ≤ d) (hn : n ≤ c + f.size) :
    Mem.Within (f.below d) (d + f.size) m m' :=
  h.below rfl hc (by omega)

/-- What changes in the local array changes in the frame, and in any stretch of stack below it
too. -/
theorem Frame.within_local {d : Nat} {m m' : Mem} (h : Mem.Within f.newContext 68 m m')
    (hd : d ≤ 0x1000000) : Mem.Within (f.below d) (d + f.size) m m' := by
  refine h.mono ?_
  have hdist : f.newContext - f.below d = BitVec.ofNat 32 d + BitVec.ofNat 32 f.place := by
    unfold Frame.below Frame.newContext
    grind
  have hsize := f.size_lt
  have hplace := f.place_le
  rw [hdist, BitVec.toNat_add, BitVec.toNat_ofNat, BitVec.toNat_ofNat]
  omega

/-- The entry to the routine pushes two words on the stack of the call. -/
theorem Frame.enter_pushed (m : Machine) :
    Pushed 2 (m.set .esp f.callEsp) (f.enter layout m) :=
  ((Pushed.refl _).push _).push _

theorem Frame.enter_esp (m : Machine) :
    (f.enter layout m).gpr .esp = f.callEsp - 8#32 := by
  rw [(f.enter_pushed layout m).esp, set_gpr, if_pos rfl]

variable (context : PTR) (vector : BYTE) (m : Machine)

/-- When V86 mode is entered, ESP0 is under the words that the entry has pushed, so that a fault
pushes its frame below those. -/
theorem virtual86Entered_esp0 :
    (virtual86Entered layout f context vector m).tss.esp0 = f.callEsp - 32#32 := by
  unfold virtual86Entered
  rw [scEnterV86_tss, enterSave_esp0, Frame.enter_esp]
  grind

/-- In V86 mode all ports are allowed, by the offset that the call stores in the task state
segment. -/
theorem virtual86Entered_iobpOff :
    (virtual86Entered layout f context vector m).tss.iobpOff = TSS_ALLOW_OFFSET := by
  unfold virtual86Entered
  rw [scEnterV86_tss]
  rfl

/-- Of the variables a call changes the flag of the supervisor, and sets it to one. -/
theorem virtual86Entered_env :
    (virtual86Entered layout f context vector m).env = { m.env with supervisorCall := 1 } := by
  have hbegun := virtual86IntBegin_env m f.newContext context vector
  unfold virtual86Entered
  generalize virtual86IntBegin f.newContext context vector m = begun at hbegun ⊢
  rw [← hbegun]
  unfold scEnterV86
  rw [iret_env]
  rfl

/-- Up to the real-mode program a call writes to its frame and sixteen dwords below. -/
theorem virtual86Entered_below {d : Nat} (hlow : 64 ≤ d) (hd : d ≤ 0x1000000) :
    Mem.Within (f.below d) (d + f.size) m.mem (virtual86Entered layout f context vector m).mem := by
  have hbegun := f.within_local (virtual86IntBegin_within (m := m) f.newContext context vector) hd
  unfold virtual86Entered
  generalize virtual86IntBegin f.newContext context vector m = begun at hbegun ⊢
  have hpushed := (f.enter_pushed layout begun).mem
  have hentered := scEnterV86_within layout (f.enter layout begun)
  rw [f.enter_esp layout begun, set_mem] at hpushed
  rw [f.enter_esp layout begun, Mem.sub_sub_ofNat] at hentered
  have hstack := f.within (d := d) hpushed (by omega) (by omega)
  exact hbegun.trans (hstack.trans (f.within hentered (by omega) (by omega)))

/-- What the entry writes is in the frame of the call or in the sixteen megabytes of stack below
it. -/
theorem virtual86Entered_within :
    Mem.Within f.low f.span m.mem (virtual86Entered layout f context vector m).mem :=
  virtual86Entered_below layout f context vector m (d := 0x1000000) (by decide) (by decide)

end Frame

/-! ## No call comes back -/

section Run

variable (refused : Selector → Bool) (layout : Layout) (idt : IDT) (rm : RealMode) (h : QuietPath)
  (err : DWORD) (f : Frame) (context : PTR) (vector : BYTE) (m : Machine)

/-- Whichever selectors are refused, and whatever the real-mode program and the handler do: the
`iret`, if it comes to one, is back in V86 mode. -/
theorem scVirtual86_Int_none :
    scVirtual86_Int refused layout (fillIDT layout idt) rm h err f context vector m = none := by
  obtain ⟨c, hc⟩ : ∃ c, c = (rm.run (virtual86Entered layout f context vector m)).fault
    (virtual86Entered layout f context vector m) := ⟨_, rfl⟩
  have hvm : vm c.eflags = true := by
    rw [hc]
    exact (rm.run (virtual86Entered layout f context vector m)).vm
  unfold scVirtual86_Int
  dsimp only
  rw [← hc]
  cases hentry : exceptEntry refused layout (fillIDT layout idt) 13 err c with
  | none => rfl
  | some entered =>
    obtain ⟨name, fault⟩ := entered
    have hback := reentered_vm layout h.toHandlerPath hvm (exceptEntry_called hentry).2
    rw [Option.bind_eq_bind, Option.bind_some]
    refine if_neg fun hcaller => ?_
    exact absurd (hcaller.1.symm.trans hback) (by decide)

/-- So `MmAllocateDosMemory` never answers, as the call of DOS it makes does not come back. -/
theorem mmAllocateDosMemory_none (site : CallSite) (paragraphs : WORD) :
    mmAllocateDosMemory refused layout (fillIDT layout idt) rm h err site paragraphs m = none := by
  unfold mmAllocateDosMemory
  rw [scVirtual86_Int_none]
  rfl

end Run

/-! ## Were the call to return -/

section Returned

variable (layout : Layout) (rm : RealMode) (h : QuietPath) (err : DWORD) (f : Frame)
  (context : PTR) (vector : BYTE) (m : Machine)

/-- The fault at the end of the real-mode program, at the call of its handler. -/
def realModeFault : Machine :=
  let entered := virtual86Entered layout f context vector m
  exceptCalled .generalProtect (exceptStub layout 13 err ((rm.run entered).fault entered))

/-- The machine with which the C code would go on, if the way out of the fault were to it. -/
def virtual86Returned : Machine :=
  let back := reentered layout h.toHandlerPath (realModeFault layout rm err f context vector m)
  virtual86IntEnd { m with mem := back.mem, tss := back.tss, env := back.env }

/-- A fault does not move ESP0. -/
theorem realModeFault_esp0 :
    (realModeFault layout rm err f context vector m).tss.esp0 = f.callEsp - 32#32 := by
  unfold realModeFault exceptStub
  dsimp only
  rw [exceptCalled_tss, deliver_tss]
  show ((rm.run _).tss (virtual86Entered layout f context vector m).tss).esp0 = _
  rw [rm.tss]
  exact virtual86Entered_esp0 layout f context vector m

/-- ESP is then 68 bytes below ESP0, which is the size of a context: the frame of the fault, and the
words that the stub has saved under it. -/
theorem realModeFault_esp :
    (realModeFault layout rm err f context vector m).gpr .esp = f.callEsp - 100#32 := by
  let entered := virtual86Entered layout f context vector m
  have hframe := (faultFrame (layout.gate (.lowExcept .generalProtect)) err
    (c := (rm.run entered).fault entered) (rm.run entered).vm).2
  have hesp0 := realModeFault_esp0 layout rm err f context vector m
  have hframe : (realModeFault layout rm err f context vector m).tss.esp0 =
      (realModeFault layout rm err f context vector m).gpr .esp + 68#32 := hframe
  rw [hframe] at hesp0
  grind

/-- From the fault to the caller a call would write to its frame and the stack below. -/
theorem realModeFault_within :
    Mem.Within f.low f.span
      ((rm.run (virtual86Entered layout f context vector m)).fault
        (virtual86Entered layout f context vector m)).mem
      (reentered layout h.toHandlerPath (realModeFault layout rm err f context vector m)).mem := by
  have hesp := realModeFault_esp layout rm err f context vector m
  have hesp0 := realModeFault_esp0 layout rm err f context vector m
  have hplace : (realModeFault layout rm err f context vector m).tss.esp0 =
      (realModeFault layout rm err f context vector m).gpr .esp + 68#32 := by
    rw [hesp, hesp0]
    grind
  have hback := reentered_within layout h hplace
  have hdist : f.callEsp - 100#32 - 0x40000C#32 = f.callEsp - BitVec.ofNat 32 (100 + 0x40000C) :=
    Mem.sub_sub_ofNat f.callEsp 100 0x40000C
  rw [hesp, hdist] at hback
  let entered := virtual86Entered layout f context vector m
  let faulted := (rm.run entered).fault entered
  let delivered := faulted.deliver (layout.gate (.lowExcept .generalProtect)) (some err)
  have hvm : vm faulted.eflags = true := (rm.run entered).vm
  have hfault : realModeFault layout rm err f context vector m =
      exceptCalled .generalProtect delivered := rfl
  have hframe : Mem.Within f.low f.span faulted.mem delivered.mem := by
    have hmem := deliver_within (layout.gate (.lowExcept .generalProtect)) hvm err
    rw [hfault, exceptCalled_tss, deliver_tss] at hesp0
    rw [hesp0, Mem.sub_sub_ofNat] at hmem
    exact f.within hmem (by omega) (by omega)
  have hstub : Mem.Within f.low f.span delivered.mem
      (realModeFault layout rm err f context vector m).mem := by
    have hmem := (exceptCalled_pushed delivered .generalProtect).mem
    rw [exceptBase_mem, ← hfault, hesp] at hmem
    exact f.within hmem (by omega) (by omega)
  exact hframe.trans (hstub.trans (f.within hback (by omega) (by omega)))

/-- A call would write to its frame, the stack below and the memory of real mode, and nowhere
else. -/
theorem virtual86Returned_mem {x : PTR} (hx : f.Clear x) :
    (virtual86Returned layout rm h err f context vector m).mem x = m.mem x := by
  let entered := virtual86Entered layout f context vector m
  have hend : (virtual86Returned layout rm h err f context vector m).mem x =
      ((rm.run entered).fault entered).mem x :=
    realModeFault_within layout rm h err f context vector m x hx.1
  have hreal : ((rm.run entered).fault entered).mem x = entered.mem x := by
    refine rm.mem entered x ?_
    rw [BitVec.sub_zero]
    exact hx.2
  have hbegin : entered.mem x = m.mem x :=
    virtual86Entered_within layout f context vector m x hx.1
  exact hend.trans (hreal.trans hbegin)

end Returned

/-- If a call were to return, the context of its caller would be as it was: nothing of the results
is copied there. -/
theorem virtual86Returned_context (layout : Layout) (rm : RealMode) (h : QuietPath) (err : DWORD)
    (site : CallSite) (m : Machine) (vector : BYTE) :
    contextAt (virtual86Returned layout rm h err site.frame site.context vector m).mem
        site.context = contextAt m.mem site.context :=
  contextAt_congr fun k hk =>
    virtual86Returned_mem layout rm h err site.frame site.context vector m (site.clear k hk)

end OS90.Kernel
