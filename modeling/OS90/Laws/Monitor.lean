import OS90.Kernel.GeneralProtect
import OS90.Kernel.Ia32Struct
import OS90.Laws.RealModeCall
import OS90.Lib.Run

/-!
# The V86 monitor

Two laws are about runs of calls of `ScVirtual86_Int`. A run makes such calls, from the kernel or
from the monitor emulating an INT, takes faults from V86 code, and returns from the innermost call,
in any order that nests. `IntEvent.Law` is that `supervisor_call`, which decides whether the monitor
takes an IRET, CLI or STI for the kernel's own or for a user program's, is up exactly while a call
is open. `CallRun.PermissionLaw` is that all ports are allowed while a call is open, and denied
while none is. What an event can do to either variable is said once (`intStep_cases`): a call raises
the flag and stores the offset that allows, a return stores the same offset again, and nothing else
is ever stored. So the first law holds until the outermost call returns (`supervisorRun_law_iff`),
and the second in a state exactly when a call is open in it (`permissionRun_law`).

The other two are about one fault. `CliStiLaw` is that the emulation of a CLI or STI has the
instruction's own effect on the program, and `ProgressLaw` that a fault does not come back to its
instruction: it is stepped over, or the processor is back with the caller of `ScEnterV86`, or the
process is ended. Neither holds for any fault, since the stub's `iret` is to the instruction itself,
with the flags it had (`protectRound_resumes`), if the processor ever comes to it.
-/

namespace OS90.Laws

open OS90.Ia32 OS90.Ia32.Cpu OS90.Kernel OS90.Run

/-! ## Runs of calls -/

/-- What happens, each event in whatever machine the kernel is in by then. `f` is the frame of the
call of `ScVirtual86_Int` that the event makes, if it makes one. -/
inductive IntEvent where
  | call (f : Frame) (context : PTR) (vector : BYTE) (m : Machine)
  | fault (f : Frame) (context : PTR) (m : Machine)
  | ret (m : Machine)

/-- The kernel's variables, its task state segment, and the number of calls of `ScVirtual86_Int`
that have been entered and have not returned. -/
structure CallRun where
  env : Statics
  tss : Tss
  depth : Nat

/-- A machine with the variables and the task state segment of the run. -/
def CallRun.within (r : CallRun) (m : Machine) : Machine := { m with env := r.env, tss := r.tss }

/-- Where an event leaves the run, when it has left the kernel in `m`. -/
def CallRun.at (m : Machine) (depth : Nat) : CallRun := ⟨m.env, m.tss, depth⟩

def intStep (layout : Layout) (r : CallRun) : IntEvent → Option CallRun
  | .call f context vector m =>
    some (.at (virtual86Entered layout f context vector (r.within m)) (r.depth + 1))
  | .fault f context m =>
    match scMonitorV86 context (r.within m) with
    | .virtualInt vector =>
      some (.at (virtual86Entered layout f context vector (r.within m)) (r.depth + 1))
    | .reenter m' => some (.at m' r.depth)
    | .done m' => some (.at m' r.depth)
  | .ret m => if r.depth = 0 then none else some (.at (virtual86IntEnd (r.within m)) (r.depth - 1))

/-- A call has been entered. -/
structure CallRun.Opened (r r' : CallRun) : Prop where
  flag : r'.env.supervisorCall = 1
  ports : r'.tss.iobpOff = TSS_ALLOW_OFFSET
  depth : r'.depth = r.depth + 1

/-- The innermost call has returned. -/
structure CallRun.Closed (r r' : CallRun) : Prop where
  nested : r.depth ≠ 0
  env : r'.env = r.env
  ports : r'.tss.iobpOff = TSS_ALLOW_OFFSET
  depth : r'.depth = r.depth - 1

section Steps

variable {layout : Layout} {r r' : CallRun}

theorem CallRun.opened (r : CallRun) (f : Frame) (context : PTR) (vector : BYTE) (m : Machine) :
    r.Opened (.at (virtual86Entered layout f context vector (r.within m)) (r.depth + 1)) where
  flag := congrArg Statics.supervisorCall (virtual86Entered_env layout f context vector _)
  ports := virtual86Entered_iobpOff layout f context vector _
  depth := rfl

/-- All that a fault can do to the flag, the offset and the depth: it opens a call, or it does
nothing. -/
theorem intStep_fault {f : Frame} {context : PTR} {m : Machine}
    (hstep : intStep layout r (.fault f context m) = some r') : r.Opened r' ∨ r' = r := by
  unfold intStep at hstep
  dsimp only at hstep
  have hkept : ∀ m', (scMonitorV86 context (r.within m)).machine? = some m' →
      CallRun.at m' r.depth = r := by
    intro m' hm'
    obtain ⟨henv, htss⟩ := scMonitorV86_keeps (r.within m) hm'
    unfold CallRun.at
    rw [henv, htss]
    rfl
  cases hmonitor : scMonitorV86 context (r.within m) with
  | virtualInt vector =>
    rw [hmonitor] at hstep
    obtain rfl := Option.some.inj hstep
    exact .inl (r.opened f context vector m)
  | reenter m' =>
    rw [hmonitor] at hstep
    obtain rfl := Option.some.inj hstep
    exact .inr (hkept m' (by rw [hmonitor]; rfl))
  | done m' =>
    rw [hmonitor] at hstep
    obtain rfl := Option.some.inj hstep
    exact .inr (hkept m' (by rw [hmonitor]; rfl))

/-- A return closes the innermost call: one level of nesting less, and the flag as it was. There has
to be a call that is open. -/
theorem intStep_ret {m : Machine} (hstep : intStep layout r (.ret m) = some r') :
    r.Closed r' := by
  unfold intStep at hstep
  dsimp only at hstep
  split at hstep
  · cases hstep
  · next hnested =>
    obtain rfl := Option.some.inj hstep
    exact ⟨hnested, rfl, rfl, rfl⟩

/-- All that an event can do to them. The two invariants of this module are proved from these three
cases. -/
theorem intStep_cases {e : IntEvent} (hstep : intStep layout r e = some r') :
    r.Opened r' ∨ r' = r ∨ r.Closed r' := by
  cases e with
  | call f context vector m =>
    obtain rfl := Option.some.inj hstep
    exact .inl (r.opened f context vector m)
  | fault f context m => exact (intStep_fault hstep).imp_right .inl
  | ret m => exact .inr (.inr (intStep_ret hstep))

end Steps

/-! ## The supervisor flag -/

/-- The flag is up exactly while a call is open. -/
def CallRun.Flagged (r : CallRun) : Prop := r.env.supervisorCall ≠ 0 ↔ 0 < r.depth

/-- The instructions the monitor emulates for the kernel only: IRET, CLI and STI. -/
def SupervisorOnly (b : BYTE) : Prop := b = 0xCF ∨ b = 0xFA ∨ b = 0xFB

def IntEvent.Law (layout : Layout) (r : CallRun) (e : IntEvent) : Prop :=
  (∀ r', intStep layout r e = some r' → r'.Flagged) ∧
    match e with
    | .fault _ context m =>
      -- with no call open the fault is a user program's
      r.depth = 0 → SupervisorOnly (m.mem (faultingInstruction context m)) →
        scMonitorV86 context (r.within m) = .done (r.within m)
    | _ => True

/-- A return leaves a call open. -/
def IntEvent.Nested (r : CallRun) : IntEvent → Prop
  | .ret _ => r.depth ≠ 1
  | _ => True

/-- Without the flag, no instruction but INT is emulated, and the monitor comes to its end with
nothing done. -/
theorem scMonitorV86_user {context : PTR} {m : Machine} (hflag : m.env.supervisorCall = 0)
    (hins : m.mem (faultingInstruction context m) ≠ 0xCD#8) : scMonitorV86 context m = .done m := by
  unfold scMonitorV86
  dsimp only
  rw [if_neg hins, if_neg (not_not.mpr hflag)]

/-- `int` is not one of the instructions of the supervisor alone. -/
theorem supervisorOnly_ne_int {b : BYTE} (h : SupervisorOnly b) : b ≠ 0xCD#8 := by
  rcases h with rfl | rfl | rfl <;> decide

section Flag

variable {layout : Layout} {r r' : CallRun}

/-- The flag is up once a call has begun, and there is a call that is open. -/
theorem CallRun.Opened.flagged (h : r.Opened r') : r'.Flagged := by
  have hup : (1 : BYTE) ≠ 0 := by decide
  unfold CallRun.Flagged
  rw [h.flag, h.depth]
  exact iff_of_true hup (Nat.succ_pos r.depth)

/-- The flag survives a return, so that it is right afterwards exactly if the return leaves a call
open. -/
theorem ret_flagged_iff (hinv : r.Flagged) (m : Machine) :
    (∀ r', intStep layout r (.ret m) = some r' → r'.Flagged) ↔ r.depth ≠ 1 := by
  constructor
  · intro h hone
    have hnested : r.depth ≠ 0 := by omega
    have hflag : r.env.supervisorCall ≠ 0 := hinv.mpr (Nat.pos_of_ne_zero hnested)
    have hpos : 0 < r.depth - 1 := (h _ (if_neg hnested)).mp hflag
    omega
  · intro hne r' hr'
    have hclosed := intStep_ret hr'
    have hnested := hclosed.nested
    have hflag : r.env.supervisorCall ≠ 0 := hinv.mpr (Nat.pos_of_ne_zero hnested)
    unfold CallRun.Flagged
    rw [hclosed.env, hclosed.depth]
    exact iff_of_true hflag (by omega)

/-- The condition of one event is exact, provided the flag and the depth are in step before it. -/
theorem IntEvent.law_iff (hinv : r.Flagged) (e : IntEvent) :
    IntEvent.Law layout r e ↔ IntEvent.Nested r e := by
  cases e with
  | call f context vector m =>
    refine iff_of_true ⟨fun r' hr' => ?_, trivial⟩ trivial
    obtain rfl := Option.some.inj hr'
    exact (r.opened f context vector m).flagged
  | fault f context m =>
    refine iff_of_true ⟨fun r' hr' => ?_, fun hdepth hins => ?_⟩ trivial
    · rcases intStep_fault hr' with hopened | rfl
      · exact hopened.flagged
      · exact hinv
    · have hflag : (r.within m).env.supervisorCall = 0 := by
        by_contra hne
        exact absurd (hinv.mp hne) (by omega)
      exact scMonitorV86_user hflag (supervisorOnly_ne_int hins)
  | ret m =>
    refine ⟨fun h => (ret_flagged_iff hinv m).mp h.1, fun h => ⟨?_, trivial⟩⟩
    exact (ret_flagged_iff hinv m).mpr h

end Flag

/-- For every run of calls, faults and returns from start-up, nested to any depth: the flag is up
exactly while a call is open, and no user program's instruction is taken for the kernel's, exactly
when no return is the outermost call's. The returns are taken as the C code means them: that the
processor comes to one is not said here. -/
theorem supervisorRun_law_iff (layout : Layout) (errorCode theIRQ : DWORD) (tss : Tss)
    (es : List IntEvent) :
    EachStep (intStep layout) (IntEvent.Law layout) ⟨⟨errorCode, theIRQ, 0⟩, tss, 0⟩ es ↔
      EachStep (intStep layout) IntEvent.Nested ⟨⟨errorCode, theIRQ, 0⟩, tss, 0⟩ es :=
  EachStep.congr CallRun.Flagged (fun _ _ r' _ hlaw hstep => hlaw.1 r' hstep)
    (fun _ e hinv => IntEvent.law_iff hinv e)
    (iff_of_false (fun h => h rfl) (Nat.lt_irrefl 0)) es

/-- One call and its return, from power-up: the flag stays up. -/
theorem supervisorRun_call :
    ¬ EachStep (intStep Layout.linked) (IntEvent.Law Layout.linked)
        ⟨⟨0, 0, 0⟩, ⟨0xC0090000, 0x10, 104⟩, 0⟩
        [.call kernelCall.frame kernelCall.context 0x21 Machine.idle, .ret Machine.idle] := by
  intro hrun
  obtain ⟨hcall, hrest⟩ := hrun
  obtain ⟨called, hstep, hdepth⟩ : ∃ called, intStep Layout.linked
      ⟨⟨0, 0, 0⟩, ⟨0xC0090000, 0x10, 104⟩, 0⟩
      (.call kernelCall.frame kernelCall.context 0x21 Machine.idle) = some called ∧
        called.depth = 1 := ⟨_, rfl, rfl⟩
  obtain ⟨hret, _⟩ := hrest called hstep
  exact (IntEvent.law_iff (hcall.1 called hstep) _).mp hret hdepth

/-! ## I/O permission -/

/-- All ports are allowed while a call is open, and denied while none is. -/
def CallRun.PermissionLaw (r : CallRun) : Prop :=
  r.tss.iobpOff = if 0 < r.depth then TSS_ALLOW_OFFSET else TSS_DENY_OFFSET

/-- The offset is the one that allows, or nobody has stored one yet. -/
def CallRun.Stored (r : CallRun) : Prop :=
  r.tss.iobpOff = TSS_ALLOW_OFFSET ∨ r.depth = 0 ∧ r.tss.iobpOff = 0

/-- No event stores the offset that denies. The three ways a step can go are all of the argument. -/
theorem intStep_stored {layout : Layout} {r r' : CallRun} {e : IntEvent} (hinv : r.Stored)
    (hstep : intStep layout r e = some r') : r'.Stored := by
  rcases intStep_cases hstep with hopened | rfl | hclosed
  · exact .inl hopened.ports
  · exact hinv
  · exact .inl hclosed.ports

/-- The law asks for the offset that denies only where no call is open, and it is never there. -/
theorem CallRun.permissionLaw_iff {r : CallRun} (hinv : r.Stored) :
    r.PermissionLaw ↔ 0 < r.depth := by
  unfold CallRun.PermissionLaw
  rcases hinv with hallow | ⟨hdepth, hzero⟩
  · rw [hallow]
    by_cases hopen : 0 < r.depth
    · rw [if_pos hopen]
      exact iff_of_true rfl hopen
    · rw [if_neg hopen]
      exact iff_of_false (by decide) hopen
  · rw [hzero, hdepth]
    exact iff_of_false (by decide) (Nat.lt_irrefl 0)

/-- `InitIA32` leaves the offset as the initialiser has it, zero. -/
theorem tssFields_iobpOff {layout : Layout} {base : PTR} {i : Initialised}
    (h : InitSpec layout base i) : (tssFields base i.machine.mem).iobpOff = 0 := by
  unfold tssFields
  dsimp only
  rw [Mem.read16_add, h.tss _ (by decide), h.tss _ (by decide)]
  decide

/-- The calls when `InitIA32` has left machine `i`: none. -/
def CallRun.initialised (env : Statics) (base : PTR) (i : Initialised) : CallRun :=
  ⟨env, tssFields base i.machine.mem, 0⟩

/-- For every place of `_ia32_struct`, every value of the variables and every run of calls, faults
and returns, nested to any depth, from the state `InitIA32` leaves: in each state the law holds
exactly when a call is open, so that it never holds throughout a run. -/
theorem permissionRun_law (layout : Layout) (afterTss afterLdt : PTR) (site : StructSite)
    (m : Machine) (env : Statics) :
    ∃ i, initIA32 layout afterTss afterLdt site (site.loaded m) = some i ∧
      ∀ es : List IntEvent,
        (∀ r ∈ states (intStep layout) (.initialised env site.base i) es,
          r.PermissionLaw ↔ 0 < r.depth) ∧
        ¬ ∀ r ∈ states (intStep layout) (.initialised env site.base i) es, r.PermissionLaw := by
  obtain ⟨i, hrun, hspec⟩ := initIA32_spec layout afterTss afterLdt site m
  refine ⟨i, hrun, fun es => ?_⟩
  obtain ⟨start, hstart⟩ : ∃ start, start = CallRun.initialised env site.base i := ⟨_, rfl⟩
  have hinv : start.Stored := by
    rw [hstart]
    exact .inr ⟨rfl, tssFields_iobpOff hspec⟩
  have hlaw : ∀ r ∈ states (intStep layout) start es, r.PermissionLaw ↔ 0 < r.depth := by
    intro r hr
    exact CallRun.permissionLaw_iff
      (forall_states (fun _ _ _ hinv hstep => intStep_stored hinv hstep) hinv es r hr)
  have hdepth : start.depth = 0 := by
    rw [hstart]
    rfl
  rw [← hstart]
  refine ⟨hlaw, fun hall => ?_⟩
  have hfirst : start ∈ states (intStep layout) start es := start_mem_states start es
  have hpos := (hlaw start hfirst).mp (hall start hfirst)
  omega

/-- Before the first call the offset is zero, and not the one that denies. -/
theorem permissionRun_start : ∃ i, initIA32 Layout.linked 0 0 StructSite.linked
    (StructSite.linked.loaded Machine.idle) = some i ∧
      ¬ (CallRun.initialised ⟨0, 0, 0⟩ StructSite.linked.base i).PermissionLaw := by
  obtain ⟨i, hrun, hspec⟩ := initIA32_spec Layout.linked 0 0 StructSite.linked Machine.idle
  refine ⟨i, hrun, fun hlaw => ?_⟩
  have hinv : (CallRun.initialised ⟨0, 0, 0⟩ StructSite.linked.base i).Stored :=
    .inr ⟨rfl, tssFields_iobpOff hspec⟩
  exact Nat.lt_irrefl 0 ((CallRun.permissionLaw_iff hinv).mp hlaw)

/-! ## One fault -/

/-- The first byte of the instruction that a program in V86 mode is at. -/
def instruction (c : Machine) : BYTE := c.mem (mkLP (c.seg .cs) (c.eip.setWidth 16))

/-- A CLI or an STI that has faulted, in a supervisor call. -/
structure CliSti where
  c : Machine
  vm : Cpu.vm c.eflags = true
  ins : instruction c = 0xFA ∨ instruction c = 0xFB
  supervisor : c.env.supervisorCall ≠ 0

/-- Whether the instruction is the STI. -/
def CliSti.sets (x : CliSti) : Bool := instruction x.c = 0xFB

/-- What the instruction itself does. -/
structure CliSti.OwnEffect (x : CliSti) (d : Machine) : Prop where
  eip : d.eip = x.c.eip + 1#32
  eflags : d.eflags = withFlag x.c.eflags 9 x.sets
  gpr : d.gpr = x.c.gpr
  seg : d.seg = x.c.seg

/-- How long an instruction may be. The one-byte instructions the monitor names are INTO, and those
of the supervisor. -/
structure Length (ins : BYTE) (n : Nat) : Prop where
  pos : 0 < n
  le : n ≤ 15
  int : ins = 0xCD → n = 2
  oneByte : ins = 0xCE ∨ SupervisorOnly ins → n = 1

/-- The instructions the monitor emulates. -/
def Emulated (c : Machine) : Prop :=
  instruction c = 0xCD ∨ c.env.supervisorCall ≠ 0 ∧ SupervisorOnly (instruction c)

/-- The program goes on behind the instruction. -/
def Moved (c d : Machine) : Prop :=
  ∃ n, Length (instruction c) n ∧ d.eip = c.eip + BitVec.ofNat 32 n

/-- The processor has left V86 mode, for the return address of `ScEnterV86`. -/
structure Redirected (c d : Machine) : Prop where
  vm : Cpu.vm d.eflags = false
  eip : d.eip = c.mem.read32 (c.tss.esp0 + 24#32)

/-- The process is ended: the processor has left V86 mode, and not for the caller. -/
structure Terminated (c d : Machine) : Prop where
  vm : Cpu.vm d.eflags = false
  elsewhere : d.eip ≠ c.mem.read32 (c.tss.esp0 + 24#32)

section Laws

variable (refused : Selector → Bool) (layout : Layout) (idt : IDT) (rm : RealMode)
  (h path : QuietPath) (err fault : DWORD) (f : Frame)

/-- From the fault to the end of the stub's `iret`, the emulation has the instruction's effect. -/
def CliStiLaw (x : CliSti) : Prop :=
  ∃ d, protectRound refused layout idt rm h path err fault f x.c = some d ∧ x.OwnEffect d

/-- A fault of a program in V86 mode comes to an end, which is not where it began. -/
def ProgressLaw (c : Machine) : Prop :=
  ∃ d, protectRound refused layout idt rm h path err fault f c = some d ∧
    (Moved c d ∨ Redirected c d ∨ Terminated c d) ∧ (Terminated c d → ¬ Emulated c)

variable {refused layout idt rm h path err fault f}

/-- No emulation steps over its instruction: if the handler comes back at all, EIP is that of the
fault. -/
theorem cliStiLaw_false {x : CliSti}
    (hlaw : CliStiLaw refused layout (fillIDT layout idt) rm h path err fault f x) : False := by
  obtain ⟨d, hd, heffect⟩ := hlaw
  have hstuck := heffect.eip.symm.trans (protectRound_resumes x.vm hd).1
  bv_omega

/-- No fault is stepped over, and none leaves V86 mode, whatever the handler was given for a
flag. -/
theorem progressLaw_false {c : Machine} (hvm : Cpu.vm c.eflags = true)
    (hlaw : ProgressLaw refused layout (fillIDT layout idt) rm h path err fault f c) : False := by
  obtain ⟨d, hd, hprogress, -⟩ := hlaw
  obtain ⟨heip, heflags⟩ := protectRound_resumes hvm hd
  have hback : Cpu.vm d.eflags = true := (congrArg Cpu.vm heflags).trans hvm
  rcases hprogress with ⟨n, hlength, hmoved⟩ | hredirected | hterminated
  · have hpos := hlength.pos
    have hle := hlength.le
    have hstuck := congrArg BitVec.toNat (hmoved.symm.trans heip)
    rw [BitVec.toNat_add, BitVec.toNat_ofNat] at hstuck
    omega
  · exact absurd (hback.symm.trans hredirected.vm) (by decide)
  · exact absurd (hback.symm.trans hterminated.vm) (by decide)

end Laws

/-- For every machine in V86 mode at a CLI or an STI, and whatever the handlers, the selectors that
are refused and the real-mode programs are: the emulation has not the effect of the instruction.
Where the stub's `pop` is refused it does not even begin. Where it is not, the monitor steps on in
the wrong dword and sets IF in its own flags, and the `iret` is to the instruction. -/
theorem not_cliStiLaw (refused : Selector → Bool) (layout : Layout) (idt : IDT) (rm : RealMode)
    (h path : QuietPath) (err fault : DWORD) (f : Frame) (x : CliSti) :
    ¬ CliStiLaw refused layout (fillIDT layout idt) rm h path err fault f x := cliStiLaw_false

/-- An STI at 0000:0000 in a supervisor call, with IF clear. -/
def stiFault : CliSti where
  c := { Machine.idle with
    seg := fun _ => 0
    eip := 0
    eflags := 0x20002
    mem := fun a => if a = 0 then 0xFB else 0
    tss := ⟨0xC0080044, 0x10, 104⟩
    env := ⟨0, 0, 1⟩ }
  vm := by decide
  ins := by decide
  supervisor := by decide

/-- The law fails for an `sti` of a program that runs in a call. -/
theorem cliStiLaw_sti :
    ¬ CliStiLaw nullSelector Layout.linked (fillIDT Layout.linked .zero) dosWithMemory .direct
        .direct 0 0 kernelCall.frame stiFault := cliStiLaw_false

/-- A program in V86 mode that has faulted. -/
structure V86Fault where
  c : Machine
  vm : Cpu.vm c.eflags = true

/-- For every fault from V86 mode, at whatever instruction, with whatever registers and flag, and
whatever the handlers, the selectors that are refused and the real-mode program behind an INT are:
it makes no progress. It has no end where the `pop` is refused, nor where the monitor calls
`ScVirtual86_Int`; where it has one, that is the instruction that has faulted. -/
theorem not_progressLaw (refused : Selector → Bool) (layout : Layout) (idt : IDT) (rm : RealMode)
    (h path : QuietPath) (err fault : DWORD) (f : Frame) (x : V86Fault) :
    ¬ ProgressLaw refused layout (fillIDT layout idt) rm h path err fault f x.c :=
  progressLaw_false x.vm

/-- An INT at 0000:0000, on a processor that refuses a null DS and on one that does not. -/
theorem progressLaw_int :
    ¬ ProgressLaw nullSelector Layout.linked (fillIDT Layout.linked .zero) dosWithMemory .direct
        .direct 0 0 kernelCall.frame
        { stiFault.c with mem := fun a => if a = 0 then 0xCD else 0 } ∧
      ¬ ProgressLaw (fun _ => false) Layout.linked (fillIDT Layout.linked .zero) dosWithMemory
        .direct .direct 0 0 kernelCall.frame
        { stiFault.c with mem := fun a => if a = 0 then 0xCD else 0 } :=
  ⟨progressLaw_false (by decide), progressLaw_false (by decide)⟩

end OS90.Laws
