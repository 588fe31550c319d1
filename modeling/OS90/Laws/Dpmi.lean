import OS90.Kernel.Dpmi
import OS90.Laws.Tables

/-!
# Interrupts that are reflected

Two laws of the protected-mode server: what a trap of a program does to its context, and which gates
make an interrupt a trap.

A DPMI program's INT faults, and `CheckAndHandleDPMI_Trap` emulates it: the frame of the fault is
sent to the program's own handler. The handler's IRET can only come back if the kernel has kept the
place it was called from. `TrapLaw` says so of two runs, which start apart in the interrupted CS and
EIP alone: they do not end in one state. Beside that the frame of a trap goes to the handler, and
any other frame stays as it is.

The source announces that it saves CS and EIP and then overwrites them, without having saved them
anywhere. So the law holds of just the faults that are not traps (`trapLaw_iff`).

DPMI wants every vector that is not the system's to fault when a program calls it, so that the
kernel can reflect it. `ReflectionLaw` is that `Init_DPMI_ReflectionHandlers` ends, with a present
gate of ring 0 in every entry from `NON_SYSTEM_VECTORS` on and the entries below as they were.

The bound of its loop is the number of those vectors, and not the vector after the last of them.
The loop ends and keeps below `NON_SYSTEM_VECTORS`, but the last forty-nine vectors have a gate only
if they had one before (`reflectionLaw_iff`).
-/

namespace OS90.Laws

open OS90.Ia32 OS90.Ia32.Cpu OS90.Kernel

/-! ## A trap -/

section Trap

variable (currentPcb : THREAD) (regs : PTR) (m : Machine)

/-- The fault names an entry of the IDT, and the program traps that vector. -/
structure Traps : Prop where
  idt : m.env.errorCode >>> 1 &&& 1#32 ≠ 0
  type : (localEntry currentPcb m.env.errorCode).type = LOCAL_INT_PM_TRAP

/-- The same machine, with another interrupted CS and EIP in its frame. -/
def interruptedAt (ret : DWORD × DWORD) : Machine :=
  m.store (regs + tf RD.eip) ret.2 |>.store (regs + tf RD.cs) ret.1

/-- The frame goes on at the handler. -/
structure Redirects (entry : LOCAL_PM_IDT_ENTRY) (frame : Context) : Prop where
  eip : frame RD.eip = entry.handlerAddress
  cs : frame RD.cs = entry.handlerCodeSegment.setWidth 32

structure TrapLaw : Prop where
  redirects : Traps currentPcb m → Redirects (localEntry currentPcb m.env.errorCode)
    (contextAt (checkAndHandleDPMI_Trap currentPcb regs m).mem regs)
  /-- Where the program was is still to be told from the state. -/
  recoverable : Traps currentPcb m → Function.Injective fun ret =>
    checkAndHandleDPMI_Trap currentPcb regs (interruptedAt regs m ret)
  unchanged : ¬ Traps currentPcb m →
    contextAt (checkAndHandleDPMI_Trap currentPcb regs m).mem regs = contextAt m.mem regs

variable {currentPcb m}

/-- A trap writes the address of the handler over the one that was interrupted, and does nothing
else. -/
theorem Traps.run (h : Traps currentPcb m) :
    checkAndHandleDPMI_Trap currentPcb regs m =
      interruptedAt regs m ((localEntry currentPcb m.env.errorCode).handlerCodeSegment.setWidth 32,
        (localEntry currentPcb m.env.errorCode).handlerAddress) := by
  unfold checkAndHandleDPMI_Trap
  dsimp only
  rw [if_pos h.idt, if_pos h.type]
  rfl

/-- Where the fault is no trap of DPMI, nothing is changed. -/
theorem checkAndHandleDPMI_Trap_of_not (h : ¬ Traps currentPcb m) :
    checkAndHandleDPMI_Trap currentPcb regs m = m := by
  unfold checkAndHandleDPMI_Trap
  dsimp only
  split
  · rename_i hidt
    exact if_neg fun htype => h ⟨hidt, htype⟩
  · rfl

/-- Where it is one, the context goes on at the entry of the local table. -/
theorem Traps.redirects (h : Traps currentPcb m) :
    Redirects (localEntry currentPcb m.env.errorCode)
      (contextAt (checkAndHandleDPMI_Trap currentPcb regs m).mem regs) := by
  rw [h.run regs]
  unfold interruptedAt
  constructor
  · rw [contextAt_store, if_neg (by decide), contextAt_store, if_pos rfl]
  · rw [contextAt_store, if_pos rfl]

/-- Whatever was interrupted is forgotten: two faults that differ in it alone are handled alike. -/
theorem Traps.forgets (h : Traps currentPcb m) (ret ret' : DWORD × DWORD) :
    checkAndHandleDPMI_Trap currentPcb regs (interruptedAt regs m ret) =
      checkAndHandleDPMI_Trap currentPcb regs (interruptedAt regs m ret') := by
  have hret : ∀ ret, Traps currentPcb (interruptedAt regs m ret) := fun _ => ⟨h.idt, h.type⟩
  have hmem : ∀ p q : DWORD × DWORD, interruptedAt regs (interruptedAt regs m p) q =
      interruptedAt regs m q := by
    intro p q
    have hwrites := Mem.write32_overwrite m.mem (regs + tf RD.eip) (regs + tf RD.cs) p.2 p.1 q.2 q.1
    exact congrArg (fun mem => ({ m with mem := mem } : Machine)) hwrites
  rw [(hret ret).run regs, (hret ret').run regs, hmem, hmem]
  rfl

/-- And the address of the interrupted code is gone: two runs that differ in it alone end in one
state. -/
theorem Traps.not_recoverable (h : Traps currentPcb m) : ¬ Function.Injective fun ret =>
    checkAndHandleDPMI_Trap currentPcb regs (interruptedAt regs m ret) := by
  intro hinjective
  have hsame := h.forgets regs (0, 0) (0, 1)
  have hret : ((0, 0) : DWORD × DWORD) = (0, 1) := hinjective hsame
  exact absurd (congrArg Prod.snd hret) (by decide)

end Trap

/-- For every process, frame, memory and error code: the law holds exactly when the fault is not a
trap of the program's. `Traps` is decided by the error code and by the local table, so that the law
is kept where there is nothing to do. -/
theorem trapLaw_iff (currentPcb : THREAD) (regs : PTR) (m : Machine) :
    TrapLaw currentPcb regs m ↔ ¬ Traps currentPcb m := by
  constructor
  · intro hlaw htraps
    exact htraps.not_recoverable regs (hlaw.recoverable htraps)
  · intro htraps
    refine ⟨fun h => absurd h htraps, fun h => absurd h htraps, fun _ => ?_⟩
    rw [checkAndHandleDPMI_Trap_of_not regs htraps]

/-- A program that traps INT 31h. -/
def trapsDpmi : THREAD where
  kernelRealModeSs := 0
  kernelRealModeSp := 0
  localIdt v := if v = 0x31 then ⟨0x1000, 0x0F, LOCAL_INT_PM_TRAP⟩ else ⟨0, 0, 0⟩

/-- Its INT 31h faults with the vector's entry of the IDT as the error code. -/
theorem trapLaw_dpmi :
    ¬ TrapLaw trapsDpmi 0xC007FF00 { Machine.idle with env := ⟨0x18A, 0, 0⟩ } := by
  intro hlaw
  have htraps : Traps trapsDpmi { Machine.idle with env := ⟨0x18A, 0, 0⟩ } :=
    ⟨by decide, by decide⟩
  exact htraps.not_recoverable _ (hlaw.recoverable htraps)

/-! ## The gates -/

/-- The entry of a vector is a gate that `MkTrapGate` makes for ring 0. -/
structure Reflects (idt : IDT) (v : BYTE) : Prop where
  made : ∃ address, idt v = mkTrapGate v 0 address idt v
  present : (GateDescriptor.decode (idt v)).present = true
  ring : (GateDescriptor.decode (idt v)).dpl = 0

def ReflectionLaw (idt : IDT) : Prop :=
  ∃ rounds idt', initDPMI_ReflectionHandlers rounds idt = some idt' ∧
    (∀ v, NON_SYSTEM_VECTORS ≤ v → Reflects idt' v) ∧ ∀ v < NON_SYSTEM_VECTORS, idt' v = idt v

/-- The gate that `MkTrapGate` makes is present and of ring zero, whatever the address is. -/
theorem Reflects.of_made {idt : IDT} {v : BYTE} (address : PTR)
    (h : idt v = mkTrapGate v 0 address idt v) : Reflects idt v := by
  have hdecode : GateDescriptor.decode (mkTrapGate v 0 address idt v) =
      ⟨GDT_KCODE <<< 3, address, 0x0E, 0, true⟩ := decode_mkTrapGate v 0 address idt
  refine ⟨⟨address, h⟩, ?_, ?_⟩
  · rw [h, hdecode]
  · rw [h, hdecode]

/-- Whether a vector reflects is a matter of its one entry. -/
theorem reflects_congr {idt idt' : IDT} {v : BYTE} (h : idt' v = idt v) :
    Reflects idt' v ↔ Reflects idt v := by
  have hmade : ∀ address, mkTrapGate v 0 address idt' v = mkTrapGate v 0 address idt v := by
    intro address
    unfold mkTrapGate setIntVector
    rw [Function.update_self, Function.update_self]
  constructor
  · rintro ⟨⟨address, hmake⟩, _, _⟩
    refine Reflects.of_made address ?_
    rw [← h, ← hmade]
    exact hmake
  · rintro ⟨⟨address, hmake⟩, _, _⟩
    refine Reflects.of_made address ?_
    rw [h, hmade]
    exact hmake

/-- The vectors that the loop comes to have gates. -/
theorem reflected_reflects (idt : IDT) {v : BYTE} {bnd : Nat} (hlow : NON_SYSTEM_VECTORS ≤ v)
    (hbnd : v.toNat < bnd) : Reflects (reflected idt bnd) v := by
  have hentry : reflected idt bnd v = descriptor 0x8E#8 0 := if_pos ⟨hlow, hbnd⟩
  refine Reflects.of_made 0 ?_
  rw [hentry]
  unfold mkTrapGate setIntVector
  rw [Function.update_self]
  rfl

/-- All other vectors are as they were. -/
theorem reflected_of_not (idt : IDT) {v : BYTE} {bnd : Nat}
    (h : v < NON_SYSTEM_VECTORS ∨ bnd ≤ v.toNat) : reflected idt bnd v = idt v := by
  refine if_neg fun hin => ?_
  rcases h with hlow | hhigh
  · have hlt : v.toNat < NON_SYSTEM_VECTORS.toNat := hlow
    omega
  · omega

/-- Where the law holds, the vectors the loop leaves out have been gates before it ran. -/
theorem ReflectionLaw.prior {idt : IDT} (h : ReflectionLaw idt) {v : BYTE} (hv : 207 ≤ v.toNat) :
    Reflects idt v := by
  obtain ⟨rounds, idt', hrun, hgates, _⟩ := h
  obtain ⟨rounds', hrun'⟩ := initDPMI_ReflectionHandlers_run idt
  obtain rfl : idt' = reflected idt 207 := Loop.Leaves.unique ⟨rounds, hrun⟩ ⟨rounds', hrun'⟩
  have hlow : NON_SYSTEM_VECTORS ≤ v := by
    show NON_SYSTEM_VECTORS.toNat ≤ v.toNat
    exact Nat.le_trans (by decide) hv
  exact (reflects_congr (reflected_of_not idt (.inr hv))).mp (hgates v hlow)

/-- For every table: the vectors from `NON_SYSTEM_VECTORS` on have their gates and the others are
untouched exactly when the vectors from 207 on had such gates before. That the loop ends is proved
for every table, and is no part of the condition. -/
theorem reflectionLaw_iff (idt : IDT) :
    ReflectionLaw idt ↔ ∀ v : BYTE, 207 ≤ v.toNat → Reflects idt v := by
  constructor
  · exact fun h v hv => h.prior hv
  · intro hprior
    obtain ⟨rounds, hrun⟩ := initDPMI_ReflectionHandlers_run idt
    refine ⟨rounds, reflected idt 207, hrun, fun v hlow => ?_, fun v hlow => ?_⟩
    · by_cases hv : v.toNat < 207
      · exact reflected_reflects idt hlow hv
      · have hhigh : 207 ≤ v.toNat := Nat.le_of_not_lt hv
        exact (reflects_congr (reflected_of_not idt (.inr hhigh))).mpr (hprior v hhigh)
    · exact reflected_of_not idt (.inl hlow)

/-- In a table that has not been filled, vector 255 has no gate after the loop. -/
theorem reflectionLaw_zero : ¬ ReflectionLaw IDT.zero := by
  intro hlaw
  have hlast : Reflects IDT.zero 255 := hlaw.prior (by decide)
  exact absurd hlast.present (by decide)

end OS90.Laws
