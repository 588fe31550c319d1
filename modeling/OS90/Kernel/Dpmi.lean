import OS90.Kernel.Scheduler
import OS90.Kernel.V86
import OS90.Lib.Loop

/-!
# Processes and protected mode interrupts

The functions of `Scheduler.c` that use a process's control block or prepare the interrupt table for
DPMI programs: `ScInitDosCallTrapFrame` gives a register context the real-mode stack of the process,
`Init_DPMI_ReflectionHandlers` fills the vectors that are not the system's with gates of ring 0, and
`CheckAndHandleDPMI_Trap` sends a program that took such a gate to its own handler. The process is
the one `current_pcb` points to.

A trap of DPMI overwrites the address that was interrupted, in the context on the stack. Nothing in
the kernel keeps that address elsewhere, and so what a law can say is whether two runs that differ
in it are told apart.

The loop that fills the vectors runs to a bound below 256, which the model takes from the source
with its comparison. What is left out is the handler of the program itself, which runs in ring 3.
-/

namespace OS90.Kernel

open OS90.Ia32 OS90.Ia32.Cpu

/-! ## Control blocks -/

/-- `LOCAL_PM_IDT_ENTRY`. -/
structure LOCAL_PM_IDT_ENTRY where
  handlerAddress : DWORD
  handlerCodeSegment : WORD
  type : WORD
deriving DecidableEq, Repr

def LOCAL_INT_PM_TRAP : WORD := 3

/-- `THREAD`. -/
structure THREAD where
  kernelRealModeSs : WORD
  kernelRealModeSp : WORD
  localIdt : BYTE → LOCAL_PM_IDT_ENTRY

/-- `ScInitDosCallTrapFrame`. -/
def scInitDosCallTrapFrame (currentPcb : THREAD) (regs : PTR) (m : Machine) : Machine :=
  let m := m.store (regs + tf RD.esp) (currentPcb.kernelRealModeSs.setWidth 32)
  m.store (regs + tf RD.ss) (currentPcb.kernelRealModeSp.setWidth 32)

/-! ## Reflection gates -/

def DPMI_VECTOR : BYTE := 0x31

def NON_SYSTEM_VECTORS : BYTE := DPMI_VECTOR

/-- `BYTE iteration_max_bnd = 256 - entry`. -/
def iterationMaxBnd : BYTE := BitVec.ofNat 8 (256 - NON_SYSTEM_VECTORS.toNat)

/-- The test of the loop, with its body and increment. -/
def reflectRound : BYTE × IDT → (BYTE × IDT) ⊕ IDT
  | (entry, idt) =>
    if entry < iterationMaxBnd then .inl (entry + 1, mkTrapGate entry 0 0 idt) else .inr idt

/-- `Init_DPMI_ReflectionHandlers`. -/
def initDPMI_ReflectionHandlers (rounds : Nat) (idt : IDT) : Option IDT :=
  Loop.run reflectRound rounds (NON_SYSTEM_VECTORS, idt)

/-- `InitScheduler`, with the interrupt table. The timer's interrupt line is not claimed. -/
def initScheduler (rounds : Nat) (idt : IDT) : KernelM IDT := do
  configurePIT
  match initDPMI_ReflectionHandlers rounds idt with
  | some idt => return idt
  | none => failure

/-! ## Traps -/

/-- The entry of the local table that an error code selects. Its index is cut to a byte. -/
def localEntry (currentPcb : THREAD) (errorIndex : DWORD) : LOCAL_PM_IDT_ENTRY :=
  let vector : BYTE := (errorIndex >>> 3 &&& 0x1FFF#32).setWidth 8
  currentPcb.localIdt vector

/-- `CheckAndHandleDPMI_Trap`. -/
def checkAndHandleDPMI_Trap (currentPcb : THREAD) (regs : PTR) (m : Machine) : Machine :=
  let errorIndex := m.env.errorCode
  let causedByIdt := errorIndex >>> 1 &&& 1#32
  if causedByIdt ≠ 0 then
    let entry := localEntry currentPcb errorIndex
    if entry.type = LOCAL_INT_PM_TRAP then
      let m := m.store (regs + tf RD.eip) entry.handlerAddress
      m.store (regs + tf RD.cs) (entry.handlerCodeSegment.setWidth 32)
    else m
  else m

/-! ## What the loop leaves -/

/-- The table with the gate of every vector from `NON_SYSTEM_VECTORS` up to `bnd`. -/
def reflected (idt : IDT) (bnd : Nat) : IDT := fun v =>
  if NON_SYSTEM_VECTORS.toNat ≤ v.toNat ∧ v.toNat < bnd then descriptor 0x8E#8 0 else idt v

/-- The gate of the vector at the bound, made in a table with those below it, leaves a table with
one more. -/
theorem mkTrapGate_reflected (idt : IDT) {bnd : Nat} (hlow : NON_SYSTEM_VECTORS.toNat ≤ bnd)
    (hlt : bnd < 256) :
    mkTrapGate (BitVec.ofNat 8 bnd) 0 0 (reflected idt bnd) = reflected idt (bnd + 1) := by
  have hentry : (BitVec.ofNat 8 bnd).toNat = bnd := Nat.mod_eq_of_lt hlt
  funext v
  show Function.update (reflected idt bnd) (BitVec.ofNat 8 bnd) (descriptor 0x8E#8 0) v =
    reflected idt (bnd + 1) v
  unfold reflected
  by_cases hv : v = BitVec.ofNat 8 bnd
  · subst hv
    rw [Function.update_self, hentry, if_pos ⟨hlow, by omega⟩]
  · rw [Function.update_of_ne hv]
    have hne : v.toNat ≠ bnd := by
      rw [← hentry]
      exact fun heq => hv (BitVec.eq_of_toNat_eq heq)
    have hiff : NON_SYSTEM_VECTORS.toNat ≤ v.toNat ∧ v.toNat < bnd ↔
        NON_SYSTEM_VECTORS.toNat ≤ v.toNat ∧ v.toNat < bnd + 1 := by omega
    rw [if_congr hiff rfl rfl]

/-- A round makes one more gate and goes on. The premise is that the bound of the loop is not
reached. -/
theorem reflectRound_reflected (idt : IDT) {k : Nat} (hk : k < 158) :
    reflectRound (BitVec.ofNat 8 (0x31 + k), reflected idt (0x31 + k)) =
      .inl (BitVec.ofNat 8 (0x31 + (k + 1)), reflected idt (0x31 + (k + 1))) := by
  have hentry : (BitVec.ofNat 8 (0x31 + k)).toNat = 0x31 + k := Nat.mod_eq_of_lt (by omega)
  have hlt : BitVec.ofNat 8 (0x31 + k) < iterationMaxBnd := by
    show (BitVec.ofNat 8 (0x31 + k)).toNat < iterationMaxBnd.toNat
    rw [hentry]
    show 0x31 + k < 207
    omega
  have hnext : BitVec.ofNat 8 (0x31 + k) + 1 = BitVec.ofNat 8 (0x31 + (k + 1)) := by
    rw [← Nat.add_assoc, BitVec.ofNat_add _ 1]
    rfl
  have hlow : NON_SYSTEM_VECTORS.toNat ≤ 0x31 + k := Nat.le_add_right 0x31 k
  unfold reflectRound
  dsimp only
  rw [if_pos hlt, hnext, mkTrapGate_reflected idt hlow (by omega)]
  rfl

/-- The loop ends, with the gates of the vectors below its bound. -/
theorem initDPMI_ReflectionHandlers_run (idt : IDT) :
    ∃ rounds, initDPMI_ReflectionHandlers rounds idt = some (reflected idt 207) := by
  have hstart : (NON_SYSTEM_VECTORS, idt) =
      (BitVec.ofNat 8 (0x31 + 0), reflected idt (0x31 + 0)) := by
    have hnone : reflected idt 0x31 = idt := by
      funext v
      have hlow : NON_SYSTEM_VECTORS.toNat = 0x31 := rfl
      unfold reflected
      rw [hlow, if_neg (by omega)]
    exact (congrArg (Prod.mk (0x31#8 : BYTE)) hnone).symm
  obtain ⟨_, hleaves, rfl⟩ : ∃ r, Loop.Leaves reflectRound (NON_SYSTEM_VECTORS, idt) r ∧
      r = reflected idt 207 := by
    rw [hstart]
    refine Loop.Leaves.of_countup
      (fun k s => s = (BitVec.ofNat 8 (0x31 + k), reflected idt (0x31 + k))) _ (n := 158) ?_ ?_ rfl
    · rintro k s hk rfl
      exact ⟨_, reflectRound_reflected idt hk, rfl⟩
    · rintro s rfl
      exact ⟨_, rfl, rfl⟩
  exact hleaves

end OS90.Kernel
