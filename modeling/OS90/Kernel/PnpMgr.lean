import OS90.Kernel.System
import OS90.Kernel.Type

/-!
# The tables of the PnP manager

`SetInterruptEntry`, the two queries, `InAcquireLegacyIRQ` and `Init_DetectFreeInt` of `PnP_Mgr.c`,
as they are written: the setter ors the new level into the word, and the level query shifts the
word it reads from.

`PnAddIOMemRsc` of `PnP_Mgr.c` copies the record a driver points to into the next entry of a table
of `MAX_IO_RSC`. Nothing removes an entry or looks one up. The driver's records are memory of its
own (`Records`), which it may use again once the call has returned.

Each entry of the interrupt table is a handler, an owner and two bits of one word, and the lemmas
about `withEntry` say what a setter does to each of the three.
-/

namespace OS90.Kernel

section PnpMgr

/-- `InGetInterruptLevel`: `return interrupts.lvl_bmp >>= irq * 2`. The compound assignment
stores the shifted word back, and the whole word is answered. -/
def inGetInterruptLevel (irq : VINT) : KernelM DWORD := do
  let count := irq * 2#32
  if count < 32#32 then
    modify fun s =>
      { s with interrupts := { s.interrupts with lvlBmp := s.interrupts.lvlBmp >>> count } }
    return (← get).interrupts.lvlBmp
  else failure

/-- `InGetInterruptHandler`. -/
def inGetInterruptHandler (irq : VINT) : KernelM FP_IRQ_HANDLR := do
  load (← get).interrupts.handlers irq

/-- `SetInterruptEntry`. -/
def setInterruptEntry (irq : VINT) (lvl : INTERRUPT_LEVEL) (handler : FP_IRQ_HANDLR)
    (owner : PDRIVER_HEADER) : KernelM Unit := do
  enterCriticalSecttion
  let handlers ← store (← get).interrupts.handlers irq handler
  modify fun s => { s with interrupts := { s.interrupts with handlers := handlers } }
  let owners ← store (← get).interrupts.owners irq owner
  modify fun s => { s with interrupts := { s.interrupts with owners := owners } }
  let count := irq * 2#32
  if count < 32#32 then
    modify fun s =>
      { s with interrupts :=
        { s.interrupts with lvlBmp := s.interrupts.lvlBmp ||| lvl.val <<< count } }
  else failure
  exitCriticalSection

/-- `InAcquireLegacyIRQ`. Only the refusing path has a `return` statement: on the other path the
function ends without a value, which is `none`. `kernelBusHdr` is the address of
`kernel_bus_hdr`. -/
def inAcquireLegacyIRQ (kernelBusHdr : PDRIVER_HEADER) (fixedIrq : VINT)
    (handler : FP_IRQ_HANDLR) : KernelM (Option STATUS) := do
  if (← inGetInterruptLevel fixedIrq) = INTERRUPT_LEVEL.busInuse.val then
    return some .osErrorGeneric
  setInterruptEntry fixedIrq .busInuse handler kernelBusHdr
  return none

/-- `Init_DetectFreeInt`. The mask it reads is not used, and IRQ 9 is acquired without a handler
when the answer for IRQ 2 is exactly `RECL_16`. -/
def initDetectFreeInt (kernelBusHdr : PDRIVER_HEADER) : KernelM Unit := do
  let _imr0 ← picInb 0x21#16
  if (← inGetInterruptLevel 2#32) = INTERRUPT_LEVEL.recl16.val then
    let _status ← inAcquireLegacyIRQ kernelBusHdr 9#32 0

/-! ## What each function does for an interrupt line -/

variable (s : System) (irq : Irq)

/-- The level word after a query of `irq`. -/
def shiftedLevels : DWORD := s.interrupts.lvlBmp >>> (irq.vint * 2#32)

/-- The state with another level word. -/
def System.withLevels (w : DWORD) : System :=
  { s with interrupts := { s.interrupts with lvlBmp := w } }

/-- The handler and owner of a line. -/
def INTERRUPTS.handler (t : INTERRUPTS) (irq : Irq) : FP_IRQ_HANDLR := t.handlers[irq.val]

def INTERRUPTS.owner (t : INTERRUPTS) (irq : Irq) : PDRIVER_HEADER := t.owners[irq.val]

/-- The state after a new entry for `irq`: the level is ored in, and interrupts are on. -/
def System.withEntry (lvl : INTERRUPT_LEVEL) (handler : FP_IRQ_HANDLR)
    (owner : PDRIVER_HEADER) : System :=
  { s with
    interrupts :=
      { lvlBmp := s.interrupts.lvlBmp ||| lvl.val <<< (irq.vint * 2#32)
        handlers := s.interrupts.handlers.set irq.val handler
        owners := s.interrupts.owners.set irq.val owner }
    intFlag := true }

/-- An entry of the interrupt table that is set has its handler, and the others keep theirs. -/
theorem withEntry_handler (lvl : INTERRUPT_LEVEL) (handler : FP_IRQ_HANDLR)
    (owner : PDRIVER_HEADER) (j : Irq) :
    (s.withEntry irq lvl handler owner).interrupts.handler j =
      if j = irq then handler else s.interrupts.handler j := by
  unfold INTERRUPTS.handler System.withEntry
  by_cases hj : j = irq
  · subst hj
    simp
  · have hne : irq.val ≠ j.val := fun hv => hj (Fin.ext hv.symm)
    simp [hj, hne]

/-- The same for the owner. -/
theorem withEntry_owner (lvl : INTERRUPT_LEVEL) (handler : FP_IRQ_HANDLR)
    (owner : PDRIVER_HEADER) (j : Irq) :
    (s.withEntry irq lvl handler owner).interrupts.owner j =
      if j = irq then owner else s.interrupts.owner j := by
  unfold INTERRUPTS.owner System.withEntry
  by_cases hj : j = irq
  · subst hj
    simp
  · have hne : irq.val ≠ j.val := fun hv => hj (Fin.ext hv.symm)
    simp [hj, hne]

/-- In the zero table nobody handles an interrupt. -/
theorem zero_handler (j : Irq) : INTERRUPTS.zero.handler j = 0 := by
  simp [INTERRUPTS.handler, INTERRUPTS.zero]

/-- Nor does anybody own one. -/
theorem zero_owner (j : Irq) : INTERRUPTS.zero.owner j = 0 := by
  simp [INTERRUPTS.owner, INTERRUPTS.zero]

/-- The shift for a line is shorter than a dword, so that C defines it. -/
theorem vint_mul_two_lt : irq.vint * 2#32 < 32#32 := by
  revert irq
  decide

/-- The query answers the whole of the shifted bitmap, and writes that back. What is shifted out is
lost to every later query. -/
theorem inGetInterruptLevel_run :
    (inGetInterruptLevel irq.vint).run s =
      some (shiftedLevels s irq, s.withLevels (shiftedLevels s irq)) := by
  simp [inGetInterruptLevel, vint_mul_two_lt, shiftedLevels, System.withLevels]

/-- The handler is answered from the table, which stays as it is. -/
theorem inGetInterruptHandler_run :
    (inGetInterruptHandler irq.vint).run s = some (s.interrupts.handler irq, s) := by
  simp [inGetInterruptHandler, load, INTERRUPTS.handler]

/-- The entry of the line is written with the level, the handler and the owner. It has no check of
its own. -/
theorem setInterruptEntry_run (lvl : INTERRUPT_LEVEL) (handler : FP_IRQ_HANDLR)
    (owner : PDRIVER_HEADER) :
    (setInterruptEntry irq.vint lvl handler owner).run s =
      some ((), s.withEntry irq lvl handler owner) := by
  simp [setInterruptEntry, enterCriticalSecttion, exitCriticalSection, intsOff, intsOn, store,
    vint_mul_two_lt, System.withEntry]

/-- An acquisition refuses when the shifted word is exactly `BUS_INUSE`; otherwise it enters the
handler over the shifted table and ends without a status. -/
theorem inAcquireLegacyIRQ_run (kernelBusHdr : PDRIVER_HEADER) (handler : FP_IRQ_HANDLR) :
    (inAcquireLegacyIRQ kernelBusHdr irq.vint handler).run s =
      some (if shiftedLevels s irq = INTERRUPT_LEVEL.busInuse.val then
          (some .osErrorGeneric, s.withLevels (shiftedLevels s irq))
        else
          (none, (s.withLevels (shiftedLevels s irq)).withEntry irq .busInuse handler
            kernelBusHdr)) := by
  simp only [inAcquireLegacyIRQ, StateT.run_bind, inGetInterruptLevel_run, Option.bind_eq_bind,
    Option.bind_some]
  split
  · rfl
  · simp only [setInterruptEntry_run, StateT.run_bind, Option.bind_eq_bind, Option.bind_some]
    rfl

/-- The state after the mask of the master has been read. -/
def System.imrRead : System := { s with io := s.io ++ [(0x80#16, 0)] }

/-- The table of lines is searched by shifting it. If the word that is left is `RECL_16`, nothing
is left of it for IRQ 9, which is taken with a NULL handler. -/
theorem initDetectFreeInt_run (kernelBusHdr : PDRIVER_HEADER) :
    (initDetectFreeInt kernelBusHdr).run s = some ((),
      if shiftedLevels s 2 = INTERRUPT_LEVEL.recl16.val then
        (s.imrRead.withLevels 0).withEntry 9 .busInuse 0 kernelBusHdr
      else s.imrRead.withLevels (shiftedLevels s 2)) := by
  have hquery := inGetInterruptLevel_run s.imrRead 2
  have hshift : shiftedLevels s.imrRead 2 = shiftedLevels s 2 := rfl
  rw [hshift] at hquery
  simp only [initDetectFreeInt, StateT.run_bind, picInb_run, Option.bind_eq_bind,
    Option.bind_some]
  change (((inGetInterruptLevel (Irq.vint 2)).run s.imrRead).bind fun p => _) = _
  rw [hquery, Option.bind_some]
  dsimp only
  by_cases hrecl : shiftedLevels s 2 = INTERRUPT_LEVEL.recl16.val
  · have hnone : shiftedLevels (s.imrRead.withLevels INTERRUPT_LEVEL.recl16.val) 9 = 0 := by
      show INTERRUPT_LEVEL.recl16.val >>> (Irq.vint 9 * 2#32) = 0
      decide
    have hacquire := inAcquireLegacyIRQ_run
      (s.imrRead.withLevels INTERRUPT_LEVEL.recl16.val) 9 kernelBusHdr 0
    rw [hnone, if_neg (by decide)] at hacquire
    rw [if_pos hrecl, if_pos hrecl, hrecl]
    change (((inAcquireLegacyIRQ kernelBusHdr (Irq.vint 9) 0).run _).bind fun p => _) = _
    rw [hacquire]
    rfl
  · rw [if_neg hrecl, if_neg hrecl]
    rfl

end PnpMgr

/-! ## The resource table -/

section IoResources

def MAX_IO_RSC : Nat := 64

/-- `IO_RESOURCE`: ports, or memory mapped input and output. -/
structure IO_RESOURCE where
  start : DWORD
  size : BitVec 24
  alignment : BitVec 24
  owner : PTR
  isPort : Bool
  isStd : Bool
  inuse : Bool
  memCachable : Bool
  ioDecode : BitVec 2
  ioAccess : BitVec 2
deriving DecidableEq, Repr

/-- An entry nothing has been copied into. -/
def IO_RESOURCE.zero : IO_RESOURCE := ⟨0, 0, 0, 0, false, false, false, false, 0, 0⟩

/-- `cur_iorsc` and `resources`. -/
structure IoResources where
  curIorsc : DWORD
  resources : Vector IO_RESOURCE MAX_IO_RSC
deriving DecidableEq

/-- The static initialisers. -/
def IoResources.zero : IoResources := ⟨0, Vector.replicate _ .zero⟩

/-- What pointers to records point to. -/
abbrev Records := PTR → IO_RESOURCE

/-- `PnAddIOMemRsc`: the status and the table after it, or `none` where the store would fall outside
the table. -/
def pnAddIOMemRsc (records : Records) (newRsc : PTR) : StateT IoResources Option DWORD := do
  let s ← get
  if s.curIorsc ≥ BitVec.ofNat 32 MAX_IO_RSC then
    return -1#32
  if h : s.curIorsc.toNat < MAX_IO_RSC then
    set { s with resources := s.resources.set s.curIorsc.toNat (records newRsc) }
  else failure
  modify fun s => { s with curIorsc := s.curIorsc + 1#32 }
  return 0#32

/-! ## What a call does -/

variable (records : Records) (newRsc : PTR) (s : IoResources)

/-- A full table refuses the resource and stays as it is. -/
theorem pnAddIOMemRsc_run_full (h : MAX_IO_RSC ≤ s.curIorsc.toNat) :
    (pnAddIOMemRsc records newRsc).run s = some (-1#32, s) := by
  have hfull : s.curIorsc ≥ BitVec.ofNat 32 MAX_IO_RSC := h
  simp [pnAddIOMemRsc, hfull]

/-- With room in it, the table takes the record at its end. -/
theorem pnAddIOMemRsc_run (h : s.curIorsc.toNat < MAX_IO_RSC) :
    (pnAddIOMemRsc records newRsc).run s =
      some (0#32,
        { curIorsc := s.curIorsc + 1#32
          resources := s.resources.set s.curIorsc.toNat (records newRsc) }) := by
  have hroom : ¬ s.curIorsc ≥ BitVec.ofNat 32 MAX_IO_RSC := Nat.not_le_of_lt h
  simp [pnAddIOMemRsc, hroom, h]

end IoResources

end OS90.Kernel
