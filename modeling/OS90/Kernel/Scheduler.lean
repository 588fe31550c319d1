import OS90.Kernel.PnpMgr

/-!
# The master interrupt dispatcher

`SendEOI`, `InMasterDispatch` and `ConfigurePIT` of `Scheduler.c`. The handler of a held line is
called with interrupts on, so other activations of the dispatcher can run inside it; `call` stands
for everything that happens between the call and its return. `dispatchEnter` is the dispatcher up to
that call, and `inMasterDispatch_eq` says that the rest of it is the end of interrupt.

Spurious interrupts are told from real ones by reading the in-service registers, before anything
else is done. The record of the line is read after the query for its level, which shifts the whole
word.

The handlers are not modelled. What is known of a handler is its address, what it is passed, and
that it returns or does not; a run has an event for each, and the laws quantify over all of them.
-/

namespace OS90.Kernel

open OS90.Device

/-- A handler being called: `regparm(2)` passes two arguments, the mode flag and the frame. -/
structure HandlerCall where
  handler : FP_IRQ_HANDLR
  v86 : DWORD
  regs : Context

/-- `SendEOI`. The second write goes to the data port of the slave. -/
def sendEOI (vector : BYTE) : KernelM Unit := do
  picOutb 0x20#16 0x20#8
  if vector > 7#8 then
    picOutb 0xA1#16 0x20#8

/-- `HandleIRQ0` has an empty body. -/
def handleIRQ0 (_vm : DWORD) (_regs : Context) : KernelM Unit := pure ()

def setLastMode (mode : Mode) : KernelM Unit := modify fun s => { s with lastMode := mode }

/-- `regs[RD_EFLAGS] & (1<<17) != 0`. The comparison binds tighter than the mask, so the mask is
its value, 1. -/
def v86Interrupted (regs : Context) : DWORD :=
  regs RD.eflags &&& (if (1#32 <<< 17) ≠ 0 then 1 else 0)

/-- The two tests for a spurious interrupt. -/
def isSpurious (irq : DWORD) (inservice16 : WORD) : Bool :=
  (irq = 7 && inservice16 &&& 0xFF#16 = 0) || (irq = 15 && inservice16 >>> 8 = 0)

/-- `InMasterDispatch`. The test of `RECL_16` alone is a test of the constant 3, and neither of
the last two branches has a statement in it. -/
def inMasterDispatch (call : HandlerCall → KernelM Unit) (regs : Context) (irq : DWORD) :
    KernelM Unit := do
  let inservice16 ← inGetInService16
  let v86 := v86Interrupted regs
  setLastMode .interrupt
  if bitIsSet inservice16 0 then
    handleIRQ0 v86 regs
  if isSpurious irq inservice16 then
    return
  if (← inGetInterruptLevel irq) = INTERRUPT_LEVEL.busInuse.val then
    intsOn
    call ⟨← inGetInterruptHandler irq, v86, regs⟩
    sendEOI (irq.setWidth 8)

/-- The dispatcher up to the call of a handler, if it comes to one. -/
def dispatchEnter (regs : Context) (irq : DWORD) : KernelM (Option HandlerCall) := do
  let inservice16 ← inGetInService16
  let v86 := v86Interrupted regs
  setLastMode .interrupt
  if bitIsSet inservice16 0 then
    handleIRQ0 v86 regs
  if isSpurious irq inservice16 then
    return none
  if (← inGetInterruptLevel irq) = INTERRUPT_LEVEL.busInuse.val then
    intsOn
    return some ⟨← inGetInterruptHandler irq, v86, regs⟩
  else return none

/-- The dispatcher is its entry, the handler if there is one, and the end of interrupt. -/
theorem inMasterDispatch_eq (call : HandlerCall → KernelM Unit) (regs : Context) (irq : DWORD) :
    inMasterDispatch call regs irq = (do
      match ← dispatchEnter regs irq with
      | none => pure ()
      | some c => do
        call c
        sendEOI (irq.setWidth 8)) := by
  unfold inMasterDispatch dispatchEnter
  simp only [bind_assoc, handleIRQ0, pure_bind, ite_self]
  refine bind_congr fun inservice16 => bind_congr fun _ => ?_
  by_cases hspurious : isSpurious irq inservice16 = true
  · simp only [hspurious, if_true, pure_bind]
  · simp only [hspurious, if_false, Bool.false_eq_true, bind_assoc]
    refine bind_congr fun level => ?_
    split <;> simp only [bind_assoc, pure_bind]

/-- `ConfigurePIT`: mode 3, and 1200 clocks. -/
def configurePIT : KernelM Unit := do
  let count : Vector BYTE 2 := #v[0xB0, 0x4]
  outb 0x43 0x36
  outb 0x40 count[0]
  outb 0x40 count[1]

/-- The three writes to the timer, in their order, and nothing besides. -/
theorem configurePIT_run (s : System) : configurePIT.run s =
    some ((), { s with
      io := s.io ++ [(0x43#16, 0x36#8), (0x40#16, 0xB0#8), (0x40#16, 0x04#8)] }) := by
  simp [configurePIT, outb, PicPair.write]

/-! ## What the dispatcher does for an interrupt line -/

variable (s : System) (irq : Irq)

/-- The state once the in-service word has been read and the mode set. -/
def System.entered : System :=
  { s with lastMode := .interrupt, io := s.io ++ [(0x80#16, 0), (0x80#16, 0)] }

/-- The state after an end of interrupt: the slave's mask register takes the byte meant for its
command port. -/
def System.afterEOI : System :=
  if irq.val > 7 then
    { s with
      pics := ⟨s.pics.master.writeCommand 0x20#8, s.pics.slave.writeData 0x20#8⟩
      io := s.io ++ [(0x20#16, 0x20#8), (0x80#16, 0), (0xA1#16, 0x20#8), (0x80#16, 0)] }
  else
    { s with
      pics := { s.pics with master := s.pics.master.writeCommand 0x20#8 }
      io := s.io ++ [(0x20#16, 0x20#8), (0x80#16, 0)] }

/-- The end of interrupt always comes through, and changes the controllers as `afterEOI` says. -/
theorem sendEOI_run : (sendEOI (irq.vint.setWidth 8)).run s = some ((), s.afterEOI irq) := by
  have hgt : 7#8 < (irq.vint.setWidth 8 : BYTE) ↔ 7 < irq.val := by
    revert irq
    decide
  simp only [sendEOI, gt_iff_lt, StateT.run_bind, picOutb_run, Option.bind_eq_bind,
    Option.bind_some, System.afterEOI]
  by_cases h : 7 < irq.val
  · rw [if_pos (hgt.mpr h), if_pos h, picOutb_run]
    simp [PicPair.write]
  · rw [if_neg fun hlt => h (hgt.mp hlt), if_neg h]
    simp [PicPair.write]

/-- The query for the level finds the same bitmap after the in-service register has been read. -/
theorem shiftedLevels_entered : shiftedLevels s.entered irq = shiftedLevels s irq := rfl

/-- What the dispatcher decides by: a spurious interrupt ends there, and a line that is in use goes
to its driver. The level is the one after the shift. -/
theorem dispatchEnter_run (regs : Context) :
    (dispatchEnter regs irq.vint).run s = some (
      if isSpurious irq.vint (inService16 s) then (none, s.entered)
      else if shiftedLevels s irq = INTERRUPT_LEVEL.busInuse.val then
        (some ⟨s.interrupts.handler irq, v86Interrupted regs, regs⟩,
          { s.entered.withLevels (shiftedLevels s irq) with intFlag := true })
      else (none, s.entered.withLevels (shiftedLevels s irq))) := by
  simp only [dispatchEnter, handleIRQ0, pure_bind, ite_self, setLastMode, StateT.run_bind,
    inGetInService16_run, StateT.run_modify, Option.bind_eq_bind, Option.bind_some,
    Option.pure_def]
  change StateT.run _ s.entered = _
  by_cases hspurious : isSpurious irq.vint (inService16 s) = true
  · rw [if_pos hspurious, if_pos hspurious]
    rfl
  · rw [if_neg hspurious, if_neg hspurious]
    simp only [StateT.run_bind, inGetInterruptLevel_run, shiftedLevels_entered,
      Option.bind_eq_bind, Option.bind_some]
    by_cases hheld : shiftedLevels s irq = INTERRUPT_LEVEL.busInuse.val
    · rw [if_pos hheld, if_pos hheld]
      simp only [intsOn, StateT.run_bind, StateT.run_modify, inGetInterruptHandler_run,
        Option.bind_eq_bind, Option.bind_some, Option.pure_def]
      rfl
    · rw [if_neg hheld, if_neg hheld]
      rfl

end OS90.Kernel
