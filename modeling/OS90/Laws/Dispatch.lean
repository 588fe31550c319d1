import OS90.Kernel.Scheduler
import OS90.Laws.InterruptTable
import OS90.Lib.Run

/-!
# Routing of interrupts to their owners

A run mixes acquisitions with interrupts. An activation of the dispatcher is two events, its entry
up to the call of a handler (`dispatch`) and its end of interrupt (`finish`), because the handler
runs with interrupts on and anything can come between; `inMasterDispatch_eq` is the join of the
two. A dispatch comes with whatever the controllers have in service and whatever frame the stub
saved. Beside the kernel's state a run remembers, for each line, the handler that last took it.

`DispatchEvent.Law` is the owner's view: the handler that took the line is the one that is called,
it is told whether V86 mode was interrupted, and an interrupt changes no record of the table.
`dispatchRun_law_iff` says when that holds.
-/

namespace OS90.Laws

open OS90.Device OS90.Kernel OS90.Run OS90.Fields

inductive DispatchEvent where
  | acquire (irq : Irq) (handler : FP_IRQ_HANDLR)
  | dispatch (irq : Irq) (regs : Context) (master slave : BYTE)
  | finish (irq : Irq)

/-- The kernel's state, and the handler each line was last taken with. -/
structure Routing where
  sys : System
  taken : Irq → Option FP_IRQ_HANDLR

/-- The controllers answer these in-service registers when their command ports are read, as
`InitIA32` sets them up to. -/
def withInService (s : System) (master slave : BYTE) : System :=
  { s with
    pics :=
      { master := { s.pics.master with inService := master, readInService := true }
        slave := { s.pics.slave with inService := slave, readInService := true } } }

/-- An acquisition that is not refused takes the line. -/
def Routing.acquired (r : Routing) (irq : Irq) (handler : FP_IRQ_HANDLR) :
    Option STATUS × System → Routing
  | (some _, s) => { r with sys := s }
  | (none, s) => { sys := s, taken := Function.update r.taken irq (some handler) }

/-- One event of a run. -/
def routingStep (kernelBusHdr : PDRIVER_HEADER) (r : Routing) : DispatchEvent → Option Routing
  | .acquire irq handler =>
    ((inAcquireLegacyIRQ kernelBusHdr irq.vint handler).run r.sys).map (r.acquired irq handler)
  | .dispatch irq regs master slave =>
    ((dispatchEnter regs irq.vint).run (withInService r.sys master slave)).map
      fun p => { r with sys := p.2 }
  | .finish irq => ((sendEOI (irq.vint.setWidth 8)).run r.sys).map fun p => { r with sys := p.2 }

/-- The interrupt is spurious: line 7 with nothing in service on the master, or line 15 with
nothing in service on the slave. -/
def Spurious (irq : Irq) (master slave : BYTE) : Prop :=
  irq = 7 ∧ master = 0 ∨ irq = 15 ∧ slave = 0

instance (irq : Irq) (master slave : BYTE) : Decidable (Spurious irq master slave) :=
  inferInstanceAs (Decidable (_ ∨ _))

/-- What the owner of a line is promised of one event. -/
def DispatchEvent.Law (r : Routing) : DispatchEvent → Prop
  | .acquire _ _ => True
  | .dispatch irq regs master slave =>
    ∃ call s', (dispatchEnter regs irq.vint).run (withInService r.sys master slave) =
        some (call, s') ∧
      recordAt s' = recordAt r.sys ∧
      (¬ Spurious irq master slave → ∀ handler, r.taken irq = some handler →
        ∃ c, call = some c ∧ c.handler = handler ∧ (c.v86 = 1 ↔ vmBit (regs RD.eflags) = true))
  | .finish irq =>
    ∃ s', (sendEOI (irq.vint.setWidth 8)).run r.sys = some ((), s') ∧
      recordAt s' = recordAt r.sys

/-- When an interrupt keeps the promise. A line that has been taken must be IRQ 0, with no other
line having a level, and the interrupted carry flag must agree with the VM bit; a line that has
not must be IRQ 0 or find no level at all. -/
def DispatchEvent.Undisturbed (r : Routing) : DispatchEvent → Prop
  | .acquire _ _ => True
  | .dispatch irq regs master slave =>
    Spurious irq master slave ∨
      if (r.taken irq).isSome then
        irq = 0 ∧ r.sys.interrupts.lvlBmp = INTERRUPT_LEVEL.busInuse.val ∧
          (regs RD.eflags).getLsbD 0 = vmBit (regs RD.eflags)
      else irq = 0 ∨ r.sys.interrupts.lvlBmp = 0
  | .finish _ => True

/-- A line that has been taken has the handler it was taken with. -/
def Routing.Inv (r : Routing) : Prop :=
  ∀ irq handler, r.taken irq = some handler → r.sys.interrupts.handler irq = handler

/-! ## The parts of a dispatch -/

theorem setWidth_eq_zero_iff (b : BYTE) : b.setWidth 16 = (0 : WORD) ↔ b = 0 := by
  revert b
  decide

/-- Where the controllers answer their in-service registers, the code's test for a spurious
interrupt is the in-service register being empty. -/
theorem isSpurious_iff {s : System} (hmaster : s.pics.master.readInService = true)
    (hslave : s.pics.slave.readInService = true) (irq : Irq) :
    isSpurious irq.vint (inService16 s) = true ↔
      Spurious irq s.pics.master.inService s.pics.slave.inService := by
  have hword : inService16 s =
      s.pics.master.inService.setWidth 16 ||| s.pics.slave.inService.setWidth 16 <<< 8 := by
    unfold inService16 PicPair.read Pic8259.readCommand
    rw [if_pos hmaster, if_pos hslave]
    rfl
  have h7 : irq.vint = 7 ↔ irq = 7 := Irq.vint_injective.eq_iff (b := 7)
  have h15 : irq.vint = 15 ↔ irq = 15 := Irq.vint_injective.eq_iff (b := 15)
  rw [isSpurious, hword, setWidth_or_shiftLeft_and, setWidth_or_shiftLeft_ushiftRight, Spurious]
  simp only [Bool.or_eq_true, Bool.and_eq_true, decide_eq_true_eq, h7, h15, setWidth_eq_zero_iff]

/-- The flag that a handler is passed is the interrupted carry flag, bit 0, where bit 17 is
meant. -/
theorem v86Interrupted_eq_one_iff (regs : Context) :
    v86Interrupted regs = 1 ↔ (regs RD.eflags).getLsbD 0 = true := by
  have hmask : v86Interrupted regs = regs RD.eflags &&& 1#32 := rfl
  rw [hmask, BitVec.and_one_eq_setWidth_ofBool_getLsbD]
  cases (regs RD.eflags).getLsbD 0 <;> decide

/-- An interrupt that is not spurious shifts the table. Every record survives that only when the
line is IRQ 0 or no line has a level. -/
theorem recordAt_dispatched_iff (s : System) (irq : Irq) (master slave : BYTE) :
    recordAt ((withInService s master slave).entered.withLevels (shiftedLevels s irq)) =
        recordAt s ↔
      irq = 0 ∨ s.interrupts.lvlBmp = 0 :=
  recordAt_withLevels_iff (withInService s master slave).entered irq

/-- An end of interrupt touches the controllers only, and leaves the record of each line. -/
theorem recordAt_afterEOI (s : System) (irq : Irq) : recordAt (s.afterEOI irq) = recordAt s := by
  unfold System.afterEOI
  split <;> rfl

/-! ## One event -/

/-- A held line whose records survive the dispatch is IRQ 0, and it has to be the only line that has
a level at all. -/
theorem shiftedLevels_eq_busInuse_iff (s : System) (irq : Irq) :
    shiftedLevels s irq = INTERRUPT_LEVEL.busInuse.val ∧
        (irq = 0 ∨ s.interrupts.lvlBmp = 0) ↔
      irq = 0 ∧ s.interrupts.lvlBmp = INTERRUPT_LEVEL.busInuse.val := by
  constructor
  · intro h
    obtain ⟨hshift, hsafe⟩ := h
    rcases hsafe with rfl | hzero
    · exact ⟨rfl, hshift⟩
    · have hempty : shiftedLevels s irq = 0 := by simp [shiftedLevels, hzero]
      rw [hempty] at hshift
      exact absurd hshift (by decide)
  · intro h
    obtain ⟨rfl, hw⟩ := h
    exact ⟨hw, Or.inl rfl⟩

section Dispatch

variable {s : System} {taken : Irq → Option FP_IRQ_HANDLR} {irq : Irq} {master slave : BYTE}

/-- An interrupt on a line that nobody has taken is owed no call: only the records count. -/
theorem dispatch_law_untaken (hsp : ¬ Spurious irq master slave) (htaken : taken irq = none)
    (regs : Context) :
    DispatchEvent.Law ⟨s, taken⟩ (.dispatch irq regs master slave) ↔
      DispatchEvent.Undisturbed ⟨s, taken⟩ (.dispatch irq regs master slave) := by
  have hspurious := isSpurious_iff (s := withInService s master slave) rfl rfl irq
  simp only [DispatchEvent.Law, DispatchEvent.Undisturbed, dispatchEnter_run, Option.some.injEq]
  rw [if_neg fun h => hsp (hspurious.mp h)]
  simp only [hsp, htaken, false_or, Option.isSome_none, Bool.false_eq_true, if_false]
  rw [← recordAt_dispatched_iff s irq master slave]
  constructor
  · rintro ⟨call, s', heq, hr, _⟩
    split at heq
    · cases heq
      exact hr
    · cases heq
      exact hr
  · intro hr
    by_cases hheld : shiftedLevels (withInService s master slave) irq =
        INTERRUPT_LEVEL.busInuse.val
    · rw [if_pos hheld]
      exact ⟨_, _, rfl, hr, fun _ h hnone => absurd hnone (by simp)⟩
    · rw [if_neg hheld]
      exact ⟨_, _, rfl, hr, fun _ h hnone => absurd hnone (by simp)⟩

/-- On a line that is taken, the shifted word must also be the one value that makes a call, and the
flag the call is given must be true. -/
theorem dispatch_law_taken {handler : FP_IRQ_HANDLR} (hsp : ¬ Spurious irq master slave)
    (htaken : taken irq = some handler) (hhandler : s.interrupts.handler irq = handler)
    (regs : Context) :
    DispatchEvent.Law ⟨s, taken⟩ (.dispatch irq regs master slave) ↔
      DispatchEvent.Undisturbed ⟨s, taken⟩ (.dispatch irq regs master slave) := by
  have hspurious := isSpurious_iff (s := withInService s master slave) rfl rfl irq
  simp only [DispatchEvent.Law, DispatchEvent.Undisturbed, dispatchEnter_run, Option.some.injEq]
  rw [if_neg fun h => hsp (hspurious.mp h)]
  simp only [hsp, htaken, false_or, Option.isSome_some, if_true]
  rw [← and_assoc, ← shiftedLevels_eq_busInuse_iff, ← recordAt_dispatched_iff s irq master slave]
  constructor
  · rintro ⟨call, s', heq, hr, hcall⟩
    obtain ⟨c, hc, _, hv86⟩ := hcall not_false handler rfl
    split at heq
    · rename_i hheld
      cases heq
      cases hc
      refine ⟨⟨hheld, hr⟩, ?_⟩
      rw [Bool.eq_iff_iff, ← v86Interrupted_eq_one_iff]
      exact hv86
    · cases heq
      exact absurd hc (by simp)
  · rintro ⟨⟨hheld, hr⟩, hflags⟩
    have hheld' : shiftedLevels (withInService s master slave) irq =
        INTERRUPT_LEVEL.busInuse.val := hheld
    rw [if_pos hheld']
    refine ⟨_, _, rfl, hr, fun _ h hsome => ⟨_, rfl, ?_, ?_⟩⟩
    · rw [← Option.some.inj hsome]
      exact hhandler
    · rw [v86Interrupted_eq_one_iff, hflags]

end Dispatch

/-- An interrupt keeps its promise exactly when it is undisturbed, in a state whose handlers are
those that were acquired. -/
theorem dispatch_law_iff {r : Routing} (hinv : r.Inv) (irq : Irq) (regs : Context)
    (master slave : BYTE) :
    DispatchEvent.Law r (.dispatch irq regs master slave) ↔
      DispatchEvent.Undisturbed r (.dispatch irq regs master slave) := by
  obtain ⟨s, taken⟩ := r
  by_cases hsp : Spurious irq master slave
  · have hspurious := isSpurious_iff (s := withInService s master slave) rfl rfl irq
    simp only [DispatchEvent.Law, DispatchEvent.Undisturbed, dispatchEnter_run, Option.some.injEq]
    rw [if_pos (hspurious.mpr hsp)]
    exact iff_of_true ⟨_, _, rfl, rfl, fun hns => absurd hsp hns⟩ (Or.inl hsp)
  · cases htaken : taken irq with
    | none => exact dispatch_law_untaken hsp htaken regs
    | some handler => exact dispatch_law_taken hsp htaken (hinv irq handler htaken) regs

/-- Every event keeps its promise exactly when it is undisturbed. The acquisition of a line promises
nothing. -/
theorem DispatchEvent.law_iff {r : Routing} (hinv : r.Inv) (e : DispatchEvent) :
    DispatchEvent.Law r e ↔ DispatchEvent.Undisturbed r e := by
  cases e with
  | acquire irq handler => exact Iff.rfl
  | dispatch irq regs master slave => exact dispatch_law_iff hinv irq regs master slave
  | finish irq => exact iff_of_true ⟨_, sendEOI_run r.sys irq, recordAt_afterEOI r.sys irq⟩ trivial

/-- Only an acquisition writes a handler, and it writes the one that is remembered. So the table
agrees with the memory after each step. -/
theorem routingStep_inv {kernelBusHdr : PDRIVER_HEADER} {r r' : Routing} {e : DispatchEvent}
    (hinv : r.Inv) (hstep : routingStep kernelBusHdr r e = some r') : r'.Inv := by
  cases e with
  | acquire irq handler =>
    rw [routingStep, inAcquireLegacyIRQ_run, Option.map_some] at hstep
    split at hstep
    · cases hstep
      exact hinv
    · cases hstep
      intro j h hj
      show ((r.sys.withLevels _).withEntry irq .busInuse handler kernelBusHdr).interrupts.handler j
        = h
      rw [withEntry_handler]
      by_cases hji : j = irq
      · subst hji
        have hh : some handler = some h := by simpa [Routing.acquired] using hj
        rw [if_pos rfl]
        exact Option.some.inj hh
      · have hold : r.taken j = some h := by simpa [Routing.acquired, hji] using hj
        rw [if_neg hji]
        exact hinv j h hold
  | dispatch irq regs master slave =>
    rw [routingStep, dispatchEnter_run, Option.map_some] at hstep
    cases hstep
    intro j h hj
    have hold := hinv j h hj
    dsimp only
    split
    · exact hold
    · split <;> exact hold
  | finish irq =>
    rw [routingStep, sendEOI_run, Option.map_some] at hstep
    cases hstep
    intro j h hj
    have hold := hinv j h hj
    have hsame := congrArg IrqRecord.handler (congrFun (recordAt_afterEOI r.sys irq) j)
    exact hsame.trans hold

/-- For every table and every run of acquisitions and interrupts, in any order and nested in any
way: every interrupt reaches the handler that took its line, told truly which mode it stopped, and
leaves the table as it was, exactly when every interrupt of the run is undisturbed. The handlers
themselves are not run: what they do shows in the events that follow. -/
theorem dispatchRun_law_iff (kernelBusHdr : PDRIVER_HEADER) (s : System)
    (es : List DispatchEvent) :
    EachStep (routingStep kernelBusHdr) DispatchEvent.Law ⟨s, fun _ => none⟩ es ↔
      EachStep (routingStep kernelBusHdr) DispatchEvent.Undisturbed ⟨s, fun _ => none⟩ es :=
  EachStep.congr Routing.Inv (fun _ _ _ hinv _ hstep => routingStep_inv hinv hstep)
    (fun _ e hinv => DispatchEvent.law_iff hinv e) (fun _ _ h => absurd h (by simp)) es

/-- IRQ 5 is taken and comes in: the query has shifted its level away, so that it is not in use
any more. -/
theorem dispatchRun_five :
    ¬ EachStep (routingStep 0xC0003000) DispatchEvent.Law ⟨System.powerUp, fun _ => none⟩
        [.acquire 5 0xC0001000, .dispatch 5 (fun _ => 0x202) 0x20 0] := by
  intro hrun
  obtain ⟨_, hrest⟩ := hrun
  have hstep : routingStep 0xC0003000 ⟨System.powerUp, fun _ => none⟩
      (.acquire 5 0xC0001000) =
        some ⟨(System.powerUp.withLevels (shiftedLevels System.powerUp 5)).withEntry 5 .busInuse
          0xC0001000 0xC0003000, Function.update (fun _ => none) 5 (some 0xC0001000)⟩ := by
    rw [routingStep, inAcquireLegacyIRQ_run, if_neg (by decide), Option.map_some]
    rfl
  obtain ⟨hlaw, _⟩ := hrest _ hstep
  have hinv := routingStep_inv (fun _ _ h => absurd h (by simp)) hstep
  rcases (DispatchEvent.law_iff hinv _).mp hlaw with hsp | hheld
  · exact absurd hsp (by decide)
  · exact absurd hheld.1 (by decide)

end OS90.Laws
