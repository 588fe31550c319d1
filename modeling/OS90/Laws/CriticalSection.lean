import OS90.Kernel.PnpMgr
import OS90.Lib.Run

/-!
# Nested critical sections

A run is any properly nested sequence of the two macros and of the PnP manager's calls, from either
interrupt flag and with any interrupt numbers. A call is taken apart into its actions
(`Call.actions`, which `Call.step_eq` shows to be the call), so that the law speaks of every point
inside it: within the outermost section the flag is off, outside it is what it was at the start
(`Sections.Atomic`).

`ExitCriticalSection` turns interrupts on whatever they were before. The law holds of a run exactly
when every section that ends is an outermost one, entered with interrupts on, and every number
indexes the table (`sectionRun_law_iff`). A call with a number of sixteen or more stores outside of
the two arrays; C gives it no meaning, so the law asks that every action be carried out, and such a
call breaks it. Nothing here is about other processors or about a handler that runs between two
actions: the flag is looked at as the code of one thread leaves it.
-/

namespace OS90.Laws

open OS90.Kernel OS90.Run

/-! ## Actions -/

/-- The statements of `SetInterruptEntry` between the two macros. -/
def writeEntry (irq : VINT) (lvl : INTERRUPT_LEVEL) (handler : FP_IRQ_HANDLR)
    (owner : PDRIVER_HEADER) : KernelM Unit := do
  let handlers ← store (← get).interrupts.handlers irq handler
  modify fun s => { s with interrupts := { s.interrupts with handlers := handlers } }
  let owners ← store (← get).interrupts.owners irq owner
  modify fun s => { s with interrupts := { s.interrupts with owners := owners } }
  let count := irq * 2#32
  if count < 32#32 then
    modify fun s =>
      { s with interrupts :=
        { s.interrupts with lvlBmp := s.interrupts.lvlBmp ||| lvl.val <<< count } }
  else failure

/-- What a call does between two points at which the interrupt flag is looked at. -/
inductive Action where
  | enter
  | exit
  | readImr
  | query (irq : VINT)
  | write (irq : VINT) (lvl : INTERRUPT_LEVEL) (handler : FP_IRQ_HANDLR) (owner : PDRIVER_HEADER)

def Action.exec : Action → KernelM Unit
  | .enter => enterCriticalSecttion
  | .exit => exitCriticalSection
  | .readImr => do
    let _imr0 ← picInb 0x21#16
  | .query irq => do
    let _levels ← inGetInterruptLevel irq
  | .write irq lvl handler owner => writeEntry irq lvl handler owner

/-- How many sections are open after an action. A section cannot end that was not entered. -/
def Action.depth (depth : Nat) : Action → Option Nat
  | .enter => some (depth + 1)
  | .exit =>
    match depth with
    | 0 => none
    | outer + 1 => some outer
  | _ => some depth

/-- The system, the number of open sections, and the interrupt flag the run began with. -/
structure Sections where
  s : System
  depth : Nat
  initial : Bool

def actionStep (r : Sections) (a : Action) : Option Sections := do
  let depth ← a.depth r.depth
  let (_, s) ← a.exec.run r.s
  return ⟨s, depth, r.initial⟩

/-- Interrupts are off in a section, and outside they are as they were at the start. -/
def Sections.Atomic (r : Sections) : Prop :=
  r.s.intFlag = if 0 < r.depth then false else r.initial

/-- At the start of a run no section is open, and the flag is the one from before. -/
theorem atomic_start (s : System) : Sections.Atomic ⟨s, 0, s.intFlag⟩ := by
  rw [Sections.Atomic, if_neg (Nat.lt_irrefl 0)]

/-- Where the nesting allows an action, it is carried out, and leaves the flag as it should be. -/
def Action.Law (r : Sections) (a : Action) : Prop :=
  (a.depth r.depth).isSome → ∃ r', actionStep r a = some r' ∧ r'.Atomic

/-- No section is open, and the run began with interrupts on. -/
def Sections.Outside (r : Sections) : Prop := r.depth = 0 ∧ r.initial = true

/-- A section that ends is an outermost one, in a run that began with interrupts on; a query
shifts by less than the word's width, and a write has a line of the table. -/
def Action.Safe (r : Sections) : Action → Prop
  | .exit => 0 < r.depth → r.depth = 1 ∧ r.initial = true
  | .query irq => irq * 2#32 < 32#32
  | .write irq _ _ _ => irq.toNat < 16
  | .enter | .readImr => True

/-! ## What an action does -/

/-- For a line of the table the shift of the bitmap is within its 32 bits. -/
theorem mul_two_lt {irq : VINT} (h : irq.toNat < 16) : irq * 2#32 < 32#32 := by
  rw [BitVec.lt_def, BitVec.toNat_mul]
  simp only [BitVec.toNat_ofNat]
  omega

theorem two_mul_two_lt : 2#32 * 2#32 < 32#32 := mul_two_lt (by decide)

/-- A query with any number. The count of its shift is doubled in 32 bits, and so may wrap to one
that is defined. -/
theorem query_run (irq : VINT) (s : System) :
    (inGetInterruptLevel irq).run s =
      if irq * 2#32 < 32#32 then
        some (s.interrupts.lvlBmp >>> (irq * 2#32),
          s.withLevels (s.interrupts.lvlBmp >>> (irq * 2#32)))
      else none := by
  rw [inGetInterruptLevel]
  split
  · rfl
  · rfl

section Write

variable (irq : VINT) (lvl : INTERRUPT_LEVEL) (handler : FP_IRQ_HANDLR) (owner : PDRIVER_HEADER)
  (s : System)

/-- The statements between the macros need a line of the table, and leave the flag. -/
theorem writeEntry_run_of_lt (h : irq.toNat < 16) :
    ∃ table,
      (writeEntry irq lvl handler owner).run s = some ((), { s with interrupts := table }) := by
  have hcount : irq * 2#32 < 32#32 := mul_two_lt h
  simp only [writeEntry, store, dif_pos h, if_pos hcount]
  exact ⟨_, rfl⟩

/-- For a line outside of it the store is past the end of the arrays, and the model has no
successor. -/
theorem writeEntry_run_of_ge (h : ¬ irq.toNat < 16) :
    (writeEntry irq lvl handler owner).run s = none := by
  simp only [writeEntry, store, dif_neg h]
  rfl

/-- The table is written in a critical section, with nothing between entry and exit that opens
another. -/
theorem setInterruptEntry_eq :
    setInterruptEntry irq lvl handler owner = (do
      enterCriticalSecttion
      writeEntry irq lvl handler owner
      exitCriticalSection) := by
  by_cases hcount : irq * 2#32 < 32#32
  · simp only [setInterruptEntry, writeEntry, if_pos hcount, bind_assoc]
  · simp only [setInterruptEntry, writeEntry, if_neg hcount, bind_assoc]

end Write

/-- All that an action can do to the flag and to the depth. The law and the invariant are proved
from these three cases. -/
theorem actionStep_cases {r r' : Sections} {a : Action} (h : actionStep r a = some r') :
    r'.initial = r.initial ∧
      ((a = .enter ∧ r'.depth = r.depth + 1 ∧ r'.s.intFlag = false) ∨
        (a = .exit ∧ r.depth = r'.depth + 1 ∧ r'.s.intFlag = true) ∨
          (a ≠ .exit ∧ r'.depth = r.depth ∧ r'.s.intFlag = r.s.intFlag)) := by
  obtain ⟨depth, hdepth, h⟩ := Option.bind_eq_some_iff.mp h
  obtain ⟨p, hexec, h⟩ := Option.bind_eq_some_iff.mp h
  cases h
  refine ⟨rfl, ?_⟩
  cases a with
  | enter =>
    cases hdepth
    cases hexec
    exact Or.inl ⟨rfl, rfl, rfl⟩
  | exit =>
    cases hr : r.depth with
    | zero =>
      rw [hr] at hdepth
      cases hdepth
    | succ outer =>
      rw [hr] at hdepth
      cases hdepth
      cases hexec
      exact Or.inr (Or.inl ⟨rfl, rfl, rfl⟩)
  | readImr =>
    cases hdepth
    simp only [Action.exec, StateT.run_bind, picInb_run] at hexec
    cases hexec
    exact Or.inr (Or.inr ⟨by simp, rfl, rfl⟩)
  | query irq =>
    cases hdepth
    simp only [Action.exec, StateT.run_bind, query_run] at hexec
    split at hexec
    · cases hexec
      exact Or.inr (Or.inr ⟨by simp, rfl, rfl⟩)
    · cases hexec
  | write irq lvl handler owner =>
    cases hdepth
    rw [Action.exec] at hexec
    by_cases hirq : irq.toNat < 16
    · obtain ⟨table, hrun⟩ := writeEntry_run_of_lt irq lvl handler owner r.s hirq
      rw [hrun] at hexec
      cases hexec
      exact Or.inr (Or.inr ⟨by simp, rfl, rfl⟩)
    · rw [writeEntry_run_of_ge irq lvl handler owner r.s hirq] at hexec
      cases hexec

/-- A query is carried out when the shift is defined. -/
theorem actionStep_query (r : Sections) {irq : VINT} (h : irq * 2#32 < 32#32) :
    ∃ r', actionStep r (.query irq) = some r' := by
  simp only [actionStep, Action.depth, Action.exec, StateT.run_bind, query_run, if_pos h]
  exact ⟨_, rfl⟩

/-- And only then. -/
theorem actionStep_query_none (r : Sections) {irq : VINT} (h : ¬ irq * 2#32 < 32#32) :
    actionStep r (.query irq) = none := by
  simp only [actionStep, Action.depth, Action.exec, StateT.run_bind, query_run, if_neg h]
  rfl

/-- An action that no rule of C leaves undefined is carried out where the nesting allows it. -/
theorem exists_actionStep {r : Sections} {a : Action} (hsafe : a.Safe r)
    (hnested : (a.depth r.depth).isSome) : ∃ r', actionStep r a = some r' := by
  cases a with
  | enter => exact ⟨_, rfl⟩
  | exit =>
    obtain ⟨depth, hdepth⟩ := Option.isSome_iff_exists.mp hnested
    simp only [actionStep, hdepth]
    exact ⟨_, rfl⟩
  | readImr => exact ⟨_, rfl⟩
  | query irq => exact actionStep_query r hsafe
  | write irq lvl handler owner =>
    obtain ⟨table, hrun⟩ := writeEntry_run_of_lt irq lvl handler owner r.s hsafe
    simp only [actionStep, Action.depth, Action.exec, hrun]
    exact ⟨_, rfl⟩

/-- An action keeps the law exactly when it is safe, in a state where the flag is what the depth
says. -/
theorem Action.law_iff {r : Sections} (h : r.Atomic) (a : Action) : a.Law r ↔ a.Safe r := by
  constructor
  · intro hlaw
    cases a with
    | enter => trivial
    | exit =>
      intro hopen
      obtain ⟨outer, hdepth⟩ : ∃ outer, r.depth = outer + 1 := ⟨r.depth - 1, by omega⟩
      obtain ⟨r', hstep, hatomic⟩ := hlaw (by rw [hdepth]; rfl)
      have hexit : r' = ⟨{ r.s with intFlag := true }, outer, r.initial⟩ := by
        rw [actionStep, hdepth] at hstep
        exact (Option.some.inj hstep).symm
      have hflag : true = if 0 < outer then false else r.initial := by
        rw [hexit] at hatomic
        exact hatomic
      split at hflag
      · cases hflag
      · exact ⟨by omega, hflag.symm⟩
    | readImr => trivial
    | query irq =>
      obtain ⟨r', hstep, _⟩ := hlaw rfl
      by_contra hwide
      rw [actionStep_query_none r hwide] at hstep
      cases hstep
    | write irq lvl handler owner =>
      obtain ⟨r', hstep, _⟩ := hlaw rfl
      by_contra houtside
      have hnone : (Action.write irq lvl handler owner).exec.run r.s = none :=
        writeEntry_run_of_ge irq lvl handler owner r.s houtside
      simp only [actionStep, Action.depth, hnone] at hstep
      cases hstep
  · intro hsafe hnested
    obtain ⟨r', hstep⟩ := exists_actionStep hsafe hnested
    refine ⟨r', hstep, ?_⟩
    obtain ⟨hinitial, hcases⟩ := actionStep_cases hstep
    rcases hcases with ⟨_, hdepth, hflag⟩ | ⟨rfl, hdepth, hflag⟩ | ⟨_, hdepth, hflag⟩
    · rw [Sections.Atomic, hflag, hdepth, if_pos (Nat.succ_pos _)]
    · obtain ⟨hone, hon⟩ := hsafe (by omega)
      rw [Sections.Atomic, hflag, hinitial, if_neg (by omega), hon]
    · rw [Sections.Atomic, hflag, hdepth, hinitial]
      exact h

/-! ## Calls -/

/-- The macros and the functions that run them. -/
inductive Call where
  | enter
  | exit
  | setInterruptEntry (irq : VINT) (lvl : INTERRUPT_LEVEL) (handler : FP_IRQ_HANDLR)
    (owner : PDRIVER_HEADER)
  | inAcquireLegacyIRQ (irq : VINT) (handler : FP_IRQ_HANDLR)
  | initDetectFreeInt
deriving DecidableEq

section Calls

variable (kernelBusHdr : PDRIVER_HEADER)

def Call.exec : Call → KernelM Unit
  | .enter => enterCriticalSecttion
  | .exit => exitCriticalSection
  | .setInterruptEntry irq lvl handler owner => Kernel.setInterruptEntry irq lvl handler owner
  | .inAcquireLegacyIRQ irq handler => do
    let _status ← Kernel.inAcquireLegacyIRQ kernelBusHdr irq handler
  | .initDetectFreeInt => Kernel.initDetectFreeInt kernelBusHdr

/-- The functions leave as many sections open as they find. -/
def Call.depth (depth : Nat) : Call → Option Nat
  | .enter => Action.enter.depth depth
  | .exit => Action.exit.depth depth
  | _ => some depth

def Call.step (r : Sections) (c : Call) : Option Sections := do
  let depth ← c.depth r.depth
  let (_, s) ← (c.exec kernelBusHdr).run r.s
  return ⟨s, depth, r.initial⟩

def setActions (irq : VINT) (lvl : INTERRUPT_LEVEL) (handler : FP_IRQ_HANDLR)
    (owner : PDRIVER_HEADER) : List Action :=
  [.enter, .write irq lvl handler owner, .exit]

/-- The line is in use, as the query answers it. -/
def Refused (levels : DWORD) (irq : VINT) : Prop :=
  levels >>> (irq * 2#32) = INTERRUPT_LEVEL.busInuse.val

instance (levels : DWORD) (irq : VINT) : Decidable (Refused levels irq) :=
  inferInstanceAs (Decidable (_ = _))

def acquireActions (levels : DWORD) (irq : VINT) (handler : FP_IRQ_HANDLR) : List Action :=
  .query irq ::
    if Refused levels irq then [] else setActions irq .busInuse handler kernelBusHdr

/-- Line 2 is DOS's, as the query answers it. -/
def SlaveReclaimable (levels : DWORD) : Prop :=
  levels >>> (2#32 * 2#32) = INTERRUPT_LEVEL.recl16.val

instance (levels : DWORD) : Decidable (SlaveReclaimable levels) :=
  inferInstanceAs (Decidable (_ = _))

def detectActions (levels : DWORD) : List Action :=
  .readImr :: .query 2#32 ::
    if SlaveReclaimable levels then acquireActions kernelBusHdr (levels >>> (2#32 * 2#32)) 9#32 0
    else []

/-- A call, action by action. -/
def Call.actions (s : System) : Call → List Action
  | .enter => [.enter]
  | .exit => [.exit]
  | .setInterruptEntry irq lvl handler owner => setActions irq lvl handler owner
  | .inAcquireLegacyIRQ irq handler => acquireActions kernelBusHdr s.interrupts.lvlBmp irq handler
  | .initDetectFreeInt => detectActions kernelBusHdr s.interrupts.lvlBmp

/-- The statements of a list of actions, one after the other. -/
def execAll : List Action → KernelM Unit
  | [] => return ()
  | a :: as => do
    a.exec
    execAll as

/-- The sections open after a list of actions. -/
def depthAll : Nat → List Action → Option Nat
  | depth, [] => some depth
  | depth, a :: as => (a.depth depth).bind fun depth' => depthAll depth' as

/-- A run of actions is two things side by side, the counting of the sections and the execution on
the system. Where either stops, so does the run. -/
theorem final_actionStep (r : Sections) (as : List Action) :
    final actionStep r as = (depthAll r.depth as).bind fun depth =>
      ((execAll as).run r.s).map fun p => ⟨p.2, depth, r.initial⟩ := by
  induction as generalizing r with
  | nil => rfl
  | cons a as ih =>
    simp only [final, actionStep, depthAll, execAll, StateT.run_bind, Option.bind_eq_bind,
      Option.bind_assoc, Option.pure_def]
    cases a.depth r.depth with
    | none => rfl
    | some depth =>
      simp only [Option.bind_some, ih]
      cases a.exec.run r.s with
      | none => cases depthAll depth as <;> rfl
      | some p => rfl

/-- The actions of `SetInterruptEntry` do what the function does. -/
theorem execAll_setActions (irq : VINT) (lvl : INTERRUPT_LEVEL) (handler : FP_IRQ_HANDLR)
    (owner : PDRIVER_HEADER) :
    execAll (setActions irq lvl handler owner) =
      Kernel.setInterruptEntry irq lvl handler owner := by
  rw [setInterruptEntry_eq]
  simp only [setActions, execAll, Action.exec, bind_pure_unit]

/-- So do those of `InAcquireLegacyIRQ`. Which of them are taken depends on the level bitmap, which
the premise fixes. -/
theorem execAll_acquireActions (irq : VINT) (handler : FP_IRQ_HANDLR) {s : System}
    {levels : DWORD} (hlevels : s.interrupts.lvlBmp = levels) :
    (execAll (acquireActions kernelBusHdr levels irq handler)).run s =
      (do let _status ← Kernel.inAcquireLegacyIRQ kernelBusHdr irq handler : KernelM Unit).run
        s := by
  rw [acquireActions, execAll, Kernel.inAcquireLegacyIRQ]
  simp only [Action.exec, StateT.run_bind, query_run, hlevels]
  by_cases hcount : irq * 2#32 < 32#32
  · by_cases hrefused : Refused levels irq
    · have heq : levels >>> (irq * 2#32) = INTERRUPT_LEVEL.busInuse.val := hrefused
      simp only [if_pos hcount, if_pos hrefused, execAll, Option.bind_eq_bind, Option.bind_some,
        if_pos heq]
      rfl
    · have hne : ¬ levels >>> (irq * 2#32) = INTERRUPT_LEVEL.busInuse.val := hrefused
      simp only [if_pos hcount, if_neg hrefused, execAll_setActions, Option.bind_eq_bind,
        Option.bind_some, if_neg hne, StateT.run_bind, Option.bind_assoc, StateT.run_pure,
        Option.pure_def]
      cases (Kernel.setInterruptEntry irq .busInuse handler kernelBusHdr).run
          (s.withLevels (levels >>> (irq * 2#32))) with
      | none => rfl
      | some p => rfl
  · simp only [if_neg hcount]
    rfl

/-- Every call is the execution of its actions. -/
theorem execAll_actions (c : Call) (s : System) :
    (execAll (c.actions kernelBusHdr s)).run s = (c.exec kernelBusHdr).run s := by
  cases c with
  | enter => rfl
  | exit => rfl
  | setInterruptEntry irq lvl handler owner =>
    rw [Call.actions, execAll_setActions, Call.exec]
  | inAcquireLegacyIRQ irq handler => exact execAll_acquireActions kernelBusHdr irq handler rfl
  | initDetectFreeInt =>
    rw [Call.actions, detectActions, execAll, execAll, Call.exec, Kernel.initDetectFreeInt]
    simp only [Action.exec, StateT.run_bind, query_run, picInb_run, Option.bind_eq_bind,
      Option.bind_some, if_pos two_mul_two_lt, StateT.run_pure, Option.pure_def]
    by_cases hslave : SlaveReclaimable s.interrupts.lvlBmp
    · have heq : s.interrupts.lvlBmp >>> (2#32 * 2#32) = INTERRUPT_LEVEL.recl16.val := hslave
      rw [if_pos hslave, if_pos heq]
      exact execAll_acquireActions kernelBusHdr 9#32 0 rfl
    · have hne : ¬ s.interrupts.lvlBmp >>> (2#32 * 2#32) = INTERRUPT_LEVEL.recl16.val := hslave
      rw [if_neg hslave, if_neg hne]
      rfl

/-- Every call opens and closes its sections as it says. -/
theorem depthAll_actions (c : Call) (s : System) (depth : Nat) :
    depthAll depth (c.actions kernelBusHdr s) = c.depth depth := by
  cases c with
  | enter => rfl
  | exit =>
    cases depth with
    | zero => rfl
    | succ outer => rfl
  | setInterruptEntry irq lvl handler owner => rfl
  | inAcquireLegacyIRQ irq handler =>
    rw [Call.actions, acquireActions]
    split
    · rfl
    · rfl
  | initDetectFreeInt =>
    rw [Call.actions, detectActions]
    split
    · rw [acquireActions]
      split
      · rfl
      · rfl
    · rfl

/-- A step of a run of calls is a run of the actions of the call, so that what holds of every action
holds of every call. -/
theorem Call.step_eq (r : Sections) (c : Call) :
    Call.step kernelBusHdr r c = final actionStep r (c.actions kernelBusHdr r.s) := by
  rw [final_actionStep, depthAll_actions, execAll_actions, Call.step]
  cases c.depth r.depth with
  | none => rfl
  | some depth =>
    cases (c.exec kernelBusHdr).run r.s with
    | none => rfl
    | some p => rfl

/-- Every point a call goes through keeps the law of its action. -/
def Call.Law (r : Sections) (c : Call) : Prop :=
  EachStep actionStep Action.Law r (c.actions kernelBusHdr r.s)

end Calls

/-- A section ends only as an outermost one, entered with interrupts on; and so does the section
of each call that enters one. The numbers of the calls index the table. -/
def Call.Safe (r : Sections) : Call → Prop
  | .enter => True
  | .exit => 0 < r.depth → r.depth = 1 ∧ r.initial = true
  | .setInterruptEntry irq _ _ _ => irq.toNat < 16 ∧ r.Outside
  | .inAcquireLegacyIRQ irq _ =>
    irq * 2#32 < 32#32 ∧ (¬ Refused r.s.interrupts.lvlBmp irq → irq.toNat < 16 ∧ r.Outside)
  | .initDetectFreeInt => SlaveReclaimable r.s.interrupts.lvlBmp → r.Outside

/-! ## The law of a call -/

section Law

variable (kernelBusHdr : PDRIVER_HEADER)

/-- The section of `SetInterruptEntry` is safe where it is an outermost one and the line is in the
table. -/
theorem setActions_safe_iff (r : Sections) (irq : VINT) (lvl : INTERRUPT_LEVEL)
    (handler : FP_IRQ_HANDLR) (owner : PDRIVER_HEADER) :
    EachStep actionStep Action.Safe r (setActions irq lvl handler owner) ↔
      irq.toNat < 16 ∧ r.Outside := by
  constructor
  · intro hsafe
    obtain ⟨_, hentered⟩ := hsafe
    obtain ⟨hirq, hwritten⟩ := hentered ⟨{ r.s with intFlag := false }, r.depth + 1, r.initial⟩ rfl
    obtain ⟨table, hrun⟩ :=
      writeEntry_run_of_lt irq lvl handler owner { r.s with intFlag := false } hirq
    obtain ⟨hexit, _⟩ := hwritten
      ⟨{ r.s with intFlag := false, interrupts := table }, r.depth + 1, r.initial⟩ (by
        simp only [actionStep, Action.exec, hrun]
        rfl)
    obtain ⟨hone, hon⟩ := hexit (Nat.succ_pos _)
    exact ⟨hirq, Nat.succ.inj hone, hon⟩
  · rintro ⟨hirq, hzero, hon⟩
    refine ⟨trivial, fun entered henter => ⟨hirq, fun written hwrite => ⟨fun _ => ?_, ?_⟩⟩⟩
    · cases henter
      obtain ⟨hinitial, hcases⟩ := actionStep_cases hwrite
      rcases hcases with ⟨hname, _⟩ | ⟨hname, _⟩ | ⟨_, hdepth, _⟩
      · cases hname
      · cases hname
      · exact ⟨by rw [hdepth, hzero], hinitial.trans hon⟩
    · intro _ _
      trivial

/-- An action that is neither macro leaves the sections as they are, and so whether there is one
around it. -/
theorem outside_of_actionStep {r r' : Sections} {a : Action} (h : actionStep r a = some r')
    (henter : a ≠ .enter) (hexit : a ≠ .exit) : r'.Outside ↔ r.Outside := by
  obtain ⟨hinitial, hcases⟩ := actionStep_cases h
  rcases hcases with ⟨hname, _⟩ | ⟨hname, _⟩ | ⟨_, hdepth, _⟩
  · exact absurd hname henter
  · exact absurd hname hexit
  · rw [Sections.Outside, Sections.Outside, hdepth, hinitial]

theorem actionStep_readImr (r : Sections) : ∃ r', actionStep r .readImr = some r' := ⟨_, rfl⟩

/-- An acquisition is safe where its query is defined and it refuses, or where the section it
enters is an outermost one. -/
theorem acquireActions_safe_iff (r : Sections) (levels : DWORD) (irq : VINT)
    (handler : FP_IRQ_HANDLR) :
    EachStep actionStep Action.Safe r (acquireActions kernelBusHdr levels irq handler) ↔
      irq * 2#32 < 32#32 ∧ (¬ Refused levels irq → irq.toNat < 16 ∧ r.Outside) := by
  rw [acquireActions]
  refine and_congr_right fun hcount => ?_
  obtain ⟨queried, hstep⟩ := actionStep_query r hcount
  have houtside : queried.Outside ↔ r.Outside :=
    outside_of_actionStep hstep (by simp) (by simp)
  by_cases hrefused : Refused levels irq
  · rw [if_pos hrefused]
    exact ⟨fun _ hfree => absurd hrefused hfree, fun _ _ _ => trivial⟩
  · rw [if_neg hrefused]
    constructor
    · intro hsafe _
      rw [← houtside]
      exact (setActions_safe_iff _ _ _ _ _).mp (hsafe queried hstep)
    · intro hsafe queried' hstep'
      rw [hstep] at hstep'
      cases hstep'
      rw [setActions_safe_iff, houtside]
      exact hsafe hrefused

/-- The word that the query of line 2 leaves behind has no level for line 9, so that its acquisition
is not refused. -/
theorem not_refused_nine {levels : DWORD} (h : SlaveReclaimable levels) :
    ¬ Refused (levels >>> (2#32 * 2#32)) 9#32 := by
  rw [SlaveReclaimable] at h
  rw [Refused, h]
  decide

/-- `InDetectSlaveIRQs` is lawful if it has no line to take, or runs outside of a section: its calls
to acquire a line end a section each. -/
theorem detectActions_safe_iff (r : Sections) (levels : DWORD) :
    EachStep actionStep Action.Safe r (detectActions kernelBusHdr levels) ↔
      (SlaveReclaimable levels → r.Outside) := by
  rw [detectActions]
  by_cases hslave : SlaveReclaimable levels
  · rw [if_pos hslave]
    constructor
    · intro hsafe _
      obtain ⟨_, hread⟩ := hsafe
      obtain ⟨read, hreadStep⟩ := actionStep_readImr r
      obtain ⟨_, hqueried⟩ := hread read hreadStep
      obtain ⟨queried, hquery⟩ := actionStep_query read two_mul_two_lt
      obtain ⟨_, hfree⟩ := (acquireActions_safe_iff _ _ _ _ _).mp (hqueried queried hquery)
      obtain ⟨_, houtside⟩ := hfree (not_refused_nine hslave)
      rw [outside_of_actionStep hquery (by simp) (by simp),
        outside_of_actionStep hreadStep (by simp) (by simp)] at houtside
      exact houtside
    · intro houtside
      refine ⟨trivial, fun read hread => ⟨two_mul_two_lt, fun queried hquery => ?_⟩⟩
      refine (acquireActions_safe_iff _ _ _ _ _).mpr
        ⟨mul_two_lt (by decide), fun _ => ⟨by decide, ?_⟩⟩
      rw [outside_of_actionStep hquery (by simp) (by simp),
        outside_of_actionStep hread (by simp) (by simp)]
      exact houtside hslave
  · rw [if_neg hslave]
    exact ⟨fun _ h => absurd h hslave,
      fun _ => ⟨trivial, fun _ _ => ⟨two_mul_two_lt, fun _ _ => trivial⟩⟩⟩

/-- The step of the invariant for one action: after a lawful one the flag is again what the depth
says. -/
theorem actionStep_atomic (r : Sections) (a : Action) (r' : Sections) (_ : r.Atomic)
    (hlaw : a.Law r) (hstep : actionStep r a = some r') : r'.Atomic := by
  obtain ⟨depth, hdepth, _⟩ := Option.bind_eq_some_iff.mp hstep
  obtain ⟨r'', hstep', hatomic⟩ := hlaw (by rw [hdepth]; rfl)
  rw [hstep] at hstep'
  cases hstep'
  exact hatomic

/-- The condition is exact. A call keeps the law if and only if it is safe where it is made,
provided the state before it is atomic. -/
theorem Call.law_iff {r : Sections} (h : r.Atomic) (c : Call) :
    c.Law kernelBusHdr r ↔ c.Safe r := by
  have hsafe := EachStep.congr Sections.Atomic actionStep_atomic (fun _ a h => Action.law_iff h a) h
    (c.actions kernelBusHdr r.s)
  refine hsafe.trans ?_
  cases c with
  | enter => exact ⟨fun _ => trivial, fun _ => ⟨trivial, fun _ _ => trivial⟩⟩
  | exit => exact ⟨fun h => h.1, fun h => ⟨h, fun _ _ => trivial⟩⟩
  | setInterruptEntry irq lvl handler owner => exact setActions_safe_iff r irq lvl handler owner
  | inAcquireLegacyIRQ irq handler => exact acquireActions_safe_iff kernelBusHdr r _ irq handler
  | initDetectFreeInt => exact detectActions_safe_iff kernelBusHdr r _

/-- The step of the invariant: after a lawful call the flag is again what the depth says. -/
theorem Call.step_atomic (r : Sections) (c : Call) (r' : Sections) (h : r.Atomic)
    (hlaw : c.Law kernelBusHdr r) (hstep : Call.step kernelBusHdr r c = some r') : r'.Atomic := by
  rw [Call.step_eq] at hstep
  exact EachStep.final_inv actionStep_atomic h hlaw hstep

/-- For every properly nested run of sections and calls, from either interrupt flag and with any
interrupt numbers: interrupts are off within the outermost section and as they were outside of it,
at every point, exactly when each section that ends is an outermost one entered with interrupts on,
and the numbers index the table. The condition on a step is about the state before it: the open
sections, the flag at the start, and the level word the query will shift. -/
theorem sectionRun_law_iff (s : System) (cs : List Call) :
    EachStep (Call.step kernelBusHdr) (Call.Law kernelBusHdr) ⟨s, 0, s.intFlag⟩ cs ↔
      EachStep (Call.step kernelBusHdr) Call.Safe ⟨s, 0, s.intFlag⟩ cs :=
  EachStep.congr Sections.Atomic (Call.step_atomic kernelBusHdr)
    (fun _ c h => Call.law_iff kernelBusHdr h c) (atomic_start s) cs

end Law

/-- With interrupts off, as `InitPnP` has them when it acquires lines, one acquisition turns them
on. -/
theorem sectionRun_acquire :
    ¬ EachStep (Call.step 0xC0003000) (Call.Law 0xC0003000)
        ⟨System.powerUp, 0, System.powerUp.intFlag⟩ [.inAcquireLegacyIRQ 5 0xC0001000] := by
  intro hrun
  obtain ⟨hlaw, _⟩ := hrun
  have hsafe := (Call.law_iff _ (atomic_start _) _).mp hlaw
  obtain ⟨_, hfree⟩ := hsafe
  obtain ⟨_, _, hon⟩ := hfree (by decide)
  exact absurd hon (by decide)

end OS90.Laws
