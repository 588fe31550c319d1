import OS90.Kernel.PnpMgr
import OS90.Lib.Fields
import OS90.Lib.Run

/-!
# The interrupt table against an array of records

What the table is for: sixteen independent records of level, handler and owner (`IrqArray`). The
packed table refines it when each of the two queries would answer, for every line, what the record
says (`Refines`). The representation holds only as long as no line but IRQ 0 has a level, because a
query answers the whole shifted word and shifts the word it reads: `refines_iff` says so for one
state, `TableOp.law_iff` for one operation, and `tableRun_refines_iff` for every run.

The levels are read here as the header describes them, two bits a line (`levelAt`), whatever a
query would answer. `AcquireLaw` is what a driver is promised of `InAcquireLegacyIRQ`: a line in
use is refused and nothing changes, any other line is taken and the call says so, and no handler
of a line in use is replaced. The only acquisition that meets it is the refused one of IRQ 0 while
no other line has a level (`acquireLaw_iff`): the taking path ends without a status, and a refusal
of any other line has already shifted the word.
-/

namespace OS90.Laws

open OS90.Kernel OS90.Run OS90.Fields

/-! ## The array of records -/

structure IrqRecord where
  level : INTERRUPT_LEVEL
  handler : FP_IRQ_HANDLR
  owner : PDRIVER_HEADER
deriving DecidableEq

abbrev IrqArray := Irq → IrqRecord

/-- Nothing set: every level is `UNDEFINED`. -/
def IrqArray.zero : IrqArray := fun _ => ⟨.undefined, 0, 0⟩

/-- The operations on the table. -/
inductive TableOp where
  | set (irq : Irq) (lvl : INTERRUPT_LEVEL) (handler : FP_IRQ_HANDLR) (owner : PDRIVER_HEADER)
  | getLevel (irq : Irq)
  | getHandler (irq : Irq)
deriving DecidableEq

/-- The kernel's function for an operation, with the value it answers. -/
def TableOp.exec : TableOp → KernelM (Option DWORD)
  | .set irq lvl handler owner => do
    setInterruptEntry irq.vint lvl handler owner
    return none
  | .getLevel irq => return some (← inGetInterruptLevel irq.vint)
  | .getHandler irq => return some (← inGetInterruptHandler irq.vint)

/-- The same operation on the array of records. -/
def TableOp.spec (a : IrqArray) : TableOp → Option DWORD × IrqArray
  | .set irq lvl handler owner => (none, Function.update a irq ⟨lvl, handler, owner⟩)
  | .getLevel irq => (some (a irq).level.val, a)
  | .getHandler irq => (some (a irq).handler, a)

/-- The table represents the array: each query would answer the record, line by line. -/
structure Refines (s : System) (a : IrqArray) : Prop where
  level : ∀ irq : Irq, ∃ s', (inGetInterruptLevel irq.vint).run s = some ((a irq).level.val, s')
  handler : ∀ irq : Irq, ∃ s', (inGetInterruptHandler irq.vint).run s = some ((a irq).handler, s')
  owner : ∀ irq : Irq, s.interrupts.owner irq = (a irq).owner

/-- The table and the array, side by side. -/
def tableStep (p : System × IrqArray) (op : TableOp) : Option (System × IrqArray) :=
  (op.exec.run p.1).map fun r => (r.2, (op.spec p.2).2)

/-- The law of one operation: it answers as the array does, and the table it leaves represents the
array's. -/
def TableOp.Law (p : System × IrqArray) (op : TableOp) : Prop :=
  ∃ answer s', op.exec.run p.1 = some (answer, s') ∧
    answer = (op.spec p.2).1 ∧ Refines s' (op.spec p.2).2

/-- Where the packed word can follow: a level is ored into IRQ 0 and set nowhere else, and a level
is queried on IRQ 0 or while IRQ 0 has none. -/
def TableOp.Safe (p : System × IrqArray) : TableOp → Prop
  | .set irq lvl _ _ =>
    if irq = 0 then (p.2 0).level.val ||| lvl.val = lvl.val else lvl = .undefined
  | .getLevel irq => irq = 0 ∨ (p.2 0).level = .undefined
  | .getHandler _ => True

/-! ## One state -/

/-- Four levels have four numbers. -/
theorem val_injective {l m : INTERRUPT_LEVEL} (h : l.val = m.val) : l = m := by
  revert l m
  decide

/-- A level that is shifted down by the bits of another line is gone, since it has two bits and the
shift is at least as long. -/
theorem val_shift (l : INTERRUPT_LEVEL) {irq : Irq} (h : irq ≠ 0) :
    l.val >>> (irq.vint * 2#32) = 0 := by
  revert l irq
  decide

@[simp] theorem vint_zero_mul_two : (0 : Irq).vint * 2#32 = 0 := rfl

/-- A word whose shifts are sixteen levels holds a level of IRQ 0 and no other. -/
theorem levels_iff (w : DWORD) (lv : Irq → INTERRUPT_LEVEL) :
    (∀ irq : Irq, w >>> (irq.vint * 2#32) = (lv irq).val) ↔
      w = (lv 0).val ∧ ∀ irq ≠ 0, lv irq = .undefined := by
  constructor
  · intro h
    have h0 : w = (lv 0).val := by simpa using h 0
    refine ⟨h0, fun irq hne => val_injective ?_⟩
    rw [← h irq, h0, val_shift _ hne]
    rfl
  · intro h irq
    obtain ⟨rfl, hrest⟩ := h
    by_cases hne : irq = 0
    · subst hne
      simp
    · rw [val_shift _ hne, hrest irq hne]
      rfl

/-- What `Refines` comes to: the word is the level of IRQ 0, no other line has one, and the two
pointer arrays agree. -/
theorem refines_iff (s : System) (a : IrqArray) :
    Refines s a ↔
      (s.interrupts.lvlBmp = (a 0).level.val ∧ ∀ irq ≠ 0, (a irq).level = .undefined) ∧
        (∀ irq : Irq, s.interrupts.handler irq = (a irq).handler) ∧
          ∀ irq : Irq, s.interrupts.owner irq = (a irq).owner := by
  rw [← levels_iff _ fun irq => (a irq).level]
  constructor
  · intro h
    refine ⟨fun irq => ?_, fun irq => ?_, h.owner⟩
    · obtain ⟨s', hs'⟩ := h.level irq
      rw [inGetInterruptLevel_run] at hs'
      exact congrArg Prod.fst (Option.some.inj hs')
    · obtain ⟨s', hs'⟩ := h.handler irq
      rw [inGetInterruptHandler_run] at hs'
      exact congrArg Prod.fst (Option.some.inj hs')
  · intro h
    obtain ⟨hlevel, hhandler, howner⟩ := h
    refine ⟨fun irq => ⟨s.withLevels (shiftedLevels s irq), ?_⟩, fun irq => ⟨s, ?_⟩, howner⟩
    · rw [inGetInterruptLevel_run]
      exact congrArg (fun w => some (w, s.withLevels (shiftedLevels s irq))) (hlevel irq)
    · rw [inGetInterruptHandler_run, hhandler irq]

/-- The zero table refines the one in which every line is undefined. -/
theorem refines_zero (s : System) : Refines { s with interrupts := .zero } .zero := by
  refine (refines_iff _ _).mpr ⟨⟨rfl, fun _ _ => rfl⟩, fun irq => ?_, fun irq => ?_⟩
  · exact zero_handler irq
  · exact zero_owner irq

/-! ## One operation -/

/-- The state an operation leaves. No operation on a line faults. -/
def TableOp.next (s : System) : TableOp → System
  | .set irq lvl handler owner => s.withEntry irq lvl handler owner
  | .getLevel irq => s.withLevels (shiftedLevels s irq)
  | .getHandler _ => s

/-- On a table that represents the array, an operation comes to its end and answers as the array
does. -/
theorem TableOp.exec_run {s : System} {a : IrqArray} (h : Refines s a) (op : TableOp) :
    op.exec.run s = some ((op.spec a).1, op.next s) := by
  obtain ⟨⟨hw, hrest⟩, hhandler, _⟩ := (refines_iff s a).mp h
  cases op with
  | set irq lvl handler owner =>
    simp [TableOp.exec, setInterruptEntry_run, TableOp.spec, TableOp.next]
  | getLevel irq =>
    have hlevel := (levels_iff _ fun irq => (a irq).level).mpr ⟨hw, hrest⟩ irq
    simp only [TableOp.exec, StateT.run_bind, inGetInterruptLevel_run, Option.bind_eq_bind,
      Option.bind_some, StateT.run_pure, TableOp.spec, TableOp.next]
    exact congrArg (fun w => some (some w, s.withLevels (shiftedLevels s irq))) hlevel
  | getHandler irq =>
    simp [TableOp.exec, inGetInterruptHandler_run, TableOp.spec, TableOp.next, hhandler irq]

/-- The pointers are entered in the table as in the array, so that only the levels can differ. -/
theorem refines_withEntry_levels {s : System} {a : IrqArray} (h : Refines s a) (irq : Irq)
    (lvl : INTERRUPT_LEVEL) (handler : FP_IRQ_HANDLR) (owner : PDRIVER_HEADER) :
    Refines (s.withEntry irq lvl handler owner) (Function.update a irq ⟨lvl, handler, owner⟩) ↔
      (s.withEntry irq lvl handler owner).interrupts.lvlBmp =
          (Function.update a irq ⟨lvl, handler, owner⟩ 0).level.val ∧
        ∀ j ≠ 0, (Function.update a irq ⟨lvl, handler, owner⟩ j).level = .undefined := by
  obtain ⟨_, hhandler, howner⟩ := (refines_iff s a).mp h
  have hhandler' : ∀ j : Irq, (s.withEntry irq lvl handler owner).interrupts.handler j =
      (Function.update a irq ⟨lvl, handler, owner⟩ j).handler := by
    intro j
    rw [withEntry_handler, Function.update_apply, hhandler j]
    split <;> rfl
  have howner' : ∀ j : Irq, (s.withEntry irq lvl handler owner).interrupts.owner j =
      (Function.update a irq ⟨lvl, handler, owner⟩ j).owner := by
    intro j
    rw [withEntry_owner, Function.update_apply, howner j]
    split <;> rfl
  rw [refines_iff]
  exact ⟨fun hr => hr.1, fun hlevels => ⟨hlevels, hhandler', howner'⟩⟩

/-- To enter a level is refined exactly when the word can take it: for line 0 if no bit has to be
cleared, and for another only if there is nothing to set. -/
theorem refines_withEntry_iff {s : System} {a : IrqArray} (h : Refines s a) (irq : Irq)
    (lvl : INTERRUPT_LEVEL) (handler : FP_IRQ_HANDLR) (owner : PDRIVER_HEADER) :
    Refines (s.withEntry irq lvl handler owner)
        (Function.update a irq ⟨lvl, handler, owner⟩) ↔
      if irq = 0 then (a 0).level.val ||| lvl.val = lvl.val else lvl = .undefined := by
  obtain ⟨⟨hw, hrest⟩, _⟩ := (refines_iff s a).mp h
  rw [refines_withEntry_levels h]
  by_cases hirq : irq = 0
  · subst hirq
    rw [if_pos rfl, ← hw]
    constructor
    · intro hlevels
      simpa [System.withEntry] using hlevels.1
    · intro hor
      refine ⟨by simpa [System.withEntry] using hor, fun j hj => ?_⟩
      rw [Function.update_of_ne hj]
      exact hrest j hj
  · rw [if_neg hirq]
    constructor
    · -- the array now has the level at `irq`, and the table may hold one at IRQ 0 only
      intro hlevels
      simpa using hlevels.2 irq hirq
    · rintro rfl
      refine ⟨?_, fun j hj => ?_⟩
      · rw [Function.update_of_ne (Ne.symm hirq), ← hw]
        simp [System.withEntry, INTERRUPT_LEVEL.val]
      · by_cases hji : j = irq
        · subst hji
          simp
        · rw [Function.update_of_ne hji]
          exact hrest j hj

/-- A query keeps the table when it is of IRQ 0 or there is nothing to shift. -/
theorem refines_withLevels_iff {s : System} {a : IrqArray} (h : Refines s a) (irq : Irq) :
    Refines (s.withLevels (shiftedLevels s irq)) a ↔ irq = 0 ∨ (a 0).level = .undefined := by
  obtain ⟨⟨hw, hrest⟩, hhandler, howner⟩ := (refines_iff s a).mp h
  have hshift : shiftedLevels s irq = (a 0).level.val ↔ irq = 0 ∨ (a 0).level = .undefined := by
    rw [shiftedLevels, hw]
    by_cases hirq : irq = 0
    · subst hirq
      simp
    · rw [val_shift _ hirq]
      refine ⟨fun hz => Or.inr (val_injective (l := (a 0).level) (m := .undefined) hz.symm), ?_⟩
      intro hsafe
      rcases hsafe with h0 | hu
      · exact absurd h0 hirq
      · rw [hu]
        rfl
  rw [refines_iff, ← hshift]
  exact ⟨fun hr => hr.1.1, fun hs => ⟨⟨hs, hrest⟩, hhandler, howner⟩⟩

/-- On a table that represents the array, an operation meets its law exactly when it is safe. -/
theorem TableOp.law_iff {p : System × IrqArray} (h : Refines p.1 p.2) (op : TableOp) :
    TableOp.Law p op ↔ TableOp.Safe p op := by
  have hrefines : TableOp.Law p op ↔ Refines (op.next p.1) (op.spec p.2).2 := by
    unfold TableOp.Law
    rw [TableOp.exec_run h op]
    constructor
    · intro hlaw
      obtain ⟨answer, s', heq, _, hr⟩ := hlaw
      cases heq
      exact hr
    · intro hr
      exact ⟨_, _, rfl, rfl, hr⟩
  rw [hrefines]
  cases op with
  | set irq lvl handler owner => exact refines_withEntry_iff h irq lvl handler owner
  | getLevel irq => exact refines_withLevels_iff h irq
  | getHandler irq => exact iff_of_true h trivial

/-- An operation that meets its law leaves a table that represents the array. This is the step of
the refinement. -/
theorem tableStep_refines {p p' : System × IrqArray} {op : TableOp} (hlaw : TableOp.Law p op)
    (hstep : tableStep p op = some p') : Refines p'.1 p'.2 := by
  obtain ⟨answer, s', hrun, _, hr⟩ := hlaw
  rw [tableStep, hrun] at hstep
  cases hstep
  exact hr

/-- For every sequence of operations on the initial table, every operation answers as the array of
records does and leaves a table that represents it, exactly when every operation is safe. The zero
table is where the refinement starts, and `Safe` is about the state before an operation; what the
code does beyond the first operation that is not safe is left open. -/
theorem tableRun_refines_iff (s : System) (ops : List TableOp) :
    EachStep tableStep TableOp.Law ({ s with interrupts := .zero }, IrqArray.zero) ops ↔
      EachStep tableStep TableOp.Safe ({ s with interrupts := .zero }, IrqArray.zero) ops :=
  EachStep.congr (fun p => Refines p.1 p.2)
    (fun _ _ _ _ hlaw hstep => tableStep_refines hlaw hstep)
    (fun _ op h => TableOp.law_iff h op) (refines_zero s) ops

/-- One level set on IRQ 3 is enough: IRQ 0, which nobody touched, now reads as `0x80`. -/
theorem tableRun_set_three :
    ¬ EachStep tableStep TableOp.Law (System.powerUp, IrqArray.zero)
        [.set 3 .busInuse 0xC0001000 0xC0002000] := by
  intro hlaw
  obtain ⟨⟨answer, s', hrun, _, hr⟩, _⟩ := hlaw
  have hnext : s' = System.powerUp.withEntry 3 .busInuse 0xC0001000 0xC0002000 := by
    have h := TableOp.exec_run (refines_zero System.powerUp)
      (.set 3 .busInuse 0xC0001000 0xC0002000)
    exact congrArg Prod.snd (Option.some.inj (hrun.symm.trans h))
  obtain ⟨s'', hs''⟩ := hr.level 0
  rw [hnext, inGetInterruptLevel_run] at hs''
  have hval : shiftedLevels (System.powerUp.withEntry 3 .busInuse 0xC0001000 0xC0002000) 0 =
      INTERRUPT_LEVEL.undefined.val := congrArg Prod.fst (Option.some.inj hs'')
  exact absurd hval (by decide)

/-! ## Who owns a line -/

/-! ## Levels as the header describes them -/

/-- The level a two-bit field holds. -/
def levelOfBits (b : BitVec 2) : INTERRUPT_LEVEL :=
  match b with
  | 0 => .undefined
  | 1 => .busFree
  | 2 => .busInuse
  | 3 => .recl16

/-- The level of a line: its own two bits of the word. -/
def levelAt (s : System) (irq : Irq) : INTERRUPT_LEVEL :=
  levelOfBits (field 2 s.interrupts.lvlBmp irq.val)

/-- A line's level, handler and owner. -/
def recordAt (s : System) (irq : Irq) : IrqRecord :=
  ⟨levelAt s irq, s.interrupts.handler irq, s.interrupts.owner irq⟩

/-- A level is read back from its two bits. -/
theorem levelOfBits_val (l : INTERRUPT_LEVEL) : levelOfBits (l.val.setWidth 2) = l := by
  revert l
  decide

/-- Every pair of bits is a level of its own, so that the bitmap has no invalid state. -/
theorem levelOfBits_injective {b c : BitVec 2} (h : levelOfBits b = levelOfBits c) : b = c := by
  revert b c
  decide

/-- The place of a line in the bitmap. -/
theorem vint_mul_two_toNat (irq : Irq) : (irq.vint * 2#32).toNat = 2 * irq.val := by
  have h := irq.isLt
  rw [BitVec.toNat_mul, Irq.vint_toNat]
  simp only [BitVec.toNat_ofNat]
  omega

/-- If the code takes the shifted word for a level, then the field of the line is that level: what
it is compared with has two bits. -/
theorem levelAt_of_shiftedLevels {s : System} {irq : Irq} {l : INTERRUPT_LEVEL}
    (h : shiftedLevels s irq = l.val) : levelAt s irq = l := by
  have hfield : field 2 s.interrupts.lvlBmp irq.val = (shiftedLevels s irq).setWidth 2 := by
    rw [shiftedLevels, BitVec.ushiftRight_eq', vint_mul_two_toNat, setWidth_ushiftRight]
  rw [levelAt, hfield, h, levelOfBits_val]

/-- The sixteen levels are the whole word, so that two tables with the same levels have the same
bitmap. -/
theorem lvlBmp_eq_of_levelAt {s t : System} (h : ∀ irq, levelAt s irq = levelAt t irq) :
    s.interrupts.lvlBmp = t.interrupts.lvlBmp :=
  field_ext (by decide) fun i hi => levelOfBits_injective (h ⟨i, by omega⟩)

/-- A query of `irq` leaves every record as it was only for IRQ 0 or when no line has a level. -/
theorem recordAt_withLevels_iff (s : System) (irq : Irq) :
    recordAt (s.withLevels (shiftedLevels s irq)) = recordAt s ↔
      irq = 0 ∨ s.interrupts.lvlBmp = 0 := by
  have hshift : shiftedLevels s irq = s.interrupts.lvlBmp ↔ irq = 0 ∨ s.interrupts.lvlBmp = 0 := by
    rw [shiftedLevels, BitVec.ushiftRight_eq', ushiftRight_eq_self_iff, vint_mul_two_toNat]
    refine or_congr_left ⟨fun h => Fin.ext ?_, ?_⟩
    · show irq.val = 0
      omega
    · rintro rfl
      rfl
  rw [← hshift]
  constructor
  · intro h
    exact lvlBmp_eq_of_levelAt fun j => congrArg IrqRecord.level (congrFun h j)
  · intro h
    rw [h]
    rfl

/-! ## Acquisition -/

/-- A driver's request: the line and the handler for it. -/
abbrev IrqRequest := Irq × FP_IRQ_HANDLR

/-- One acquisition in a run. -/
def acquireStep (kernelBusHdr : PDRIVER_HEADER) (s : System) (r : IrqRequest) : Option System :=
  ((inAcquireLegacyIRQ kernelBusHdr r.1.vint r.2).run s).map Prod.snd

/-- What a driver is promised of one acquisition. -/
def AcquireLaw (kernelBusHdr : PDRIVER_HEADER) (s : System) (r : IrqRequest) : Prop :=
  ∃ status s', (inAcquireLegacyIRQ kernelBusHdr r.1.vint r.2).run s = some (status, s') ∧
    (if levelAt s r.1 = .busInuse then
        status = some .osErrorGeneric ∧ recordAt s' = recordAt s
      else
        status = some .osOk ∧ recordAt s' r.1 = ⟨.busInuse, r.2, kernelBusHdr⟩) ∧
    ∀ j, levelAt s j = .busInuse → (recordAt s' j).handler = (recordAt s j).handler

/-- IRQ 0 is in use, no other line has a level, and the request is for IRQ 0. -/
def OnlyTimerHeld (s : System) (r : IrqRequest) : Prop :=
  r.1 = 0 ∧ s.interrupts.lvlBmp = INTERRUPT_LEVEL.busInuse.val

/-- For every table, line and handler: the acquisition keeps its promise exactly when IRQ 0 is
asked for while it alone is held. -/
theorem acquireLaw_iff (kernelBusHdr : PDRIVER_HEADER) (s : System) (r : IrqRequest) :
    AcquireLaw kernelBusHdr s r ↔ OnlyTimerHeld s r := by
  obtain ⟨irq, handler⟩ := r
  unfold AcquireLaw
  simp only [inAcquireLegacyIRQ_run, Option.some.injEq]
  by_cases hshift : shiftedLevels s irq = INTERRUPT_LEVEL.busInuse.val
  · -- refused: the line is in use, and the word has been shifted
    have hheld : levelAt s irq = .busInuse := levelAt_of_shiftedLevels hshift
    rw [if_pos hshift]
    constructor
    · intro h
      obtain ⟨_, _, heq, hlaw, _⟩ := h
      cases heq
      rw [if_pos hheld] at hlaw
      rcases (recordAt_withLevels_iff s irq).mp hlaw.2 with rfl | hzero
      · exact ⟨rfl, hshift⟩
      · have hempty : shiftedLevels s irq = 0 := by simp [shiftedLevels, hzero]
        rw [hempty] at hshift
        exact absurd hshift (by decide)
    · intro h
      obtain ⟨h0, _⟩ := h
      refine ⟨_, _, rfl, ?_, fun j _ => rfl⟩
      rw [if_pos hheld]
      exact ⟨rfl, (recordAt_withLevels_iff s irq).mpr (Or.inl h0)⟩
  · -- taken: no status is returned
    rw [if_neg hshift]
    constructor
    · intro h
      obtain ⟨_, _, heq, hlaw, _⟩ := h
      cases heq
      split at hlaw
      · exact absurd hlaw.1 (by simp)
      · exact absurd hlaw.1 (by simp)
    · intro h
      obtain ⟨h0, hw⟩ := h
      refine absurd ?_ hshift
      rw [shiftedLevels, show irq = 0 from h0, hw]
      rfl

/-- For every run of acquisitions, from any table: every acquisition keeps its promise, and so no
handler of a line in use is replaced, exactly when every one of them is for IRQ 0 while it alone is
held. No premise is about the table. Releases are not spoken of, as the code has none. -/
theorem acquireRun_law_iff (kernelBusHdr : PDRIVER_HEADER) (s : System) (rs : List IrqRequest) :
    EachStep (acquireStep kernelBusHdr) (AcquireLaw kernelBusHdr) s rs ↔
      EachStep (acquireStep kernelBusHdr) OnlyTimerHeld s rs :=
  EachStep.congr (fun _ => True) (fun _ _ _ _ _ _ => trivial)
    (fun s r _ => acquireLaw_iff kernelBusHdr s r) trivial rs

/-- On the initial table, where every line is free to take, the first acquisition of IRQ 5 ends
without a status. -/
theorem acquireRun_first : ¬ EachStep (acquireStep 0xC0003000) (AcquireLaw 0xC0003000)
    System.powerUp [(5, 0xC0001000)] := by
  intro hrun
  obtain ⟨hlaw, _⟩ := hrun
  have h0 := ((acquireLaw_iff _ _ _).mp hlaw).1
  exact absurd h0 (by decide)

end OS90.Laws
