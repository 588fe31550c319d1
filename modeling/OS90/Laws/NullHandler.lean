import OS90.Laws.Dispatch

/-!
# No interrupt is sent to a NULL handler

The level of a line says whether the dispatcher calls a handler, and another table holds the
handlers. `Dispatchable` is the law between the two: no interrupt, whatever is in service, makes
the dispatcher call NULL. It is a law about every state that the detection of free lines,
acquisitions by drivers and interrupts can lead to, from any table in which no line is in use.

The code takes a line to be in use when the word is `BUS_INUSE` once the lines below have been
shifted out (`HeldAt`). Every query leaves the word shifted, so the line in use moves down by the
line queried, to one that may have no handler. `dispatchable_iff` says that the law holds in every
state of a run exactly when no step of it does that.
-/

namespace OS90.Laws

open OS90.Device OS90.Kernel OS90.Run

/-- What a driver registers. -/
abbrev RealHandler := { handler : FP_IRQ_HANDLR // handler ≠ 0 }

inductive LineEvent where
  | detect
  | acquire (irq : Irq) (handler : RealHandler)
  | dispatch (irq : Irq) (regs : Context) (master slave : BYTE)
  | finish (irq : Irq)

/-- One event of a run. An interrupt is two events, as in `routingStep`. -/
def lineStep (kernelBusHdr : PDRIVER_HEADER) (s : System) : LineEvent → Option System
  | .detect => ((initDetectFreeInt kernelBusHdr).run s).map Prod.snd
  | .acquire irq handler =>
    ((inAcquireLegacyIRQ kernelBusHdr irq.vint handler).run s).map Prod.snd
  | .dispatch irq regs master slave =>
    ((dispatchEnter regs irq.vint).run (withInService s master slave)).map Prod.snd
  | .finish irq => ((sendEOI (irq.vint.setWidth 8)).run s).map Prod.snd

/-- No interrupt makes the dispatcher call a NULL handler. -/
def Dispatchable (s : System) : Prop :=
  ∀ (irq : Irq) regs master slave call s',
    (dispatchEnter regs irq.vint).run (withInService s master slave) = some (some call, s') →
      call.handler ≠ 0

/-- A table in which no line is in use, with any handlers. -/
structure FreeTable where
  sys : System
  free : ∀ irq, levelAt sys irq ≠ .busInuse

/-- The code takes the line to be in use. -/
def HeldAt (s : System) (irq : Irq) : Prop := shiftedLevels s irq = INTERRUPT_LEVEL.busInuse.val

instance (s : System) (irq : Irq) : Decidable (HeldAt s irq) := inferInstanceAs (Decidable (_ = _))

/-- Shifting the word by `count` lines moves no line that is in use to a line `j`, of those the
condition is about, that has no handler. -/
def ShiftKeeps (s : System) (count : Irq) (about : Irq → Prop) : Prop :=
  ∀ j k : Irq, about j → j.val + count.val = k.val → HeldAt s k → s.interrupts.handler j ≠ 0

/-- When an event leaves every line in use with a handler. The detection must not find exactly
`RECL_16` for IRQ 2, since it would take IRQ 9 without a handler. An acquisition that is not
refused adds its own level to the word, and the lines up to its own are then not in use. -/
def LineEvent.KeepsHandlers (s : System) : LineEvent → Prop
  | .detect => shiftedLevels s 2 ≠ INTERRUPT_LEVEL.recl16.val ∧ ShiftKeeps s 2 fun _ => True
  | .acquire irq _ => ShiftKeeps s irq fun j => HeldAt s irq ∨ irq < j
  | .dispatch irq _ master slave => Spurious irq master slave ∨ ShiftKeeps s irq fun _ => True
  | .finish _ => True

/-! ## Lines the code takes to be in use -/

/-- The law, in terms of the two tables alone: whatever line the code takes to be held has a
handler. -/
theorem dispatchable_iff_heldAt (s : System) :
    Dispatchable s ↔ ∀ irq, HeldAt s irq → s.interrupts.handler irq ≠ 0 := by
  constructor
  · intro h irq hheld
    -- an interrupt with its own line in service is not spurious
    have hns : ¬ isSpurious irq.vint (inService16 (withInService s 0xFF 0xFF)) = true := by
      rw [isSpurious_iff (s := withInService s 0xFF 0xFF) rfl rfl]
      rintro (⟨_, hzero⟩ | ⟨_, hzero⟩) <;> exact absurd (show 0xFF#8 = 0 from hzero) (by decide)
    have hrun := dispatchEnter_run (withInService s 0xFF 0xFF) irq fun _ => 0
    have hheld' : shiftedLevels (withInService s 0xFF 0xFF) irq =
        INTERRUPT_LEVEL.busInuse.val := hheld
    rw [if_neg hns, if_pos hheld'] at hrun
    exact h irq _ _ _ _ _ hrun
  · intro h irq regs master slave call s' hrun
    rw [dispatchEnter_run, Option.some.injEq] at hrun
    split at hrun
    · cases hrun
    · split at hrun
      · rename_i hheld
        cases hrun
        exact h irq hheld
      · cases hrun

/-- Whether a line is held, read off the bitmap as a number. -/
theorem heldAt_iff_div (s : System) (irq : Irq) :
    HeldAt s irq ↔ s.interrupts.lvlBmp.toNat / 2 ^ (2 * irq.val) = 2 := by
  rw [HeldAt, shiftedLevels, BitVec.ushiftRight_eq', vint_mul_two_toNat, ← BitVec.toNat_inj,
    BitVec.toNat_ushiftRight, Nat.shiftRight_eq_div_pow]
  rfl

/-- After a query, the line that is held is lower by the line that was queried. -/
theorem heldAt_shifted (s : System) (count j : Irq) :
    HeldAt (s.withLevels (shiftedLevels s count)) j ↔
      ∃ k : Irq, j.val + count.val = k.val ∧ HeldAt s k := by
  have hshift : (shiftedLevels s count).toNat =
      s.interrupts.lvlBmp.toNat / 2 ^ (2 * count.val) := by
    rw [shiftedLevels, BitVec.ushiftRight_eq', vint_mul_two_toNat, BitVec.toNat_ushiftRight,
      Nat.shiftRight_eq_div_pow]
  have hdiv : HeldAt (s.withLevels (shiftedLevels s count)) j ↔
      s.interrupts.lvlBmp.toNat / 2 ^ (2 * (j.val + count.val)) = 2 := by
    rw [heldAt_iff_div]
    change (shiftedLevels s count).toNat / _ = 2 ↔ _
    rw [hshift, Nat.div_div_eq_div_mul, ← pow_add, ← Nat.mul_add, Nat.add_comm count.val]
  rw [hdiv]
  constructor
  · intro h
    have hline : j.val + count.val < 16 := by
      by_contra hpast
      have hword := s.interrupts.lvlBmp.isLt
      have hbig : 2 ^ 32 ≤ 2 ^ (2 * (j.val + count.val)) :=
        Nat.pow_le_pow_right (by decide) (by omega)
      rw [Nat.div_eq_of_lt (by omega)] at h
      omega
    exact ⟨⟨j.val + count.val, hline⟩, rfl, (heldAt_iff_div s _).mpr h⟩
  · intro h
    obtain ⟨k, hk, hheld⟩ := h
    rw [hk]
    exact (heldAt_iff_div s k).mp hheld

/-- A query keeps the law exactly when no line in use is moved to a line without a handler. -/
theorem shifted_keeps_iff (s : System) (count : Irq) (about : Irq → Prop) :
    (∀ j, about j → HeldAt (s.withLevels (shiftedLevels s count)) j →
        s.interrupts.handler j ≠ 0) ↔ ShiftKeeps s count about := by
  constructor
  · intro h j k habout hk hheld
    exact h j habout ((heldAt_shifted s count j).mpr ⟨k, hk, hheld⟩)
  · intro h j habout hheld
    obtain ⟨k, hk, hheld⟩ := (heldAt_shifted s count j).mp hheld
    exact h j k habout hk hheld

section WithEntry

variable (s : System) {irq j : Irq} (handler : FP_IRQ_HANDLR) (owner : PDRIVER_HEADER)

/-- To take a line sets the higher of its two bits and clears neither. -/
theorem withEntry_levels_toNat : (s.withEntry irq .busInuse handler owner).interrupts.lvlBmp.toNat =
    s.interrupts.lvlBmp.toNat ||| 2 * 2 ^ (2 * irq.val) := by
  have hirq := irq.isLt
  have hpow : 2 * 2 ^ (2 * irq.val) < 2 ^ 32 := by
    rw [← pow_succ']
    exact Nat.pow_lt_pow_right (by decide) (by omega)
  show (s.interrupts.lvlBmp ||| INTERRUPT_LEVEL.busInuse.val <<< (irq.vint * 2#32)).toNat = _
  rw [BitVec.toNat_or, BitVec.shiftLeft_eq', vint_mul_two_toNat, BitVec.toNat_shiftLeft,
    Nat.shiftLeft_eq]
  exact congrArg _ (Nat.mod_eq_of_lt hpow)

/-- A new entry leaves the lines above it held as they were, since those below do not show in their
word. -/
theorem heldAt_withEntry_of_lt (h : irq < j) :
    HeldAt (s.withEntry irq .busInuse handler owner) j ↔ HeldAt s j := by
  have hsmall : 2 * 2 ^ (2 * irq.val) < 2 ^ (2 * j.val) := by
    rw [← pow_succ']
    exact Nat.pow_lt_pow_right (by decide) (by have := Fin.lt_def.mp h; omega)
  rw [heldAt_iff_div, heldAt_iff_div, withEntry_levels_toNat, Nat.or_div_two_pow,
    Nat.div_eq_of_lt hsmall, Nat.or_zero]

/-- The lines below it are not in use: what is left of the word has the new level in it. -/
theorem not_heldAt_withEntry (h : j < irq) :
    ¬ HeldAt (s.withEntry irq .busInuse handler owner) j := by
  have hlt := Fin.lt_def.mp h
  have hdiv : 2 * 2 ^ (2 * irq.val) / 2 ^ (2 * j.val) = 2 * 2 ^ (2 * (irq.val - j.val)) := by
    rw [Nat.mul_div_assoc _ (Nat.pow_dvd_pow 2 (by omega)), Nat.pow_div (by omega) (by decide),
      Nat.mul_sub]
  have hbig : 2 ^ 2 ≤ 2 ^ (2 * (irq.val - j.val)) := Nat.pow_le_pow_right (by decide) (by omega)
  rw [heldAt_iff_div, withEntry_levels_toNat, Nat.or_div_two_pow, hdiv]
  have hle := Nat.right_le_or (n := s.interrupts.lvlBmp.toNat / 2 ^ (2 * j.val))
    (m := 2 * 2 ^ (2 * (irq.val - j.val)))
  omega

end WithEntry

/-! ## One event -/

/-- A dispatch always has a successor, and its effect on the table is the shift that the query for
the level does. -/
theorem lineStep_dispatch (kernelBusHdr : PDRIVER_HEADER) (s : System) (irq : Irq)
    (regs : Context) (master slave : BYTE) :
    ∃ s', lineStep kernelBusHdr s (.dispatch irq regs master slave) = some s' ∧
      s'.interrupts = if Spurious irq master slave then s.interrupts
        else (s.withLevels (shiftedLevels s irq)).interrupts := by
  have hspurious := isSpurious_iff (s := withInService s master slave) rfl rfl irq
  rw [lineStep, dispatchEnter_run]
  refine ⟨_, rfl, ?_⟩
  by_cases hsp : Spurious irq master slave
  · rw [if_pos (hspurious.mpr hsp), if_pos hsp]
    rfl
  · rw [if_neg fun h => hsp (hspurious.mp h), if_neg hsp]
    split <;> rfl

/-- The law is about the two tables only, and not about the controllers or the flag. -/
theorem dispatchable_congr {s t : System} (h : s.interrupts = t.interrupts) :
    Dispatchable s ↔ Dispatchable t := by
  rw [dispatchable_iff_heldAt, dispatchable_iff_heldAt]
  unfold HeldAt shiftedLevels
  rw [h]

/-- After a query the law holds if the shift keeps it, for all lines. -/
theorem dispatchable_shifted_iff (s : System) (count : Irq) :
    Dispatchable (s.withLevels (shiftedLevels s count)) ↔ ShiftKeeps s count fun _ => True := by
  rw [dispatchable_iff_heldAt, ← shifted_keeps_iff]
  exact forall_congr' fun _ => ⟨fun h _ => h, fun h => h trivial⟩

/-- After a line has been taken with a handler: only the lines above it can be in use without
one. -/
theorem dispatchable_withEntry_iff (s : System) (irq : Irq) {handler : FP_IRQ_HANDLR}
    (hreal : handler ≠ 0) (owner : PDRIVER_HEADER) :
    Dispatchable (s.withEntry irq .busInuse handler owner) ↔
      ∀ j, irq < j → HeldAt s j → s.interrupts.handler j ≠ 0 := by
  rw [dispatchable_iff_heldAt]
  constructor
  · intro h j hj hheld
    have hentry := h j ((heldAt_withEntry_of_lt s handler owner hj).mpr hheld)
    rwa [withEntry_handler, if_neg hj.ne'] at hentry
  · intro h j hheld
    rw [withEntry_handler]
    rcases lt_trichotomy j irq with hj | hj | hj
    · exact absurd hheld (not_heldAt_withEntry s handler owner hj)
    · rw [if_pos hj]
      exact hreal
    · rw [if_neg hj.ne']
      exact h j hj ((heldAt_withEntry_of_lt s handler owner hj).mp hheld)

/-- After a line has been queried and taken, it holds if the shift keeps it for the lines above.
That the handler is real is the premise for the line itself. -/
theorem dispatchable_taken_iff (s : System) (irq : Irq) {handler : FP_IRQ_HANDLR}
    (hreal : handler ≠ 0) (owner : PDRIVER_HEADER) :
    Dispatchable ((s.withLevels (shiftedLevels s irq)).withEntry irq .busInuse handler owner) ↔
      ShiftKeeps s irq fun j => irq < j := by
  rw [dispatchable_withEntry_iff _ _ hreal, ← shifted_keeps_iff]
  rfl

/-- It fails after IRQ 9 has been taken without a handler, nothing else being held. -/
theorem not_dispatchable_nine (s : System) (owner : PDRIVER_HEADER) :
    ¬ Dispatchable ((s.withLevels 0).withEntry 9 .busInuse 0 owner) := by
  intro h
  have hheld : HeldAt ((s.withLevels 0).withEntry 9 .busInuse 0 owner) 9 := by
    show (0#32 ||| INTERRUPT_LEVEL.busInuse.val <<< (Irq.vint 9 * 2#32)) >>>
      (Irq.vint 9 * 2#32) = INTERRUPT_LEVEL.busInuse.val
    decide
  have hnine := (dispatchable_iff_heldAt _).mp h 9 hheld
  rw [withEntry_handler, if_pos rfl] at hnine
  exact hnine rfl

section Events

variable (kernelBusHdr : PDRIVER_HEADER) (s : System)

/-- The scan of the free lines keeps the law exactly when its condition holds. -/
theorem keepsHandlers_detect :
    LineEvent.KeepsHandlers s .detect ↔
      ∀ s', lineStep kernelBusHdr s .detect = some s' → Dispatchable s' := by
  rw [lineStep, initDetectFreeInt_run, Option.map_some]
  simp only [Option.some.injEq, forall_eq']
  unfold LineEvent.KeepsHandlers
  by_cases hrecl : shiftedLevels s 2 = INTERRUPT_LEVEL.recl16.val
  · rw [if_pos hrecl]
    exact iff_of_false (fun h => h.1 hrecl) (not_dispatchable_nine _ _)
  · have htables : (s.imrRead.withLevels (shiftedLevels s 2)).interrupts =
        (s.withLevels (shiftedLevels s 2)).interrupts := rfl
    rw [if_neg hrecl, dispatchable_congr htables, dispatchable_shifted_iff]
    exact and_iff_right hrecl

/-- A request for a line, refused or granted, does. -/
theorem keepsHandlers_acquire (irq : Irq) (handler : RealHandler) :
    LineEvent.KeepsHandlers s (.acquire irq handler) ↔
      ∀ s', lineStep kernelBusHdr s (.acquire irq handler) = some s' → Dispatchable s' := by
  rw [lineStep, inAcquireLegacyIRQ_run, Option.map_some]
  simp only [Option.some.injEq, forall_eq']
  unfold LineEvent.KeepsHandlers
  by_cases hheld : shiftedLevels s irq = INTERRUPT_LEVEL.busInuse.val
  · rw [if_pos hheld]
    change _ ↔ Dispatchable (s.withLevels (shiftedLevels s irq))
    rw [dispatchable_shifted_iff]
    exact ⟨fun h j k _ => h j k (Or.inl hheld), fun h j k _ => h j k trivial⟩
  · rw [if_neg hheld]
    change _ ↔ Dispatchable ((s.withLevels (shiftedLevels s irq)).withEntry irq .busInuse handler
      kernelBusHdr)
    rw [dispatchable_taken_iff _ _ handler.2]
    exact ⟨fun h j k hj => h j k (Or.inr hj), fun h j k hj => h j k (hj.resolve_left hheld)⟩

/-- An interrupt does too, if the law holds before it. A spurious one leaves the tables alone. -/
theorem keepsHandlers_dispatch (irq : Irq) (regs : Context) (master slave : BYTE)
    (hs : Dispatchable s) :
    LineEvent.KeepsHandlers s (.dispatch irq regs master slave) ↔
      ∀ s', lineStep kernelBusHdr s (.dispatch irq regs master slave) = some s' →
        Dispatchable s' := by
  obtain ⟨t, hstep, htables⟩ := lineStep_dispatch kernelBusHdr s irq regs master slave
  rw [hstep]
  simp only [Option.some.injEq, forall_eq']
  unfold LineEvent.KeepsHandlers
  by_cases hsp : Spurious irq master slave
  · rw [if_pos hsp] at htables
    exact iff_of_true (Or.inl hsp) ((dispatchable_congr htables).mpr hs)
  · rw [if_neg hsp] at htables
    rw [dispatchable_congr htables, dispatchable_shifted_iff]
    exact or_iff_right hsp

/-- From a state with the law, an event leads to a state with the law exactly when it keeps the
handlers. -/
theorem LineEvent.keepsHandlers_iff (e : LineEvent) (hs : Dispatchable s) :
    e.KeepsHandlers s ↔ ∀ s', lineStep kernelBusHdr s e = some s' → Dispatchable s' := by
  cases e with
  | detect => exact keepsHandlers_detect kernelBusHdr s
  | acquire irq handler => exact keepsHandlers_acquire kernelBusHdr s irq handler
  | dispatch irq regs master slave =>
    exact keepsHandlers_dispatch kernelBusHdr s irq regs master slave hs
  | finish irq =>
    have htables : (s.afterEOI irq).interrupts = s.interrupts := by
      unfold System.afterEOI
      split <;> rfl
    rw [lineStep, sendEOI_run, Option.map_some]
    simp only [Option.some.injEq, forall_eq']
    exact iff_of_true trivial ((dispatchable_congr htables).mpr hs)

end Events

/-! ## Runs -/

/-- With no line held there is no handler to miss. -/
theorem FreeTable.dispatchable (t : FreeTable) : Dispatchable t.sys :=
  (dispatchable_iff_heldAt t.sys).mpr fun irq hheld =>
    absurd (levelAt_of_shiftedLevels hheld) (t.free irq)

/-- For every table in which no line is in use and every run of detections, acquisitions and
interrupts, nested in any way: no state it reaches sends an interrupt to a NULL handler exactly when
no step of it leaves a line in use without a handler. The condition on a step is about the tables
before it. Drivers acquire with real handlers, as `RealHandler` has it. -/
theorem dispatchable_iff (kernelBusHdr : PDRIVER_HEADER) (t : FreeTable) (es : List LineEvent) :
    (∀ s ∈ states (lineStep kernelBusHdr) t.sys es, Dispatchable s) ↔
      EachStep (lineStep kernelBusHdr) LineEvent.KeepsHandlers t.sys es :=
  forall_states_iff (LineEvent.keepsHandlers_iff kernelBusHdr) t.dispatchable es

/-- IRQ 5 is taken and comes in: the query leaves IRQ 0 in use, which nobody has taken. -/
theorem dispatchable_five : ¬ ∀ s ∈ states (lineStep 0xC0003000) System.powerUp
    [.acquire 5 ⟨0xC0001000, by decide⟩, .dispatch 5 (fun _ => 0x202) 0x20 0], Dispatchable s := by
  intro hrun
  have hfree : ∀ irq, levelAt System.powerUp irq ≠ .busInuse := by decide
  have hsteps := (forall_states_iff (LineEvent.keepsHandlers_iff 0xC0003000)
    (FreeTable.dispatchable ⟨_, hfree⟩) _).mp hrun
  obtain ⟨_, hrest⟩ := hsteps
  have hstep : lineStep 0xC0003000 System.powerUp (.acquire 5 ⟨0xC0001000, by decide⟩) =
      some ((System.powerUp.withLevels (shiftedLevels System.powerUp 5)).withEntry 5 .busInuse
        0xC0001000 0xC0003000) := by
    rw [lineStep, inAcquireLegacyIRQ_run, if_neg (by decide), Option.map_some]
  obtain ⟨hkeeps, _⟩ := hrest _ hstep
  rcases hkeeps with hsp | hshift
  · exact absurd hsp (by decide)
  · exact hshift 0 5 trivial rfl (by decide) (by decide)

end OS90.Laws
