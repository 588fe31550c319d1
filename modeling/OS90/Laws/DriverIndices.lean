import OS90.Kernel.DosServer
import OS90.Kernel.PnpMgr
import OS90.Lib.Fields

/-!
# Indices that drivers pass

The number of a line or of a trap comes from a driver, as any 32-bit number. `IndexLaw` is that a
call stays within the kernel's tables and shifts the level word by less than its width, and that a
call with a number out of range leaves every table as it was.

None of the functions looks at its number, so that a call is lawful when the number is in range. The
exceptions are those of a number whose double wraps around: the levels are shifted by that double,
and a shift by nothing, or of nothing, is not noticed (`indexLaw_iff`).

A store outside a table has no successor in the model, as what it hits depends on where the compiler
has put the tables. The law takes that for a violation, and the condition is exact with it.
-/

namespace OS90.Laws

open OS90.Kernel

/-- The tables drivers reach. -/
structure Tables where
  sys : System
  chains : Chains

/-- A call with a number of the driver's. -/
inductive DriverCall where
  | acquire (fixedIrq : VINT) (handler : FP_IRQ_HANDLR)
  | setEntry (irq : VINT) (lvl : INTERRUPT_LEVEL) (handler : FP_IRQ_HANDLR)
    (owner : PDRIVER_HEADER)
  | queryLevel (irq : VINT)
  | queryHandler (irq : VINT)
  | hook (vector : VINT) (new : LinkPtr) (hnd : V86_HANDLER)

/-- What a function of the interrupt table does to them. -/
def Tables.system {α : Type} (t : Tables) (f : KernelM α) : Option Tables :=
  (f.run t.sys).map fun p => { t with sys := p.2 }

namespace DriverCall

/-- The tables after the call, if it has kept within them. -/
def exec (kernelBusHdr : PDRIVER_HEADER) (t : Tables) : DriverCall → Option Tables
  | .acquire fixedIrq handler => t.system (inAcquireLegacyIRQ kernelBusHdr fixedIrq handler)
  | .setEntry irq lvl handler owner => t.system (setInterruptEntry irq lvl handler owner)
  | .queryLevel irq => t.system (inGetInterruptLevel irq)
  | .queryHandler irq => t.system (inGetInterruptHandler irq)
  | .hook vector new hnd =>
    (scHookDosTrap vector new hnd t.chains).map fun c => { t with chains := c }

/-- The number is one of the table's. -/
def InRange : DriverCall → Prop
  | .acquire fixedIrq _ => fixedIrq.toNat < 16
  | .setEntry irq _ _ _ => irq.toNat < 16
  | .queryLevel irq => irq.toNat < 16
  | .queryHandler irq => irq.toNat < 16
  | .hook vector _ _ => vector.toNat < CAPTURE_DOS_FUNCTIONS

/-- The calls that are lawful. Twice 2^31 is nothing. -/
def Lawful (t : Tables) : DriverCall → Prop
  | .acquire fixedIrq _ => fixedIrq.toNat < 16 ∨
    fixedIrq = 0x80000000#32 ∧ t.sys.interrupts.lvlBmp = INTERRUPT_LEVEL.busInuse.val
  | .setEntry irq _ _ _ => irq.toNat < 16
  | .queryLevel irq => irq.toNat < 16 ∨ irq = 0x80000000#32 ∨
    t.sys.interrupts.lvlBmp = 0 ∧ 2 ^ 31 ≤ irq.toNat ∧ irq.toNat < 2 ^ 31 + 16
  | .queryHandler irq => irq.toNat < 16
  | .hook vector _ _ => vector.toNat < CAPTURE_DOS_FUNCTIONS

end DriverCall

def IndexLaw (kernelBusHdr : PDRIVER_HEADER) (t : Tables) (call : DriverCall) : Prop :=
  ∃ t', call.exec kernelBusHdr t = some t' ∧
    (¬ call.InRange → t'.sys.interrupts = t.sys.interrupts ∧ t'.chains.head = t.chains.head)

/-- A call on the system part of the tables leaves the other parts. -/
theorem Tables.system_of_run {α : Type} (t : Tables) {f : KernelM α} {a : α} {s : System}
    (h : f.run t.sys = some (a, s)) : t.system f = some { t with sys := s } := by
  unfold Tables.system
  rw [h]
  rfl

/-- It has no successor where the function has none. -/
theorem Tables.system_of_none {α : Type} (t : Tables) {f : KernelM α} (h : f.run t.sys = none) :
    t.system f = none := by
  unfold Tables.system
  rw [h]
  rfl

/-! ## Numbers in range -/

/-- A number below sixteen is that of a line. -/
theorem exists_vint {irq : VINT} (h : irq.toNat < 16) : ∃ i : Irq, irq = i.vint := by
  refine ⟨⟨irq.toNat, h⟩, BitVec.eq_of_toNat_eq ?_⟩
  rw [Irq.vint_toNat]

section InRange

variable (kernelBusHdr : PDRIVER_HEADER) (t : Tables)

/-- With its number in range every function of the interface runs to its end, from every state of
the tables. -/
theorem exec_of_inRange {call : DriverCall} (h : call.InRange) :
    ∃ t', call.exec kernelBusHdr t = some t' := by
  cases call with
  | acquire fixedIrq handler =>
    obtain ⟨i, rfl⟩ := exists_vint h
    exact ⟨_, t.system_of_run (inAcquireLegacyIRQ_run t.sys i kernelBusHdr handler)⟩
  | setEntry irq lvl handler owner =>
    obtain ⟨i, rfl⟩ := exists_vint h
    exact ⟨_, t.system_of_run (setInterruptEntry_run t.sys i lvl handler owner)⟩
  | queryLevel irq =>
    obtain ⟨i, rfl⟩ := exists_vint h
    exact ⟨_, t.system_of_run (inGetInterruptLevel_run t.sys i)⟩
  | queryHandler irq =>
    obtain ⟨i, rfl⟩ := exists_vint h
    exact ⟨_, t.system_of_run (inGetInterruptHandler_run t.sys i)⟩
  | hook vector new hnd =>
    obtain ⟨c, hc⟩ : ∃ c, scHookDosTrap vector new hnd t.chains = some c :=
      ⟨_, scHookDosTrap_run h new hnd t.chains⟩
    refine ⟨{ t with chains := c }, ?_⟩
    unfold DriverCall.exec
    dsimp only
    rw [hc]
    rfl

/-- Indices that are in range are handled without a store outside of a table. -/
theorem indexLaw_of_inRange {call : DriverCall} (h : call.InRange) :
    IndexLaw kernelBusHdr t call := by
  obtain ⟨t', ht'⟩ := exec_of_inRange kernelBusHdr t h
  exact ⟨t', ht', fun hout => absurd h hout⟩

end InRange

/-! ## Numbers out of range -/

section OutOfRange

variable (s : System) {irq : VINT}

/-- The level query runs exactly when twice the number is a shift count. It checks nothing
itself. -/
theorem inGetInterruptLevel_eq (irq : VINT) :
    (inGetInterruptLevel irq).run s =
      if irq * 2#32 < 32#32 then
        some (s.interrupts.lvlBmp >>> (irq * 2#32),
          s.withLevels (s.interrupts.lvlBmp >>> (irq * 2#32)))
      else none := by
  unfold inGetInterruptLevel
  dsimp only
  split
  · rfl
  · rfl

/-- The query for a handler reads past the table from 16 on, and checks nothing before. -/
theorem inGetInterruptHandler_none (h : ¬ irq.toNat < 16) :
    (inGetInterruptHandler irq).run s = none := by
  simp [inGetInterruptHandler, load, h]

/-- The same for the store of an entry. -/
theorem setInterruptEntry_none (h : ¬ irq.toNat < 16) (lvl : INTERRUPT_LEVEL)
    (handler : FP_IRQ_HANDLR) (owner : PDRIVER_HEADER) :
    (setInterruptEntry irq lvl handler owner).run s = none := by
  simp [setInterruptEntry, enterCriticalSecttion, intsOff, store, h]

/-- An acquisition out of range comes to an end only if it refuses; otherwise it goes on to store
past the table. -/
theorem inAcquireLegacyIRQ_eq (h : ¬ irq.toNat < 16) (kernelBusHdr : PDRIVER_HEADER)
    (handler : FP_IRQ_HANDLR) :
    (inAcquireLegacyIRQ kernelBusHdr irq handler).run s =
      if irq * 2#32 < 32#32 ∧
          s.interrupts.lvlBmp >>> (irq * 2#32) = INTERRUPT_LEVEL.busInuse.val then
        some (some .osErrorGeneric, s.withLevels (s.interrupts.lvlBmp >>> (irq * 2#32)))
      else none := by
  unfold inAcquireLegacyIRQ
  rw [StateT.run_bind, inGetInterruptLevel_eq]
  by_cases hcount : irq * 2#32 < 32#32
  · rw [if_pos hcount, Option.bind_eq_bind, Option.bind_some]
    by_cases hrefuse : s.interrupts.lvlBmp >>> (irq * 2#32) = INTERRUPT_LEVEL.busInuse.val
    · rw [if_pos hrefuse, if_pos ⟨hcount, hrefuse⟩]
      rfl
    · rw [if_neg hrefuse, if_neg fun hboth => hrefuse hboth.2, StateT.run_bind,
        setInterruptEntry_none _ h]
      rfl
  · rw [if_neg hcount, if_neg fun hboth => hcount hboth.1]
    rfl

/-- Numbers out of range whose double wraps to a small one are taken for lines by the shift. -/
theorem count_lt_iff (h : ¬ irq.toNat < 16) :
    irq * 2#32 < 32#32 ↔ 2 ^ 31 ≤ irq.toNat ∧ irq.toNat < 2 ^ 31 + 16 := by
  have hlt := irq.isLt
  show (irq * 2#32).toNat < (32#32).toNat ↔ _
  rw [BitVec.toNat_mul]
  show irq.toNat * 2 % 2 ^ 32 < 32 ↔ _
  omega

/-- A shift changes nothing if it is by zero, or of zero. -/
theorem shift_eq_self_iff (w count : DWORD) : w >>> count = w ↔ count = 0 ∨ w = 0 := by
  have hzero : count.toNat = 0 ↔ count = 0 := BitVec.toNat_inj (y := 0#32)
  rw [BitVec.ushiftRight_eq', Fields.ushiftRight_eq_self_iff, hzero]

/-- Of the numbers out of range, the double of one alone wraps to zero. -/
theorem double_eq_zero_iff (h : ¬ irq.toNat < 16) : irq * 2#32 = 0 ↔ irq = 0x80000000#32 := by
  have hlt := irq.isLt
  constructor
  · intro hzero
    have hnat : irq.toNat * 2 % 2 ^ 32 = 0 := by
      have hmul := congrArg BitVec.toNat hzero
      rw [BitVec.toNat_mul] at hmul
      exact hmul
    apply BitVec.eq_of_toNat_eq
    show irq.toNat = 2 ^ 31
    omega
  · rintro rfl
    rfl

end OutOfRange

/-! ## The law -/

section Law

variable (kernelBusHdr : PDRIVER_HEADER) (t : Tables) {irq : VINT}

/-- A query out of range is lawful if its shift is, and has no effect. -/
theorem indexLaw_level (h : ¬ irq.toNat < 16) :
    IndexLaw kernelBusHdr t (.queryLevel irq) ↔ irq = 0x80000000#32 ∨
      t.sys.interrupts.lvlBmp = 0 ∧ 2 ^ 31 ≤ irq.toNat ∧ irq.toNat < 2 ^ 31 + 16 := by
  have hrun := inGetInterruptLevel_eq t.sys irq
  constructor
  · rintro ⟨t', hexec, hsame⟩
    have hquery : t.system (inGetInterruptLevel irq) = some t' := hexec
    by_cases hcount : irq * 2#32 < 32#32
    · rw [if_pos hcount] at hrun
      obtain rfl := Option.some.inj ((t.system_of_run hrun).symm.trans hquery)
      have hword : t.sys.interrupts.lvlBmp >>> (irq * 2#32) = t.sys.interrupts.lvlBmp :=
        congrArg INTERRUPTS.lvlBmp (hsame h).1
      rcases (shift_eq_self_iff _ _).mp hword with hzero | hnone
      · exact .inl ((double_eq_zero_iff h).mp hzero)
      · exact .inr ⟨hnone, (count_lt_iff h).mp hcount⟩
    · rw [if_neg hcount] at hrun
      rw [t.system_of_none hrun] at hquery
      cases hquery
  · intro hlawful
    have hcount : irq * 2#32 < 32#32 := by
      rcases hlawful with rfl | ⟨_, hrange⟩
      · decide
      · exact (count_lt_iff h).mpr hrange
    have hword : t.sys.interrupts.lvlBmp >>> (irq * 2#32) = t.sys.interrupts.lvlBmp := by
      rw [shift_eq_self_iff, double_eq_zero_iff h]
      exact hlawful.imp_right And.left
    rw [if_pos hcount, hword] at hrun
    exact ⟨t, t.system_of_run hrun, fun _ => ⟨rfl, rfl⟩⟩

/-- An acquisition out of range is lawful if it refuses and has shifted nothing, which one number
and one state of the levels make true. -/
theorem indexLaw_acquire (h : ¬ irq.toNat < 16) (handler : FP_IRQ_HANDLR) :
    IndexLaw kernelBusHdr t (.acquire irq handler) ↔ irq = 0x80000000#32 ∧
      t.sys.interrupts.lvlBmp = INTERRUPT_LEVEL.busInuse.val := by
  have hrun := inAcquireLegacyIRQ_eq t.sys h kernelBusHdr handler
  constructor
  · rintro ⟨t', hexec, hsame⟩
    have hacquire : t.system (inAcquireLegacyIRQ kernelBusHdr irq handler) = some t' := hexec
    by_cases hrefuse : irq * 2#32 < 32#32 ∧
        t.sys.interrupts.lvlBmp >>> (irq * 2#32) = INTERRUPT_LEVEL.busInuse.val
    · rw [if_pos hrefuse] at hrun
      obtain rfl := Option.some.inj ((t.system_of_run hrun).symm.trans hacquire)
      have hword : t.sys.interrupts.lvlBmp >>> (irq * 2#32) = t.sys.interrupts.lvlBmp :=
        congrArg INTERRUPTS.lvlBmp (hsame h).1
      have hlevels : t.sys.interrupts.lvlBmp = INTERRUPT_LEVEL.busInuse.val :=
        hword.symm.trans hrefuse.2
      rcases (shift_eq_self_iff _ _).mp hword with hzero | hnone
      · exact ⟨(double_eq_zero_iff h).mp hzero, hlevels⟩
      · exact absurd (hnone.symm.trans hlevels) (by decide)
    · rw [if_neg hrefuse] at hrun
      rw [t.system_of_none hrun] at hacquire
      cases hacquire
  · rintro ⟨rfl, hlevels⟩
    have hword : t.sys.interrupts.lvlBmp >>> (0x80000000#32 * 2#32) = t.sys.interrupts.lvlBmp :=
      (shift_eq_self_iff _ _).mpr (.inl (by decide))
    rw [hword, if_pos ⟨by decide, hlevels⟩] at hrun
    exact ⟨t, t.system_of_run hrun, fun _ => ⟨rfl, rfl⟩⟩

/-- A call that stores outside of a table is not lawful: the model has no successor for it. -/
theorem not_indexLaw {call : DriverCall} (h : call.exec kernelBusHdr t = none) :
    ¬ IndexLaw kernelBusHdr t call := by
  rintro ⟨t', hexec, _⟩
  rw [h] at hexec
  cases hexec

/-- For every table state and every 32-bit number: a driver's call stays within the tables, and does
nothing to them if its number is out of range, exactly when the number is in range or the call is
one of those whose shift is not noticed. A call that stores past a table has no successor in the
model, and is taken to break the law. -/
theorem indexLaw_iff (call : DriverCall) : IndexLaw kernelBusHdr t call ↔ call.Lawful t := by
  by_cases hin : call.InRange
  · refine iff_of_true (indexLaw_of_inRange kernelBusHdr t hin) ?_
    cases call with
    | acquire _ _ => exact .inl hin
    | setEntry _ _ _ _ => exact hin
    | queryLevel _ => exact .inl hin
    | queryHandler _ => exact hin
    | hook _ _ _ => exact hin
  · cases call with
    | acquire irq handler =>
      rw [indexLaw_acquire kernelBusHdr t hin handler]
      exact (or_iff_right hin).symm
    | setEntry irq lvl handler owner =>
      refine iff_of_false (not_indexLaw kernelBusHdr t ?_) hin
      exact t.system_of_none (setInterruptEntry_none t.sys hin lvl handler owner)
    | queryLevel irq =>
      rw [indexLaw_level kernelBusHdr t hin]
      exact (or_iff_right hin).symm
    | queryHandler irq =>
      refine iff_of_false (not_indexLaw kernelBusHdr t ?_) hin
      exact t.system_of_none (inGetInterruptHandler_none t.sys hin)
    | hook vector new hnd =>
      refine iff_of_false (not_indexLaw kernelBusHdr t ?_) hin
      have hnone : scHookDosTrap vector new hnd t.chains = none := if_neg hin
      unfold DriverCall.exec
      dsimp only
      rw [hnone]
      rfl

end Law

/-- A driver that asks for IRQ 16 has its handler stored past the array. -/
theorem indexLaw_sixteen :
    ¬ IndexLaw 0xC0003000 ⟨.powerUp, .zero⟩ (.acquire 16 0xC0300000) := by
  rw [indexLaw_acquire 0xC0003000 ⟨.powerUp, .zero⟩ (by decide) 0xC0300000]
  rintro ⟨hirq, _⟩
  exact absurd hirq (by decide)

end OS90.Laws
