import OS90.Kernel.Ia32
import OS90.Laws.Dispatch
import OS90.Lib.Run

/-!
# End of interrupt

Activations of the dispatcher nest, since a handler runs with interrupts on: a run delivers
interrupts and returns from the innermost activation, in any order that nests. `deliver` is the
controllers taking the interrupt into service and the dispatcher up to its handler; `leave` is the
rest of the activation. Between the two anything may happen to the kernel's state (`meanwhile`),
other drivers' writes to the controllers included, as long as the controllers stay operational. A
run goes on only while the in-service registers are exactly those of the active interrupts.

`NestEvent.Law` is the discipline at a return: the end of interrupt retires the line that was
served, or what a spurious interrupt has put in service, and nothing else. `NestEvent.Retired` is
when the code keeps it. No line of the slave is among these: its end of interrupt goes to the mask,
and a spurious one gets none unless another line of the slave is being served, whose cascade bit is
then lost.
-/

namespace OS90.Laws

open OS90.Device OS90.Kernel OS90.Run

/-- The line of its own controller. -/
def chipLine (irq : Irq) : Fin 8 := ⟨irq.val % 8, Nat.mod_lt _ (by decide)⟩

/-- One activation of the dispatcher that has not returned. -/
structure Activation where
  irq : Irq
  /-- No line of the controller asked: the controller sent its lowest vector. -/
  spurious : Bool
  /-- The state the dispatcher was entered in. -/
  before : System
  /-- The dispatcher came to the call of a handler. -/
  called : Bool
  /-- What the dispatcher has written to ports so far. -/
  wrote : List (WORD × BYTE)

namespace Activation

/-- What an activation keeps in service on the master: its own line, or the cascade. -/
def masterBit (a : Activation) : BYTE :=
  if a.irq.val < 8 then if a.spurious then 0 else 1#8 <<< (chipLine a.irq).val else 1#8 <<< 2

def slaveBit (a : Activation) : BYTE :=
  if a.irq.val < 8 then 0 else if a.spurious then 0 else 1#8 <<< (chipLine a.irq).val

end Activation

inductive NestEvent where
  | deliver (irq : Irq) (spurious : Bool) (regs : Context)
  | leave
  | meanwhile (s : System)

/-- The kernel's state and its activations, the innermost first. -/
structure Nest where
  sys : System
  active : List Activation

/-- Each controller has in service exactly what the active interrupts keep there. -/
def Nest.Exact (r : Nest) : Prop :=
  r.sys.pics.master.inService = r.active.foldr (fun a acc => a.masterBit ||| acc) 0 ∧
    r.sys.pics.slave.inService = r.active.foldr (fun a acc => a.slaveBit ||| acc) 0

instance (r : Nest) : Decidable r.Exact := inferInstanceAs (Decidable (_ ∧ _))

/-- The controllers are initialised and answer their in-service registers. -/
def Operational (s : System) : Prop :=
  s.pics.master.phase = .ready ∧ s.pics.master.readInService = true ∧
    s.pics.slave.phase = .ready ∧ s.pics.slave.readInService = true

instance (s : System) : Decidable (Operational s) := inferInstanceAs (Decidable (_ ∧ _))

/-- `InitIA32` makes both controllers operational, from whatever state they were in. -/
theorem initPics_operational (s : System) :
    ∃ s', initPics.run s = some ((), s') ∧ Operational s' := by
  obtain ⟨s', hrun, hmaster, hslave⟩ := initPics_run s
  refine ⟨s', hrun, ?_⟩
  unfold Operational
  rw [hmaster, hslave]
  exact ⟨rfl, rfl, rfl, rfl⟩

/-- Other in-service registers. -/
def System.withService (s : System) (master slave : BYTE) : System :=
  { s with
    pics :=
      { master := { s.pics.master with inService := master }
        slave := { s.pics.slave with inService := slave } } }

/-- The controllers take a line into service. A spurious interrupt of the slave is a real one of
the master's cascade line. -/
def raise (s : System) (irq : Irq) (spurious : Bool) : System :=
  let a : Activation := ⟨irq, spurious, s, false, []⟩
  System.withService s (s.pics.master.inService ||| a.masterBit)
    (s.pics.slave.inService ||| a.slaveBit)

/-- The rest of an activation after its handler. -/
def finish (a : Activation) : KernelM Unit :=
  if a.called then sendEOI (a.irq.vint.setWidth 8) else pure ()

/-- The state it leaves: an end of interrupt comes after a handler, and after nothing else. -/
def finished (a : Activation) (s : System) : System :=
  if a.called then s.afterEOI a.irq else s

/-- What has been written to ports between two states. -/
def written (s t : System) : List (WORD × BYTE) := t.io.drop s.io.length

/-- The end-of-interrupt commands among the writes to ports. -/
def eois (io : List (WORD × BYTE)) : List (WORD × BYTE) :=
  io.filter fun w => w.2 = 0x20 && (w.1 = 0x20 || w.1 = 0xA0)

/-- One event of a run. -/
def nestStep (r : Nest) : NestEvent → Option Nest
  | .deliver irq spurious regs =>
    if r.Exact ∧ (spurious = true → irq = 7 ∨ irq = 15) then
      let before := raise r.sys irq spurious
      ((dispatchEnter regs irq.vint).run before).map fun (call, s) =>
        ⟨s, ⟨irq, spurious, before, call.isSome, written before s⟩ :: r.active⟩
    else none
  | .leave =>
    match r.active with
    | [] => none
    | a :: rest => if r.Exact then ((finish a).run r.sys).map fun p => ⟨p.2, rest⟩ else none
  | .meanwhile s => if Operational s then some { r with sys := s } else none

/-- What a real interrupt's return does to the controllers: `irq` is retired, the cascade with it
if no other line of the slave is being served, and the masks are let alone. -/
def Retires (irq : Irq) (slaveBusy : Bool) (p q : PicPair) : Prop :=
  q.master.mask = p.master.mask ∧ q.slave.mask = p.slave.mask ∧
    if irq.val < 8 then
      q.master.inService = Pic8259.clearBit p.master.inService (chipLine irq) ∧
        q.slave.inService = p.slave.inService
    else
      q.slave.inService = Pic8259.clearBit p.slave.inService (chipLine irq) ∧
        q.master.inService =
          if slaveBusy then p.master.inService else Pic8259.clearBit p.master.inService 2

/-- What a spurious interrupt's return does: of the lines none was its own, so that at most the
cascade is retired, and the masks are let alone. -/
def RetiresNone (irq : Irq) (slaveBusy : Bool) (p q : PicPair) : Prop :=
  q.master.mask = p.master.mask ∧ q.slave = p.slave ∧
    q.master.inService =
      if irq.val < 8 ∨ slaveBusy then p.master.inService else Pic8259.clearBit p.master.inService 2

/-- The end-of-interrupt discipline, at the return of activation `a` inside `rest`. -/
def Activation.Law (a : Activation) (rest : List Activation) (s : System) : Prop :=
  ∃ s', (finish a).run s = some ((), s') ∧
    if a.spurious then
      eois (a.wrote ++ written s s') = (if a.irq = 7 then [] else [(0x20#16, 0x20#8)]) ∧
        RetiresNone a.irq (rest.any fun b => 8 ≤ b.irq.val) s.pics s'.pics
    else
      a.irq = 0 ∨ levelAt a.before a.irq = .busInuse →
        Retires a.irq (rest.any fun b => 8 ≤ b.irq.val) s.pics s'.pics

def NestEvent.Law (r : Nest) : NestEvent → Prop
  | .leave => r.Exact → ∀ a rest, r.active = a :: rest → a.Law rest r.sys
  | _ => True

/-- When the code keeps the discipline. A real interrupt must come from the master, with the whole
level word shifted to its line reading `BUS_INUSE`, and return with nothing of higher priority in
service. A spurious one must be IRQ 7, and find the master idle or its line not held. -/
def Activation.Retired (a : Activation) (s : System) : Prop :=
  if a.spurious then
    a.irq = 7 ∧ (a.before.pics.master.inService = 0 ∨
      shiftedLevels a.before 7 ≠ INTERRUPT_LEVEL.busInuse.val)
  else
    a.irq = 0 ∨ levelAt a.before a.irq = .busInuse →
      a.irq.val < 8 ∧ shiftedLevels a.before a.irq = INTERRUPT_LEVEL.busInuse.val ∧
        ∀ j < chipLine a.irq, s.pics.master.inService.getLsbD j = false

def NestEvent.Retired (r : Nest) : NestEvent → Prop
  | .leave => r.Exact → ∀ a rest, r.active = a :: rest → a.Retired r.sys
  | _ => True

/-- What an activation remembers of its entry, inside the others. -/
structure Activation.Ok (a : Activation) (rest : List Activation) : Prop where
  line : a.spurious = true → a.irq = 7 ∨ a.irq = 15
  called : a.called = true ↔
    ¬ Spurious a.irq a.before.pics.master.inService a.before.pics.slave.inService ∧
      shiftedLevels a.before a.irq = INTERRUPT_LEVEL.busInuse.val
  real : a.spurious = false →
    ¬ Spurious a.irq a.before.pics.master.inService a.before.pics.slave.inService
  quiet : eois a.wrote = []
  /-- What the slave has in service besides is another activation's. -/
  busy : a.spurious = true → a.before.pics.slave.inService ≠ 0 →
    (rest.any fun b => 8 ≤ b.irq.val) = true

/-- Each of the activations, inside those that were there. -/
def NestedOk : List Activation → Prop
  | [] => True
  | a :: rest => a.Ok rest ∧ NestedOk rest

structure Nest.Inv (r : Nest) : Prop where
  operational : Operational r.sys
  entered : NestedOk r.active

/-! ## Bits of an in-service register -/

/-- The mask of a line has its bit set. -/
theorem getLsbD_one_shiftLeft (i : Fin 8) : (1#8 <<< i.val).getLsbD i = true := by
  revert i
  decide

/-- A register is changed when a bit that it has is cleared. -/
theorem ne_clearBit {r : BYTE} {i : Fin 8} (hi : r.getLsbD i = true) :
    r ≠ Pic8259.clearBit r i := by
  intro h
  have hclear : (Pic8259.clearBit r i).getLsbD i = false := by
    rw [Pic8259.getLsbD_clearBit, decide_eq_false (by simp), Bool.and_false]
  rw [← h, hi] at hclear
  exact absurd hclear (by decide)

/-- A real interrupt of the master that is being handled has its bit in service there, by
`Exact`. -/
theorem master_inService {r : Nest} {a : Activation} {rest : List Activation} (hexact : r.Exact)
    (hactive : r.active = a :: rest) (hreal : a.spurious = false) (hline : a.irq.val < 8) :
    r.sys.pics.master.inService.getLsbD (chipLine a.irq) = true := by
  have hbit : a.masterBit = 1#8 <<< (chipLine a.irq).val := by
    simp [Activation.masterBit, hline, hreal]
  rw [hexact.1, hactive, List.foldr_cons, hbit, BitVec.getLsbD_or, getLsbD_one_shiftLeft]
  rfl

/-- A real interrupt of the slave that is being handled is in service there. `Exact` says so for all
that are active, and the others are not for the same line. -/
theorem slave_inService {r : Nest} {a : Activation} {rest : List Activation} (hexact : r.Exact)
    (hactive : r.active = a :: rest) (hreal : a.spurious = false) (hline : ¬ a.irq.val < 8) :
    r.sys.pics.slave.inService.getLsbD (chipLine a.irq) = true := by
  have hbit : a.slaveBit = 1#8 <<< (chipLine a.irq).val := by
    simp [Activation.slaveBit, hline, hreal]
  rw [hexact.2, hactive, List.foldr_cons, hbit, BitVec.getLsbD_or, getLsbD_one_shiftLeft]
  rfl

/-- Any interrupt of the slave, a spurious one too, has the cascade in service at the master. -/
theorem cascade_inService {r : Nest} {a : Activation} {rest : List Activation} (hexact : r.Exact)
    (hactive : r.active = a :: rest) (hline : ¬ a.irq.val < 8) :
    r.sys.pics.master.inService.getLsbD 2 = true := by
  have hbit : a.masterBit = 1#8 <<< 2 := by
    simp [Activation.masterBit, hline]
  rw [hexact.1, hactive, List.foldr_cons, hbit, BitVec.getLsbD_or]
  rfl

/-- If no activation is one of the slave, no line of the slave is to be in service. -/
theorem slaveBits_eq_zero {active : List Activation}
    (h : (active.any fun b => 8 ≤ b.irq.val) = false) :
    active.foldr (fun a acc => a.slaveBit ||| acc) 0 = 0 := by
  induction active with
  | nil => rfl
  | cons a rest ih =>
    obtain ⟨hline, hrest⟩ := Bool.or_eq_false_iff.mp (List.any_cons.symm.trans h)
    have hbit : a.slaveBit = 0 := by
      unfold Activation.slaveBit
      rw [if_pos (by simpa using hline)]
    rw [List.foldr_cons, ih hrest, hbit]
    rfl

/-! ## Entering -/

/-- Whatever line is raised, both controllers stay in operation. -/
theorem raise_operational {s : System} (h : Operational s) (irq : Irq) (spurious : Bool) :
    Operational (raise s irq spurious) := h

/-- A line that asked is in service, so it is not taken for a spurious one. -/
theorem not_spurious_raise (s : System) (irq : Irq) :
    ¬ Spurious irq (raise s irq false).pics.master.inService
      (raise s irq false).pics.slave.inService := by
  intro h
  rcases h with ⟨hirq, hzero⟩ | ⟨hirq, hzero⟩
  · subst hirq
    have hor : s.pics.master.inService ||| 0x80#8 = 0 := hzero
    exact absurd (BitVec.or_eq_zero_iff.mp hor).2 (by decide)
  · subst hirq
    have hbit : (Activation.mk 15 false s false []).slaveBit = 0x80#8 := by
      simp [Activation.slaveBit, chipLine]
    have hor := (BitVec.or_eq_zero_iff.mp hzero).2
    rw [hbit] at hor
    exact absurd hor (by decide)

/-- A spurious interrupt of the slave that comes while none of its lines is handled finds nothing in
service there. -/
theorem raise_slave_idle {r : Nest} (hexact : r.Exact) (irq : Irq)
    (hidle : (r.active.any fun b => 8 ≤ b.irq.val) = false) :
    (raise r.sys irq true).pics.slave.inService = 0 := by
  have hbit : (Activation.mk irq true r.sys false []).slaveBit = 0 := by
    unfold Activation.slaveBit
    split <;> rfl
  show r.sys.pics.slave.inService ||| (Activation.mk irq true r.sys false []).slaveBit = 0
  rw [hexact.2, slaveBits_eq_zero hidle, hbit]
  rfl

/-- What the dispatcher remembers, and what it leaves, when it is entered on a line. -/
theorem deliver_run {s : System} (hs : Operational s) (irq : Irq) (regs : Context) :
    ∃ call s', (dispatchEnter regs irq.vint).run s = some (call, s') ∧ Operational s' ∧
      written s s' = [(0x80#16, 0), (0x80#16, 0)] ∧
      (call.isSome = true ↔
        ¬ Spurious irq s.pics.master.inService s.pics.slave.inService ∧
          shiftedLevels s irq = INTERRUPT_LEVEL.busInuse.val) := by
  rw [← isSpurious_iff hs.2.1 hs.2.2.2 irq, dispatchEnter_run]
  have hwritten : written s s.entered = [(0x80#16, 0), (0x80#16, 0)] := List.drop_left
  by_cases hspurious : isSpurious irq.vint (inService16 s) = true
  · rw [if_pos hspurious]
    exact ⟨_, _, rfl, hs, hwritten, by simp [hspurious]⟩
  · rw [if_neg hspurious]
    by_cases hheld : shiftedLevels s irq = INTERRUPT_LEVEL.busInuse.val
    · rw [if_pos hheld]
      exact ⟨_, _, rfl, hs, hwritten, by simp [hspurious, hheld]⟩
    · rw [if_neg hheld]
      exact ⟨_, _, rfl, hs, hwritten, by simp [hheld]⟩

/-! ## Returning -/

/-- The end of a handler always comes through, with the commands that the line and the kind of the
interrupt call for. -/
theorem finish_run (a : Activation) (s : System) :
    (finish a).run s = some ((), finished a s) := by
  unfold finish finished
  cases a.called with
  | true => exact sendEOI_run s a.irq
  | false => rfl

/-- The end of interrupt in the controllers: the master retires a line, and the slave's mask is
overwritten. -/
theorem afterEOI_pics {s : System} (hs : Operational s) (irq : Irq) :
    (s.afterEOI irq).pics =
      ⟨s.pics.master.endOfInterrupt,
        if irq.val < 8 then s.pics.slave else { s.pics.slave with mask := 0x20#8 }⟩ := by
  unfold System.afterEOI
  rw [Pic8259.writeCommand_endOfInterrupt]
  by_cases hline : irq.val < 8
  · rw [if_neg (by omega), if_pos hline]
  · rw [if_pos (by omega), if_neg hline]
    simp only [Pic8259.writeData, hs.2.2.1]

/-- A return that called a handler writes one end-of-interrupt command, to the master, and any other
writes none. -/
theorem eois_written (a : Activation) (s : System) :
    eois (written s (finished a s)) = if a.called then [(0x20#16, 0x20#8)] else [] := by
  unfold finished
  cases a.called with
  | false => simp [written, eois]
  | true =>
    simp only [if_true, written, System.afterEOI]
    split <;> rw [List.drop_left] <;> rfl

/-- It leaves both controllers in operation too. -/
theorem operational_finished {s : System} (hs : Operational s) (a : Activation) :
    Operational (finished a s) := by
  unfold finished
  cases a.called with
  | false => exact hs
  | true =>
    simp only [if_true, Operational, afterEOI_pics hs]
    obtain ⟨hm, hmr, hsl, hsr⟩ := hs
    refine ⟨by simp [hm], by simp [hmr], ?_, ?_⟩ <;> split <;> assumption

/-- The return of a real interrupt retires its line exactly when the handler was called, the line
is the master's, and no line of higher priority is in service. -/
theorem retires_iff {r : Nest} {a : Activation} {rest : List Activation} (hexact : r.Exact)
    (hs : Operational r.sys) (hactive : r.active = a :: rest) (hreal : a.spurious = false)
    (busy : Bool) :
    Retires a.irq busy r.sys.pics (finished a r.sys).pics ↔
      a.irq.val < 8 ∧ a.called = true ∧
        ∀ j < chipLine a.irq, r.sys.pics.master.inService.getLsbD j = false := by
  unfold Retires finished
  by_cases hline : a.irq.val < 8
  · have hbit := master_inService hexact hactive hreal hline
    simp only [hline, if_true, true_and]
    cases hcalled : a.called with
    | false =>
      refine iff_of_false (fun h => ?_) (fun h => absurd h.1 (by decide))
      exact ne_clearBit hbit h.2.2.1
    | true =>
      rw [if_pos rfl, afterEOI_pics hs, if_pos hline]
      rw [← Pic8259.endOfInterrupt_inService_eq_clearBit hbit]
      simp
  · have hbit := slave_inService hexact hactive hreal hline
    simp only [hline, if_false, false_and, iff_false]
    intro h
    have hslave : (if a.called then r.sys.afterEOI a.irq else r.sys).pics.slave.inService =
        r.sys.pics.slave.inService := by
      cases a.called with
      | false => rfl
      | true =>
        rw [if_pos rfl, afterEOI_pics hs, if_neg hline]
    exact ne_clearBit hbit (hslave.symm.trans h.2.2.1)

/-- The return of a spurious IRQ 7 sends nothing exactly when no handler was called, and then it
does nothing. -/
theorem spurious_seven_iff {a : Activation} (hirq : a.irq = 7) (s : System) (busy : Bool) :
    (if a.called then [(0x20#16, 0x20#8)] else []) = (if a.irq = 7 then [] else
        [(0x20#16, 0x20#8)]) ∧ RetiresNone a.irq busy s.pics (finished a s).pics ↔
      ¬ a.called = true := by
  rw [if_pos hirq]
  constructor
  · rintro ⟨hnone, -⟩ hcalled
    rw [if_pos hcalled] at hnone
    cases hnone
  · intro hcalled
    have hfinished : finished a s = s := if_neg hcalled
    rw [if_neg hcalled, hfinished]
    have hline : a.irq.val < 8 := by
      rw [hirq]
      decide
    exact ⟨rfl, rfl, rfl, (if_pos (.inl hline)).symm⟩

/-- The return of a spurious IRQ 15 sends its end of interrupt only inside another activation of the
slave, and then it takes a line out of service that is being served. -/
theorem spurious_fifteen_false {r : Nest} {a : Activation} {rest : List Activation}
    (hexact : r.Exact) (hs : Operational r.sys) (hactive : r.active = a :: rest) (ha : a.Ok rest)
    (hspurious : a.spurious = true) (hirq : a.irq = 15)
    (hsent : (if a.called then [(0x20#16, 0x20#8)] else []) = [(0x20#16, 0x20#8)])
    (hretires : RetiresNone a.irq (rest.any fun b => 8 ≤ b.irq.val) r.sys.pics
      (finished a r.sys).pics) : False := by
  have hline : ¬ a.irq.val < 8 := by
    rw [hirq]
    decide
  have hcalled : a.called = true := by
    by_contra hno
    rw [if_neg hno] at hsent
    cases hsent
  have hslave : a.before.pics.slave.inService ≠ 0 := fun hzero =>
    (ha.called.mp hcalled).1 (.inr ⟨hirq, hzero⟩)
  obtain ⟨-, -, hmaster⟩ := hretires
  have hfinished : finished a r.sys = r.sys.afterEOI a.irq := if_pos hcalled
  rw [ha.busy hspurious hslave, if_pos (.inr rfl), hfinished, afterEOI_pics hs] at hmaster
  have hcascade := cascade_inService hexact hactive hline
  exact Pic8259.endOfInterrupt_inService_ne (i := PicPair.cascade) hcascade hmaster

/-- A return keeps the discipline exactly when `Retired` holds of it. The premises say that the
registers are those of the activations, as they are in every run. -/
theorem leave_law_iff {r : Nest} {a : Activation} {rest : List Activation} (hexact : r.Exact)
    (hs : Operational r.sys) (hactive : r.active = a :: rest) (ha : a.Ok rest) :
    a.Law rest r.sys ↔ a.Retired r.sys := by
  simp only [Activation.Law, finish_run, Option.some.injEq, Prod.mk.injEq, true_and,
    exists_eq_left']
  unfold Activation.Retired
  cases hsp : a.spurious with
  | true =>
    have heois : eois (a.wrote ++ written r.sys (finished a r.sys)) =
        if a.called then [(0x20#16, 0x20#8)] else [] := by
      rw [← eois_written, eois, List.filter_append, ← eois, ha.quiet, List.nil_append, ← eois]
    rw [if_pos rfl, if_pos rfl, heois]
    rcases ha.line hsp with h7 | h15
    · have hcalled := ha.called
      rw [h7, Spurious] at hcalled
      rw [spurious_seven_iff h7, hcalled, and_iff_right h7]
      simp only [true_and, show (7 : Irq) ≠ 15 by decide, false_and, or_false]
      exact not_and_or.trans (or_congr_left not_not)
    · have hne : a.irq ≠ 7 := by
        rw [h15]
        decide
      refine iff_of_false (fun hlaw => ?_) fun hretired => hne hretired.1
      rw [if_neg hne] at hlaw
      exact spurious_fifteen_false hexact hs hactive ha hsp h15 hlaw.1 hlaw.2
  | false =>
    have hretires := retires_iff hexact hs hactive hsp (rest.any fun b => 8 ≤ b.irq.val)
    rw [ha.called] at hretires
    simp only [Bool.false_eq_true, if_false, hretires, ha.real hsp, not_false_eq_true, true_and]

/-! ## Runs -/

/-- The condition of one event is exact: the law is kept if and only if what the event retires is
what it should. `Inv` is needed for the direction from the condition. -/
theorem NestEvent.law_iff {r : Nest} (hinv : r.Inv) (e : NestEvent) :
    NestEvent.Law r e ↔ NestEvent.Retired r e := by
  cases e with
  | deliver irq spurious regs => exact Iff.rfl
  | meanwhile s => exact Iff.rfl
  | leave =>
    unfold NestEvent.Law NestEvent.Retired
    refine forall_congr' fun hexact => forall_congr' fun a => forall_congr' fun rest =>
      forall_congr' fun hactive => ?_
    have hentered := hinv.entered
    rw [hactive] at hentered
    have ha : a.Ok rest := hentered.1
    exact leave_law_iff hexact hinv.operational hactive ha

/-- The invariant is kept: an activation that is entered records its entry, and one that is left
leaves the others. -/
theorem nestStep_inv {r r' : Nest} {e : NestEvent} (hinv : r.Inv) (hstep : nestStep r e = some r') :
    r'.Inv := by
  cases e with
  | deliver irq spurious regs =>
    rw [nestStep] at hstep
    split at hstep
    · rename_i hcan
      obtain ⟨call, s', hrun, hs', hwritten, hcall⟩ :=
        deliver_run (raise_operational hinv.operational irq spurious) irq regs
      simp only [hrun, Option.map_some, Option.some.injEq] at hstep
      subst hstep
      refine ⟨hs', ⟨hcan.2, hcall, fun hreal => ?_, ?_, fun hspurious hslave => ?_⟩,
        hinv.entered⟩
      · cases hreal
        exact not_spurious_raise r.sys irq
      · show eois (written _ s') = []
        rw [hwritten]
        rfl
      · cases hspurious
        by_contra hbusy
        exact hslave (raise_slave_idle hcan.1 irq (Bool.eq_false_iff.mpr hbusy))
    · cases hstep
  | leave =>
    rw [nestStep] at hstep
    split at hstep
    · cases hstep
    · rename_i a rest hactive
      split at hstep
      · rw [finish_run, Option.map_some] at hstep
        cases hstep
        have hentered := hinv.entered
        rw [hactive] at hentered
        exact ⟨operational_finished hinv.operational a, hentered.2⟩
      · cases hstep
  | meanwhile s =>
    rw [nestStep] at hstep
    split at hstep
    · rename_i hs
      cases hstep
      exact ⟨hs, hinv.entered⟩
    · cases hstep

/-- No activation yet: the controllers are operational and have nothing in service. -/
def quiet (s : System) : Nest where
  sys :=
    { s with
      pics :=
        { master :=
            { s.pics.master with phase := .ready, inService := 0, readInService := true }
          slave :=
            { s.pics.slave with phase := .ready, inService := 0, readInService := true } } }
  active := []

/-- With nothing in service and nothing active the invariant holds. -/
theorem quiet_inv (s : System) : (quiet s).Inv := ⟨⟨rfl, rfl, rfl, rfl⟩, True.intro⟩

/-- For every interrupt table, every state of the masks and every run of nested activations, with
anything happening in between: each return keeps the end-of-interrupt discipline exactly when
`Retired` holds of each return. That the in-service registers are those of the active interrupts is
checked at every delivery and return, and a run that departs from it ends. -/
theorem nestRun_law_iff (s : System) (es : List NestEvent) :
    EachStep nestStep NestEvent.Law (quiet s) es ↔
      EachStep nestStep NestEvent.Retired (quiet s) es :=
  EachStep.congr Nest.Inv (fun _ _ _ hinv _ hstep => nestStep_inv hinv hstep)
    (fun _ e hinv => NestEvent.law_iff hinv e) (quiet_inv s) es

/-- IRQ 8 is held and comes in alone. The end of interrupt of the slave goes to its mask, so that
the line stays in service. -/
theorem nestRun_eight :
    ¬ EachStep nestStep NestEvent.Law
        (quiet (System.powerUp.withEntry 8 .busInuse 0xC0001000 0xC0003000))
        [.deliver 8 false (fun _ => 0x202), .leave] := by
  intro hrun
  obtain ⟨_, hrest⟩ := hrun
  obtain ⟨r, hstep, hexact, a, hactive, hreal, hirq, hlevel⟩ :
      ∃ r, nestStep (quiet (System.powerUp.withEntry 8 .busInuse 0xC0001000 0xC0003000))
          (.deliver 8 false fun _ => 0x202) = some r ∧ r.Exact ∧
        ∃ a, r.active = [a] ∧ a.spurious = false ∧ a.irq = 8 ∧
          levelAt a.before 8 = .busInuse :=
    ⟨_, rfl, by decide, _, rfl, rfl, rfl, by decide⟩
  obtain ⟨hlaw, _⟩ := hrest r hstep
  have hinv : r.Inv := nestStep_inv (quiet_inv _) hstep
  have hretired : a.Retired r.sys :=
    (NestEvent.law_iff hinv .leave).mp hlaw hexact a [] hactive
  simp only [Activation.Retired, hreal, hirq, Bool.false_eq_true, if_false] at hretired
  exact absurd (hretired (Or.inr hlevel)).1 (by decide)

end OS90.Laws
