import OS90.Laws.EndOfInterrupt
import OS90.Lib.Run

/-!
# Interrupts that are not retired

A run of the two controllers and the dispatcher: the controllers grant lines by their priority, a
handler is interrupted by lines of higher priority than its own, and between the steps anything may
happen to the kernel's state, the masks and the requests included, as long as both in-service
registers stay as they are: `meanwhile` is the other code of the kernel, and a driver that sends an
end of interrupt of its own, or programs a controller anew, is outside of these runs. Spurious
interrupts come at any time.

A line whose level does not read as `BUS_INUSE` is left in service: the dispatcher returns from it
and sends nothing. The slave's lines all are, because its command goes to its mask. `Ledger` counts
what that costs: it is kept by each kind of step, and the bounds of `interrupts_lost` follow from it
for every run. The timer is such a line, and has the highest priority of all: after its first
interrupt the dispatcher writes to neither controller again, so no end of interrupt comes, and there
is no other interrupt (`timer_once`). That its level does not read as `BUS_INUSE` is a premise there
and not a result: it holds of the table of zeros the kernel starts with.
-/

namespace OS90.Laws

open OS90.Device OS90.Kernel OS90.Run

/-- An interrupt the dispatcher has been entered for, and not returned from. -/
structure Service where
  irq : Irq
  spurious : Bool
  /-- The dispatcher has called a handler. -/
  called : Bool
deriving DecidableEq

inductive ServiceEvent where
  | granted (irq : Irq) (regs : Context)
  | spurious (slave : Bool) (regs : Context)
  | leave
  | meanwhile (s : System)

/-- The kernel's state, its activations, the innermost first, and a record of the run. -/
structure Handling where
  sys : System
  active : List Service
  /-- How many lines have been granted. -/
  grants : Nat
  /-- How many of them have come to no handler. -/
  lost : Nat
  /-- The ends of interrupt that were sent for spurious interrupts. -/
  stolen : Nat
  /-- The lines of the slave that were granted, the latest first. -/
  fromSlave : List (Fin 8)

def Handling.start (s : System) : Handling := ⟨s, [], 0, 0, 0, []⟩

/-- The line a spurious interrupt is taken for. -/
def spuriousLine (slave : Bool) : Irq := if slave then 15 else 7

/-- The state with other controllers. -/
def System.withPics (s : System) (p : PicPair) : System := { s with pics := p }

/-- The rest of an activation after its handler. -/
def Service.rest (a : Service) : KernelM Unit :=
  if a.called then sendEOI (a.irq.vint.setWidth 8) else pure ()

/-- One event of a run. The processor takes an interrupt while its flag is set. -/
def serviceStep (r : Handling) : ServiceEvent → Option Handling
  | .granted irq regs =>
    if r.sys.intFlag = true ∧ r.sys.pics.Grants irq then
      ((dispatchEnter regs irq.vint).run
        (System.withPics r.sys (r.sys.pics.acknowledge irq))).map fun (call, s) =>
        { r with
          sys := s
          active := ⟨irq, false, call.isSome⟩ :: r.active
          grants := r.grants + 1
          lost := if call.isSome then r.lost else r.lost + 1
          fromSlave := if irq.val < 8 then r.fromSlave else chipLine irq :: r.fromSlave }
    else none
  | .spurious slave regs =>
    if r.sys.intFlag = true then
      ((dispatchEnter regs (spuriousLine slave).vint).run
        (System.withPics r.sys (r.sys.pics.acknowledgeSpurious slave))).map fun (call, s) =>
        { r with sys := s, active := ⟨spuriousLine slave, true, call.isSome⟩ :: r.active }
    else none
  | .leave =>
    match r.active with
    | [] => none
    | a :: active =>
      (a.rest.run r.sys).map fun (_, s) =>
        { r with
          sys := s
          active := active
          stolen := if a.spurious && a.called then r.stolen + 1 else r.stolen }
  | .meanwhile s =>
    if s.pics.master.inService = r.sys.pics.master.inService ∧
        s.pics.slave.inService = r.sys.pics.slave.inService then
      some { r with sys := s }
    else none

/-- The activations of real interrupts whose handler has not returned. -/
def Handling.handled (r : Handling) : Nat := r.active.countP fun a => a.called && !a.spurious

/-- What the lines in service are held by, from state `s` on. -/
structure Ledger (s : System) (r : Handling) : Prop where
  master : s.pics.master.serving.card + r.lost + r.handled ≤
    r.sys.pics.master.serving.card + r.stolen
  slave : r.sys.pics.slave.serving = r.fromSlave.toFinset ∪ s.pics.slave.serving
  /-- Each line of the slave has a higher priority than those before it. -/
  rising : r.fromSlave.Pairwise (· < ·)
  above : ∀ i ∈ r.fromSlave, ∀ j ∈ s.pics.slave.serving, i < j

/-! ## Entering and returning -/

section Steps

variable {r r' : Handling}

/-- The dispatcher writes to no controller before its handler, and calls one for a held line. -/
theorem dispatchEnter_pics (s : System) (irq : Irq) (regs : Context) :
    ∃ call s', (dispatchEnter regs irq.vint).run s = some (call, s') ∧ s'.pics = s.pics ∧
      (call.isSome = true → shiftedLevels s irq = INTERRUPT_LEVEL.busInuse.val) := by
  rw [dispatchEnter_run]
  split
  · exact ⟨_, _, rfl, rfl, fun h => absurd h Bool.false_ne_true⟩
  · split
    · next hheld => exact ⟨_, _, rfl, rfl, fun _ => hheld⟩
    · exact ⟨_, _, rfl, rfl, fun h => absurd h Bool.false_ne_true⟩

/-- What an interrupt that is granted does: the line goes into service, and the handler is called
only if the line is in use. -/
theorem step_granted {irq : Irq} {regs : Context}
    (h : serviceStep r (.granted irq regs) = some r') :
    r.sys.pics.Grants irq ∧ ∃ called : Bool,
      (called = true → shiftedLevels r.sys irq = INTERRUPT_LEVEL.busInuse.val) ∧
      r'.sys.pics = r.sys.pics.acknowledge irq ∧ r'.active = ⟨irq, false, called⟩ :: r.active ∧
      r'.grants = r.grants + 1 ∧ r'.lost = (if called then r.lost else r.lost + 1) ∧
      r'.stolen = r.stolen ∧
      r'.fromSlave = if irq.val < 8 then r.fromSlave else chipLine irq :: r.fromSlave := by
  simp only [serviceStep] at h
  split at h
  · next hgrants =>
    obtain ⟨call, s', hrun, hpics, hheld⟩ :=
      dispatchEnter_pics (System.withPics r.sys (r.sys.pics.acknowledge irq)) irq regs
    rw [hrun] at h
    cases h
    exact ⟨hgrants.2, call.isSome, hheld, hpics, rfl, rfl, rfl, rfl, rfl⟩
  · cases h

/-- What a spurious one does: nothing but the cascade line of the master can go into service. -/
theorem step_spurious {slave : Bool} {regs : Context}
    (h : serviceStep r (.spurious slave regs) = some r') :
    ∃ called : Bool, r'.sys.pics = r.sys.pics.acknowledgeSpurious slave ∧
      r'.active = ⟨spuriousLine slave, true, called⟩ :: r.active ∧
      r'.grants = r.grants ∧ r'.lost = r.lost ∧ r'.stolen = r.stolen ∧
      r'.fromSlave = r.fromSlave := by
  simp only [serviceStep] at h
  split at h
  · obtain ⟨call, s', hrun, hpics, -⟩ := dispatchEnter_pics
      (System.withPics r.sys (r.sys.pics.acknowledgeSpurious slave)) (spuriousLine slave) regs
    rw [hrun] at h
    cases h
    exact ⟨call.isSome, hpics, rfl, rfl, rfl, rfl, rfl⟩
  · cases h

/-- The end of interrupt retires a line of the master, if any, and none of the slave, whichever line
it was for. -/
theorem afterEOI_serving (s : System) (irq : Irq) :
    (s.afterEOI irq).pics.master = s.pics.master.endOfInterrupt ∧
      (s.afterEOI irq).pics.slave.serving = s.pics.slave.serving := by
  unfold System.afterEOI
  rw [Pic8259.writeCommand_endOfInterrupt]
  split
  · refine ⟨rfl, Pic8259.serving_congr ?_⟩
    show (s.pics.slave.writeData 0x20#8).inService = s.pics.slave.inService
    unfold Pic8259.writeData
    cases s.pics.slave.phase <;> rfl
  · exact ⟨rfl, rfl⟩

/-- What the end of a handler does: the top activation is retired, and the ends of interrupt it
sends may take a line out of service that is not its own. -/
theorem step_leave (h : serviceStep r .leave = some r') :
    ∃ a, r.active = a :: r'.active ∧ r'.grants = r.grants ∧ r'.lost = r.lost ∧
      r'.fromSlave = r.fromSlave ∧
      r'.stolen = (if a.spurious && a.called then r.stolen + 1 else r.stolen) ∧
      r'.sys.pics.master =
        (if a.called then r.sys.pics.master.endOfInterrupt else r.sys.pics.master) ∧
      r'.sys.pics.slave.serving = r.sys.pics.slave.serving := by
  simp only [serviceStep] at h
  cases hactive : r.active with
  | nil =>
    rw [hactive] at h
    cases h
  | cons a active =>
    rw [hactive] at h
    dsimp only at h
    cases hcalled : a.called with
    | false =>
      have hrest : a.rest = pure () := by
        unfold Service.rest
        rw [hcalled]
        rfl
      rw [hrest] at h
      cases h
      refine ⟨a, rfl, rfl, rfl, rfl, by rw [hcalled], ?_, rfl⟩
      rw [hcalled]
      rfl
    | true =>
      have hrest : a.rest = sendEOI (a.irq.vint.setWidth 8) := by
        unfold Service.rest
        rw [hcalled]
        rfl
      rw [hrest, sendEOI_run] at h
      cases h
      obtain ⟨hmaster, hslave⟩ := afterEOI_serving r.sys a.irq
      refine ⟨a, rfl, rfl, rfl, rfl, by rw [hcalled], ?_, hslave⟩
      rw [if_pos hcalled]
      exact hmaster

/-- What other code does is arbitrary but for the controllers and the ledger. -/
theorem step_meanwhile {s : System} (h : serviceStep r (.meanwhile s) = some r') :
    r' = { r with sys := s } ∧ s.pics.master.serving = r.sys.pics.master.serving ∧
      s.pics.slave.serving = r.sys.pics.slave.serving := by
  simp only [serviceStep] at h
  split at h
  · next hservice =>
    cases h
    exact ⟨rfl, Pic8259.serving_congr hservice.1, Pic8259.serving_congr hservice.2⟩
  · cases h

end Steps

/-! ## The ledger -/

section Ledger

variable {s : System} {r r' : Handling}

/-- Before any event the ledger is balanced. -/
theorem ledger_start (s : System) : Ledger s (.start s) where
  master := Nat.le_refl _
  slave := (Finset.empty_union _).symm
  rising := List.Pairwise.nil
  above := fun _ hi => absurd hi List.not_mem_nil

/-- A line that is granted was not in service, so that the master has one more in service. -/
theorem card_acknowledge {p : PicPair} {irq : Irq} (h : p.Grants irq) :
    (p.acknowledge irq).master.serving.card = p.master.serving.card + 1 := by
  unfold PicPair.Grants at h
  unfold PicPair.acknowledge
  split at h
  · next hline =>
    have hout := h.2.not_mem
    rw [PicPair.serving_driven] at hout
    rw [dif_pos hline, Pic8259.serving_acknowledge, Finset.card_insert_of_notMem hout]
  · next hline =>
    have hout := h.1.not_mem
    rw [PicPair.serving_driven] at hout
    rw [dif_neg hline, Pic8259.serving_acknowledge, Finset.card_insert_of_notMem hout]

/-- A spurious interrupt takes nothing out of service. -/
theorem le_card_acknowledgeSpurious (p : PicPair) (slave : Bool) :
    p.master.serving.card ≤ (p.acknowledgeSpurious slave).master.serving.card ∧
      (p.acknowledgeSpurious slave).slave = p.slave := by
  cases slave with
  | false => exact ⟨Nat.le_refl _, rfl⟩
  | true =>
    refine ⟨?_, rfl⟩
    show _ ≤ (p.master.acknowledge PicPair.cascade).serving.card
    rw [Pic8259.serving_acknowledge]
    exact Finset.card_le_card (Finset.subset_insert _ _)

/-- A granted interrupt keeps the ledger. -/
theorem Ledger.granted (h : Ledger s r) {irq : Irq} {regs : Context}
    (hstep : serviceStep r (.granted irq regs) = some r') : Ledger s r' := by
  obtain ⟨hgrants, called, -, hpics, hactive, -, hlost, hstolen, hslave⟩ := step_granted hstep
  have hcard := card_acknowledge hgrants
  have hhandled : r'.handled = r.handled + if called then 1 else 0 := by
    unfold Handling.handled
    rw [hactive, List.countP_cons]
    simp
  have hmaster : s.pics.master.serving.card + r'.lost + r'.handled ≤
      r'.sys.pics.master.serving.card + r'.stolen := by
    have hbefore := h.master
    rw [hpics, hcard, hlost, hstolen, hhandled]
    cases called with
    | false =>
      simp only [Bool.false_eq_true, if_false]
      omega
    | true =>
      simp only [if_true]
      omega
  by_cases hline : irq.val < 8
  · rw [if_pos hline] at hslave
    have hkept : (r.sys.pics.acknowledge irq).slave = r.sys.pics.slave := by
      unfold PicPair.acknowledge
      rw [dif_pos hline]
    refine ⟨hmaster, ?_, ?_, ?_⟩
    · rw [hpics, hkept, hslave, h.slave]
    · rw [hslave]
      exact h.rising
    · rw [hslave]
      exact h.above
  · rw [if_neg hline] at hslave
    unfold PicPair.Grants at hgrants
    rw [dif_neg hline] at hgrants
    have hchip : (⟨irq.val - 8, by have := irq.isLt; omega⟩ : Fin 8) = chipLine irq := by
      have hlt := irq.isLt
      apply Fin.ext
      show irq.val - 8 = irq.val % 8
      omega
    rw [hchip] at hgrants
    have htaken : (r.sys.pics.acknowledge irq).slave =
        r.sys.pics.slave.acknowledge (chipLine irq) := by
      unfold PicPair.acknowledge
      rw [dif_neg hline]
      dsimp only
      rw [hchip]
    -- the line comes before all in service, the slave's earlier ones among them
    have hbefore := hgrants.2.2.2
    rw [h.slave] at hbefore
    refine ⟨hmaster, ?_, ?_, ?_⟩
    · rw [hpics, htaken, hslave, Pic8259.serving_acknowledge, h.slave, List.toFinset_cons,
        Finset.insert_union]
    · rw [hslave]
      refine List.pairwise_cons.mpr ⟨fun j hj => ?_, h.rising⟩
      exact hbefore j (Finset.mem_union_left _ (List.mem_toFinset.mpr hj))
    · rw [hslave]
      intro i hi j hj
      rcases List.mem_cons.mp hi with rfl | hi
      · exact hbefore j (Finset.mem_union_right _ hj)
      · exact h.above i hi j hj

/-- A spurious interrupt keeps the ledger. -/
theorem Ledger.spurious (h : Ledger s r) {slave : Bool} {regs : Context}
    (hstep : serviceStep r (.spurious slave regs) = some r') : Ledger s r' := by
  obtain ⟨called, hpics, hactive, -, hlost, hstolen, hslave⟩ := step_spurious hstep
  obtain ⟨hcard, hkept⟩ := le_card_acknowledgeSpurious r.sys.pics slave
  have hhandled : r'.handled = r.handled := by
    unfold Handling.handled
    rw [hactive, List.countP_cons]
    simp
  refine ⟨?_, ?_, ?_, ?_⟩
  · have hbefore := h.master
    rw [hpics, hlost, hstolen, hhandled]
    omega
  · rw [hpics, hkept, hslave, h.slave]
  · rw [hslave]
    exact h.rising
  · rw [hslave]
    exact h.above

/-- The end of a handler keeps it. This is the step that counts what is lost and what is stolen. -/
theorem Ledger.leave (h : Ledger s r) (hstep : serviceStep r .leave = some r') : Ledger s r' := by
  obtain ⟨a, hactive, -, hlost, hslave, hstolen, hmaster, hkept⟩ := step_leave hstep
  have hhandled : r.handled = r'.handled + if a.called && !a.spurious then 1 else 0 := by
    unfold Handling.handled
    rw [hactive, List.countP_cons]
  refine ⟨?_, ?_, ?_, ?_⟩
  · have hbefore := h.master
    rw [hhandled] at hbefore
    rw [hlost, hmaster, hstolen]
    cases hcalled : a.called with
    | false =>
      simp only [hcalled, Bool.false_and, Bool.and_false, Bool.false_eq_true, if_false] at *
      omega
    | true =>
      have hretired := Pic8259.card_serving_endOfInterrupt r.sys.pics.master
      cases hspurious : a.spurious with
      | false =>
        simp only [hcalled, hspurious, Bool.true_and, Bool.false_and, Bool.not_false, if_true,
          Bool.false_eq_true, if_false] at *
        omega
      | true =>
        simp only [hcalled, hspurious, Bool.true_and, Bool.not_true, if_true,
          Bool.false_eq_true, if_false] at *
        omega
  · rw [hkept, hslave, h.slave]
  · rw [hslave]
    exact h.rising
  · rw [hslave]
    exact h.above

/-- Other code keeps it, since both in-service registers stay. -/
theorem Ledger.meanwhile (h : Ledger s r) {t : System}
    (hstep : serviceStep r (.meanwhile t) = some r') : Ledger s r' := by
  obtain ⟨rfl, hmaster, hslave⟩ := step_meanwhile hstep
  refine ⟨?_, ?_, h.rising, h.above⟩
  · show s.pics.master.serving.card + r.lost + r.handled ≤ t.pics.master.serving.card + r.stolen
    rw [hmaster]
    exact h.master
  · show t.pics.slave.serving = _
    rw [hslave]
    exact h.slave

/-- Every event keeps the ledger. -/
theorem Ledger.step (h : Ledger s r) {e : ServiceEvent} (hstep : serviceStep r e = some r') :
    Ledger s r' := by
  cases e with
  | granted irq regs => exact h.granted hstep
  | spurious slave regs => exact h.spurious hstep
  | leave => exact h.leave hstep
  | meanwhile t => exact h.meanwhile hstep

end Ledger

/-! ## What is lost -/

/-- The interrupts that come to no handler are at most eight, and one for each end of interrupt
sent for a spurious one; those of the slave are at most eight whatever becomes of them, each of a
higher priority than the last. -/
structure Bounded (s : System) (r : Handling) : Prop where
  lost : r.lost + s.pics.master.serving.card ≤ 8 + r.stolen
  slave : r.fromSlave.length + s.pics.slave.serving.card ≤ 8
  rising : r.fromSlave.Pairwise (· < ·)

/-- The bounds follow from the ledger and from there being eight lines to a chip. -/
theorem Ledger.bounded {s : System} {r : Handling} (h : Ledger s r) : Bounded s r := by
  refine ⟨?_, ?_, h.rising⟩
  · have hmaster := h.master
    have hlines := Pic8259.card_serving_le r.sys.pics.master
    omega
  · have hlines := Pic8259.card_serving_le r.sys.pics.slave
    have hdisjoint : Disjoint r.fromSlave.toFinset s.pics.slave.serving := by
      refine Finset.disjoint_left.mpr fun i hi hs => ?_
      exact lt_irrefl i (h.above i (List.mem_toFinset.mp hi) i hs)
    have hnodup : r.fromSlave.Nodup := h.rising.imp fun hlt => ne_of_lt hlt
    rw [h.slave, Finset.card_union_of_disjoint hdisjoint,
      List.toFinset_card_of_nodup hnodup] at hlines
    exact hlines

/-- In every state of every run, whatever state it starts in, the counts of the ledger are within
their bounds. Nothing is asked of the handlers but that they leave both in-service registers alone.
The bounds are about counts, and which line is lost is not among them. -/
theorem interrupts_lost (s : System) (events : List ServiceEvent) :
    ∀ r ∈ states serviceStep (.start s) events, Bounded s r := fun r hr =>
  (forall_states (fun _ _ _ h hstep => Ledger.step h hstep) (ledger_start s) events r hr).bounded

/-! ## The timer -/

/-- The timer's line is in service, and no handler will return. -/
structure Wedged (n : Nat) (r : Handling) : Prop where
  line : 0 ∈ r.sys.pics.master.serving
  idle : ∀ a ∈ r.active, a.called = false
  grants : r.grants = n

def ServiceEvent.real : ServiceEvent → Bool
  | .spurious _ _ => false
  | _ => true

/-- The events that are steps of the dispatcher. -/
def ServiceEvent.dispatches : ServiceEvent → Bool
  | .meanwhile _ => false
  | _ => true

/-- The dispatcher writes to the delay port only: no controller is sent a command. -/
def Silent (r : Handling) (e : ServiceEvent) : Prop :=
  ∀ r', serviceStep r e = some r' → e.dispatches = true →
    ∀ w ∈ written r.sys r'.sys, w.1 = 0x80#16

/-- Up to the call of a handler the dispatcher only reads the controllers, and writes to the delay
port. -/
theorem dispatchEnter_written {s s' t : System} {irq : Irq} {regs : Context}
    {call : Option HandlerCall} (h : (dispatchEnter regs irq.vint).run t = some (call, s'))
    (hio : t.io = s.io) :
    ∀ w ∈ written s s', w.1 = 0x80#16 := by
  have hentered : s'.io = s.io ++ [(0x80#16, 0), (0x80#16, 0)] := by
    rw [dispatchEnter_run] at h
    split at h
    · cases h
      exact congrArg (· ++ _) hio
    · split at h
      · cases h
        exact congrArg (· ++ _) hio
      · cases h
        exact congrArg (· ++ _) hio
  unfold written
  rw [hentered, List.drop_left]
  simp

theorem silent_granted (r : Handling) (irq : Irq) (regs : Context) :
    Silent r (.granted irq regs) := by
  intro r' hstep _
  simp only [serviceStep] at hstep
  split at hstep
  · obtain ⟨⟨call, s'⟩, hrun, hstep⟩ := Option.map_eq_some_iff.mp hstep
    have hwritten : ∀ w ∈ written r.sys s', w.1 = 0x80#16 := dispatchEnter_written hrun rfl
    cases hstep
    exact hwritten
  · cases hstep

theorem silent_spurious (r : Handling) (slave : Bool) (regs : Context) :
    Silent r (.spurious slave regs) := by
  intro r' hstep _
  simp only [serviceStep] at hstep
  split at hstep
  · obtain ⟨⟨call, s'⟩, hrun, hstep⟩ := Option.map_eq_some_iff.mp hstep
    have hwritten : ∀ w ∈ written r.sys s', w.1 = 0x80#16 := dispatchEnter_written hrun rfl
    cases hstep
    exact hwritten
  · cases hstep

/-- A return from an interrupt that came to no handler sends nothing, if there is none that did. -/
theorem silent_leave {r : Handling} (hidle : ∀ a ∈ r.active, a.called = false) :
    Silent r .leave := by
  intro r' hstep _
  simp only [serviceStep] at hstep
  cases hactive : r.active with
  | nil =>
    rw [hactive] at hstep
    cases hstep
  | cons a active =>
    have hcalled : a.called = false := hidle a (by rw [hactive]; exact List.mem_cons_self)
    rw [hactive] at hstep
    simp only [Service.rest, hcalled, Bool.false_eq_true, if_false] at hstep
    cases hstep
    unfold written
    rw [List.drop_length]
    exact fun _ hw => absurd hw List.not_mem_nil

/-- While the timer is stuck in service and no handler is left that could return, the dispatcher
sends no controller a command. -/
theorem Wedged.silent {n : Nat} {r : Handling} (h : Wedged n r) (e : ServiceEvent) :
    Silent r e := by
  cases e with
  | granted irq regs => exact silent_granted r irq regs
  | spurious slave regs => exact silent_spurious r slave regs
  | leave => exact silent_leave h.idle
  | meanwhile s => exact fun _ _ hkind => absurd hkind Bool.false_ne_true

/-- While the timer is in service no line is granted, as none has a higher priority. -/
theorem not_grants_of_line {p : PicPair} (h : 0 ∈ p.master.serving) (irq : Irq) :
    ¬ p.Grants irq := by
  intro hgrants
  unfold PicPair.Grants at hgrants
  rw [← p.serving_driven] at h
  split at hgrants
  · exact absurd (hgrants.2.2.2 0 h) (Nat.not_lt_zero _)
  · exact absurd (hgrants.1.2.2 0 h) (by decide)

/-- And it stays so, whatever real event is next. -/
theorem Wedged.step {n : Nat} {r r' : Handling} (h : Wedged n r) {e : ServiceEvent}
    (hreal : e.real = true) (hstep : serviceStep r e = some r') : Wedged n r' := by
  cases e with
  | granted irq regs => exact absurd (step_granted hstep).1 (not_grants_of_line h.line irq)
  | spurious slave regs => exact absurd hreal Bool.false_ne_true
  | leave =>
    obtain ⟨a, hactive, hgrants, -, -, -, hmaster, -⟩ := step_leave hstep
    have hidle := h.idle
    rw [hactive] at hidle
    obtain ⟨hcalled, hidle⟩ := List.forall_mem_cons.mp hidle
    rw [if_neg (by rw [hcalled]; exact Bool.false_ne_true)] at hmaster
    exact ⟨hmaster ▸ h.line, hidle, hgrants.trans h.grants⟩
  | meanwhile s =>
    obtain ⟨rfl, hmaster, -⟩ := step_meanwhile hstep
    exact ⟨hmaster ▸ h.line, h.idle, h.grants⟩

/-- The timer interrupts outside of any handler, and its level does not read as `BUS_INUSE`: in
every run from there, whatever asks, the dispatcher writes to neither controller, so that it sends
no end of interrupt, and no line is granted again, unless a spurious interrupt comes. The other
code of the kernel leaves both in-service registers alone. -/
theorem timer_once (r : Handling) (regs : Context) (events : List ServiceEvent)
    (hidle : ∀ a ∈ r.active, a.called = false)
    (hlevel : shiftedLevels r.sys 0 ≠ INTERRUPT_LEVEL.busInuse.val)
    (hreal : ∀ e ∈ events, e.real = true) :
    EachStep serviceStep Silent r (.granted 0 regs :: events) ∧
      ∀ r' ∈ states serviceStep r (.granted 0 regs :: events), r'.grants ≤ r.grants + 1 := by
  have hwedged : ∀ r₁, serviceStep r (.granted 0 regs) = some r₁ →
      Wedged (r.grants + 1) r₁ := by
    intro r₁ hstep
    obtain ⟨_, called, hheld, hpics, hactive, hgrants, -⟩ := step_granted hstep
    have hcalled : called = false := by
      cases called with
      | false => rfl
      | true => exact absurd (hheld rfl) hlevel
    refine ⟨?_, ?_, hgrants⟩
    · rw [hpics]
      show 0 ∈ (r.sys.pics.master.acknowledge 0).serving
      rw [Pic8259.serving_acknowledge]
      exact Finset.mem_insert_self _ _
    · rw [hactive]
      exact List.forall_mem_cons.mpr ⟨hcalled, hidle⟩
  constructor
  · refine ⟨silent_granted r 0 regs, fun r₁ hstep => ?_⟩
    exact EachStep.of_inv (fun _ _ _ h hreal hstep => Wedged.step h hreal hstep)
      (fun _ e h _ => h.silent e) (hwedged r₁ hstep) events hreal
  · refine forall_mem_states_cons.mpr ⟨Nat.le_succ _, fun r₁ hstep r' hr' => ?_⟩
    have h := forall_states_of (fun _ _ _ h hreal hstep => Wedged.step h hreal hstep)
      (hwedged r₁ hstep) events hreal r' hr'
    exact Nat.le_of_eq h.grants

/-- The timer and line 5 ask, and nothing is in service. -/
def asking : Handling :=
  .start { System.powerUp with
    intFlag := true
    pics := { System.powerUp.pics with
      master := { System.powerUp.pics.master with request := 0x21 } } }

/-- An interrupt of the timer that comes to no handler is lost, and is within the bounds. -/
theorem interrupts_lost_asking : ∃ r, serviceStep asking (.granted 0 fun _ => 0) = some r ∧
    r.lost = 1 ∧ Bounded asking.sys r := by
  obtain ⟨r, hr, hlost⟩ : ∃ r, serviceStep asking (.granted 0 fun _ => 0) = some r ∧
      r.lost = 1 := ⟨_, rfl, rfl⟩
  refine ⟨r, hr, hlost, interrupts_lost asking.sys [.granted 0 fun _ => 0] r ?_⟩
  show r ∈ states serviceStep asking [.granted 0 fun _ => 0]
  unfold states
  rw [hr]
  exact List.mem_cons_of_mem _ (start_mem_states r [])

/-- The timer is granted, its return sends nothing, and line 5 is not granted after it. -/
theorem timer_once_asking :
    (serviceStep asking (.granted 0 fun _ => 0)).isSome = true ∧
      EachStep serviceStep Silent asking
        [.granted 0 fun _ => 0, .leave, .granted 5 fun _ => 0] ∧
      ∀ r ∈ states serviceStep asking [.granted 0 fun _ => 0, .leave, .granted 5 fun _ => 0],
        r.grants ≤ 1 := by
  refine ⟨rfl, timer_once asking (fun _ => 0) [.leave, .granted 5 fun _ => 0] ?_ (by decide) ?_⟩
  · exact fun _ ha => absurd ha List.not_mem_nil
  · simp [ServiceEvent.real]

end OS90.Laws
