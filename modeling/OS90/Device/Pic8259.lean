import Mathlib.Data.BitVec
import Mathlib.Data.Finset.Card
import Mathlib.Data.Fintype.Card

/-!
# The 8259A interrupt controller

One controller is a record of its programmable registers: the in-service and mask registers, the
initialisation words, how far an initialisation sequence has come, and which register a read of
the command port answers. `writeCommand` and `writeData` are the two ports. A write with bit 4 set
to the command port is ICW1 and starts the sequence ICW2, ICW3, ICW4 on the data port; outside a
sequence the data port is the mask.

`PicPair` is the two controllers of a PC/AT on their usual ports, the slave on line 2 of the
master. The laws below say what an end-of-interrupt does: it clears the in-service bit of highest
priority, which is the lowest set bit. `Grants` is the rule by which a line is taken into service,
and `serving` the set of the lines that are.
-/

namespace OS90.Device

/-- How far a controller has come in its initialisation sequence. -/
inductive InitPhase where
  | ready
  | icw2
  | icw3
  | icw4
deriving DecidableEq, Repr

structure Pic8259 where
  phase : InitPhase
  /-- ICW1 asked for no ICW3 (one controller only). -/
  single : Bool
  /-- ICW1 asked for an ICW4. -/
  needsIcw4 : Bool
  /-- ICW2, whose upper five bits are the vector base. -/
  base : BitVec 8
  icw3 : BitVec 8
  icw4 : BitVec 8
  request : BitVec 8
  inService : BitVec 8
  mask : BitVec 8
  /-- A read of the command port answers the in-service register, and not the request register. -/
  readInService : Bool
deriving DecidableEq, Repr

namespace Pic8259

/-- The set bit of highest priority: line 0 comes before line 7. -/
def highest (r : BitVec 8) : Option (Fin 8) :=
  (List.finRange 8).find? fun i => r.getLsbD i

def clearBit (r : BitVec 8) (i : Fin 8) : BitVec 8 := r &&& ~~~(1#8 <<< i.val)

/-- The non-specific end of interrupt. -/
def endOfInterrupt (c : Pic8259) : Pic8259 :=
  match highest c.inService with
  | some i => { c with inService := clearBit c.inService i }
  | none => c

/-- A write to the command port: ICW1, OCW3 or OCW2. The priority rotations of OCW2 and the
special mask and poll modes of OCW3 are left out. -/
def writeCommand (v : BitVec 8) (c : Pic8259) : Pic8259 :=
  if v.getLsbD 4 then
    { c with
      phase := .icw2, single := v.getLsbD 1, needsIcw4 := v.getLsbD 0,
      request := 0, mask := 0, readInService := false }
  else if v.getLsbD 3 then
    if v.getLsbD 1 then { c with readInService := v.getLsbD 0 } else c
  else if v >>> 5 = 1#8 then c.endOfInterrupt
  else if v >>> 5 = 3#8 then
    { c with inService := c.inService &&& ~~~(1#8 <<< (v &&& 7#8).toNat) }
  else c

/-- The phase after ICW2 or ICW3, when the words before it have been taken. -/
def afterIcw3 (c : Pic8259) : InitPhase := if c.needsIcw4 then .icw4 else .ready

/-- A write to the data port: the next initialisation word, or the mask. -/
def writeData (v : BitVec 8) (c : Pic8259) : Pic8259 :=
  match c.phase with
  | .ready => { c with mask := v }
  | .icw2 => { c with base := v, phase := if c.single then c.afterIcw3 else .icw3 }
  | .icw3 => { c with icw3 := v, phase := c.afterIcw3 }
  | .icw4 => { c with icw4 := v, phase := .ready }

def readCommand (c : Pic8259) : BitVec 8 := if c.readInService then c.inService else c.request

/-- The vector a controller sends for one of its lines: ICW2 gives the upper five bits. -/
def vector (c : Pic8259) (line : Fin 8) : BitVec 8 :=
  (c.base &&& 0xF8#8) ||| BitVec.ofNat 8 line.val

/-! ## The bit of highest priority -/

/-- The line the chip resolves to is the lowest numbered of those that are set: it is set, and none
before it is. -/
theorem highest_eq_some {r : BitVec 8} {i : Fin 8} :
    highest r = some i ↔ r.getLsbD i = true ∧ ∀ j < i, r.getLsbD j = false := by
  unfold highest
  rw [List.find?_eq_some_iff_getElem]
  refine and_congr_right fun _ => ?_
  constructor
  · intro h j hj
    obtain ⟨k, hk, hki, hbelow⟩ := h
    have hval : k = i.val := by simpa using congrArg Fin.val hki
    simpa using hbelow j.val (by rw [hval]; exact hj)
  · intro h
    refine ⟨i.val, by simp, by simp, fun j hj => ?_⟩
    simpa using h ⟨j, by omega⟩ hj

/-- To clear a bit leaves every other bit as it was. -/
theorem getLsbD_clearBit (r : BitVec 8) (i j : Fin 8) :
    (clearBit r i).getLsbD j = (r.getLsbD j && decide (j ≠ i)) := by
  have hone : (1#8 <<< i.val).getLsbD j = decide (j = i) := by
    revert i j
    decide
  unfold clearBit
  rw [BitVec.getLsbD_and, BitVec.getLsbD_not, hone, decide_not]
  simp

/-- Clearing is seen: a register keeps a bit it clears only if the bit was not set. -/
theorem clearBit_injective {r : BitVec 8} {i j : Fin 8} (hi : r.getLsbD i = true)
    (h : clearBit r i = clearBit r j) : i = j := by
  have hb := congrArg (fun x : BitVec 8 => x.getLsbD i) h
  simp only [getLsbD_clearBit, hi, ne_eq, not_true_eq_false, decide_false, Bool.and_false,
    Bool.true_and] at hb
  have hij := of_decide_eq_false hb.symm
  exact Decidable.not_not.mp hij

/-- As long as a bit is set there is a line to resolve to, and so an end of interrupt with something
in service is never without effect. -/
theorem highest_ne_none {r : BitVec 8} {i : Fin 8} (hi : r.getLsbD i = true) :
    highest r ≠ none := by
  intro hnone
  have hclear := List.find?_eq_none.mp hnone i (List.mem_finRange i)
  exact hclear hi

/-- A register with an end-of-interrupt's bit cleared is the register with bit `i` cleared exactly
when `i` is the set bit of highest priority. -/
theorem endOfInterrupt_inService_eq_clearBit {c : Pic8259} {i : Fin 8}
    (hi : c.inService.getLsbD i = true) :
    c.endOfInterrupt.inService = clearBit c.inService i ↔
      ∀ j < i, c.inService.getLsbD j = false := by
  constructor
  · intro h
    cases hh : highest c.inService with
    | none => exact absurd hh (highest_ne_none hi)
    | some k =>
      rw [endOfInterrupt, hh] at h
      obtain ⟨hk, hbelow⟩ := highest_eq_some.mp hh
      have hki : k = i := clearBit_injective hk h
      exact hki ▸ hbelow
  · intro h
    rw [endOfInterrupt, highest_eq_some.mpr ⟨hi, h⟩]

/-- With a line in service an end of interrupt changes the register: it is never sent in vain then,
even if for the wrong line. -/
theorem endOfInterrupt_inService_ne {c : Pic8259} {i : Fin 8} (hi : c.inService.getLsbD i = true) :
    c.endOfInterrupt.inService ≠ c.inService := by
  intro h
  cases hh : highest c.inService with
  | none => exact highest_ne_none hi hh
  | some k =>
    have hk := (highest_eq_some.mp hh).1
    rw [endOfInterrupt, hh] at h
    have hclear : (clearBit c.inService k).getLsbD k = false := by
      rw [getLsbD_clearBit, decide_eq_false (by simp), Bool.and_false]
    rw [show clearBit c.inService k = c.inService from h, hk] at hclear
    cases hclear

/-- An end of interrupt touches the in-service register only, and clears in it the line that the
chip resolves to. -/
theorem endOfInterrupt_eq (c : Pic8259) :
    c.endOfInterrupt = { c with inService := c.endOfInterrupt.inService } := by
  unfold endOfInterrupt
  cases highest c.inService <;> rfl

@[simp] theorem endOfInterrupt_mask (c : Pic8259) : c.endOfInterrupt.mask = c.mask := by
  rw [endOfInterrupt_eq]

@[simp] theorem endOfInterrupt_phase (c : Pic8259) : c.endOfInterrupt.phase = c.phase := by
  rw [endOfInterrupt_eq]

@[simp] theorem endOfInterrupt_readInService (c : Pic8259) :
    c.endOfInterrupt.readInService = c.readInService := by
  rw [endOfInterrupt_eq]

/-- A controller initialised with an ICW1 that asks for all four words, edge triggered. -/
def initialised (base icw3 icw4 : BitVec 8) (c : Pic8259) : Pic8259 where
  phase := .ready
  single := false
  needsIcw4 := true
  base := base
  icw3 := icw3
  icw4 := icw4
  request := 0
  inService := c.inService
  mask := 0
  readInService := false

/-- The four initialisation words in their order take a chip from any state to the initialised one.
Nothing is asked of the state before, not even that no initialisation is under way. -/
theorem initialise (c : Pic8259) (base icw3 icw4 : BitVec 8) :
    (((c.writeCommand 0x11#8).writeData base).writeData icw3).writeData icw4 =
      c.initialised base icw3 icw4 := rfl

/-- 0x20 on the command port is the non-specific end of interrupt. -/
theorem writeCommand_endOfInterrupt (c : Pic8259) : c.writeCommand 0x20#8 = c.endOfInterrupt := by
  simp [writeCommand]

/-! ## Taking a line into service -/

/-- A line asks, and is not masked. -/
def Asks (c : Pic8259) (line : Fin 8) : Prop :=
  c.request.getLsbD line = true ∧ c.mask.getLsbD line = false

instance (c : Pic8259) (line : Fin 8) : Decidable (c.Asks line) :=
  inferInstanceAs (Decidable (_ ∧ _))

/-- The lines in service. -/
def serving (c : Pic8259) : Finset (Fin 8) := Finset.univ.filter fun i => c.inService.getLsbD i

/-- The fully nested mode: the first line that asks is granted if it comes before every line in
service. -/
def Grants (c : Pic8259) (line : Fin 8) : Prop :=
  c.Asks line ∧ (∀ j < line, ¬ c.Asks j) ∧ ∀ j ∈ c.serving, line < j

instance (c : Pic8259) (line : Fin 8) : Decidable (c.Grants line) :=
  inferInstanceAs (Decidable (_ ∧ _ ∧ _))

/-- A line goes into service, and no longer asks. -/
def acknowledge (c : Pic8259) (line : Fin 8) : Pic8259 :=
  { c with request := clearBit c.request line, inService := c.inService ||| 1#8 <<< line.val }

/-- The lines in service as a set, for counting. -/
theorem mem_serving {c : Pic8259} {i : Fin 8} : i ∈ c.serving ↔ c.inService.getLsbD i = true := by
  simp [serving]

/-- They depend on the in-service register alone, whatever the phase and the mask are. -/
theorem serving_congr {c d : Pic8259} (h : c.inService = d.inService) :
    c.serving = d.serving := by
  unfold serving
  rw [h]

/-- There are no more than eight of them. -/
theorem card_serving_le (c : Pic8259) : c.serving.card ≤ 8 := by
  have h := Finset.card_le_univ c.serving
  rwa [Fintype.card_fin] at h

/-- An interrupt that is acknowledged is in service, beside those that were. -/
theorem serving_acknowledge (c : Pic8259) (line : Fin 8) :
    (c.acknowledge line).serving = insert line c.serving := by
  have hone : ∀ i : Fin 8, (1#8 <<< line.val).getLsbD i = decide (i = line) := by
    revert line
    decide
  ext i
  rw [Finset.mem_insert, mem_serving, mem_serving]
  show (c.inService ||| 1#8 <<< line.val).getLsbD i = true ↔ _
  rw [BitVec.getLsbD_or, hone, Bool.or_eq_true, decide_eq_true_iff]
  exact or_comm

/-- A line that is granted was not in service, as the chip grants only what has a higher priority
than all that is. -/
theorem Grants.not_mem {c : Pic8259} {line : Fin 8} (h : c.Grants line) : line ∉ c.serving :=
  fun hmem => lt_irrefl line (h.2.2 line hmem)

/-- An end of interrupt takes out the line of highest priority, if there is one in service. -/
theorem serving_endOfInterrupt (c : Pic8259) :
    c.endOfInterrupt.serving = c.serving ∨
      ∃ i ∈ c.serving, c.endOfInterrupt.serving = c.serving.erase i := by
  cases hhighest : highest c.inService with
  | none =>
    left
    unfold endOfInterrupt
    rw [hhighest]
  | some i =>
    right
    refine ⟨i, mem_serving.mpr (highest_eq_some.mp hhighest).1, ?_⟩
    ext j
    rw [Finset.mem_erase, mem_serving, mem_serving]
    unfold endOfInterrupt
    rw [hhighest]
    show (clearBit c.inService i).getLsbD j = true ↔ _
    rw [getLsbD_clearBit, Bool.and_eq_true, decide_eq_true_iff]
    exact and_comm

/-- An end of interrupt takes at most one line out of service. This is the bound that the ledger of
interrupts rests on. -/
theorem card_serving_endOfInterrupt (c : Pic8259) :
    c.serving.card ≤ c.endOfInterrupt.serving.card + 1 := by
  rcases serving_endOfInterrupt c with h | ⟨i, hi, h⟩
  · rw [h]
    exact Nat.le_succ _
  · rw [h, Finset.card_erase_add_one hi]

end Pic8259

/-! ## The pair of a PC/AT -/

structure PicPair where
  master : Pic8259
  slave : Pic8259
deriving DecidableEq, Repr

namespace PicPair

/-- A byte written to an I/O port. Only the four ports of the pair matter here. -/
def write (port : BitVec 16) (v : BitVec 8) (p : PicPair) : PicPair :=
  if port = 0x20#16 then { p with master := p.master.writeCommand v }
  else if port = 0x21#16 then { p with master := p.master.writeData v }
  else if port = 0xA0#16 then { p with slave := p.slave.writeCommand v }
  else if port = 0xA1#16 then { p with slave := p.slave.writeData v }
  else p

/-- A byte read from an I/O port of the pair; another port floats high. -/
def read (port : BitVec 16) (p : PicPair) : BitVec 8 :=
  if port = 0x20#16 then p.master.readCommand
  else if port = 0x21#16 then p.master.mask
  else if port = 0xA0#16 then p.slave.readCommand
  else if port = 0xA1#16 then p.slave.mask
  else 0xFF#8

/-- The vector the pair sends for a line: lines 8 to 15 are the slave's. -/
def vector (p : PicPair) (irq : Fin 16) : BitVec 8 :=
  if h : irq.val < 8 then p.master.vector ⟨irq.val, h⟩
  else p.slave.vector ⟨irq.val - 8, by have := irq.isLt; omega⟩

/-- The master's line 2. -/
def cascade : Fin 8 := ⟨2, by decide⟩

/-- The master with that line driven by the slave. -/
def driven (p : PicPair) : Pic8259 :=
  if ∃ line, p.slave.Grants line then { p.master with request := p.master.request ||| 4#8 }
  else { p.master with request := p.master.request &&& ~~~4#8 }

/-- A line of the pair is granted. A line of the slave needs line 2 of the master. -/
def Grants (p : PicPair) (irq : Fin 16) : Prop :=
  if h : irq.val < 8 then irq ≠ 2 ∧ p.driven.Grants ⟨irq.val, h⟩
  else p.driven.Grants cascade ∧ p.slave.Grants ⟨irq.val - 8, by have := irq.isLt; omega⟩

instance (p : PicPair) (irq : Fin 16) : Decidable (p.Grants irq) :=
  inferInstanceAs (Decidable (if _h : irq.val < 8 then _ else _))

/-- The pair takes a line into service. -/
def acknowledge (p : PicPair) (irq : Fin 16) : PicPair :=
  if h : irq.val < 8 then { p with master := p.master.acknowledge ⟨irq.val, h⟩ }
  else
    { master := p.master.acknowledge cascade
      slave := p.slave.acknowledge ⟨irq.val - 8, by have := irq.isLt; omega⟩ }

/-- The line of the slave asked and no longer does: only the master takes its line 2. -/
def acknowledgeSpurious (p : PicPair) (slave : Bool) : PicPair :=
  if slave then { p with master := p.master.acknowledge cascade } else p

theorem serving_driven (p : PicPair) : p.driven.serving = p.master.serving := by
  unfold driven
  split <;> rfl

end PicPair

end OS90.Device
