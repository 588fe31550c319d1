import OS90.Ia32.Interrupt
import OS90.Kernel.System
import OS90.Lib.Loop

/-!
# Setting up the processor and the interrupt controllers

`_SetIntVector`, `FillIDT` and `PIC_Remap` of `IA32.c`, with the table of exceptions and the gate
macros of `Platform/IA32.h`, and what the processor makes of the table they fill: `gateOf` is a
descriptor as it is read, and `deliverVector` takes an interrupted machine to the label its gate
points at.

Code addresses are those of a `Layout`, which gives every label an address of its own.

The two controllers are programmed by writes to their ports, which are those of the model of the
chip. The order of the four words is in `picRemap`, and what comes out of it does not depend on the
state before.

An interrupt is taken to a label and not to code: what runs there is the stub of the label, in the
module about those. A vector without a present gate, or whose address is no stub's, comes to
nothing, which is how a missing gate shows in the laws.
-/

namespace OS90.Kernel

open OS90.Ia32 OS90.Device OS90.Update

/-- The exceptions `Intr_Trap.asm` makes a stub for. -/
inductive ExceptName where
  | divide0
  | debug
  | nmi
  | breakpoint
  | overflow
  | boundRangeExceeded
  | invalidOp
  | devNotAvail
  | doubleFault
  | segOverrun
  | invalidTSS
  | segNotPresent
  | stackSegFault
  | generalProtect
  | pageFault
  | floatError
deriving DecidableEq, Repr

/-- The labels of the kernel whose addresses it uses: the stubs in the IDT, and the places its
assembly routines are called back to. -/
inductive Label where
  | lowExcept (name : ExceptName)
  | low (irq : Irq)
  | afterExcept (name : ExceptName)
  | afterDispatch
  | afterSetESP0
  | afterGetESP0
  | afterReenter
  | afterEnterV86
deriving DecidableEq

/-- Where the linker put the kernel's code. -/
structure Layout where
  addr : Label → PTR
  injective : Function.Injective addr

/-- A number for each label. -/
def Label.index : Label → Nat
  | .lowExcept name => name.ctorIdx
  | .low irq => 16 + irq.val
  | .afterExcept name => 32 + name.ctorIdx
  | .afterDispatch => 48
  | .afterSetESP0 => 49
  | .afterGetESP0 => 50
  | .afterReenter => 51
  | .afterEnterV86 => 52

/-- And the label of a number. -/
def Label.ofIndex (n : Nat) : Label :=
  if n < 16 then .lowExcept (.ofNat n)
  else if n < 32 then .low (Fin.ofNat 16 (n - 16))
  else if n < 48 then .afterExcept (.ofNat (n - 32))
  else if n = 48 then .afterDispatch
  else if n = 49 then .afterSetESP0
  else if n = 50 then .afterGetESP0
  else if n = 51 then .afterReenter
  else .afterEnterV86

/-- The number of a stub determines the stub, so that the addresses the layout gives them can be
told apart by their numbers. -/
theorem Label.ofIndex_index (l : Label) : Label.ofIndex l.index = l := by
  cases l with
  | lowExcept name => cases name <;> rfl
  | low irq =>
    revert irq
    decide
  | afterExcept name => cases name <;> rfl
  | afterDispatch => rfl
  | afterSetESP0 => rfl
  | afterGetESP0 => rfl
  | afterReenter => rfl
  | afterEnterV86 => rfl

theorem Label.index_lt (l : Label) : l.index < 53 := by
  cases l with
  | lowExcept name => cases name <;> decide
  | low irq => exact Nat.lt_trans (Nat.add_lt_add_left irq.isLt 16) (by decide)
  | afterExcept name => cases name <;> decide
  | _ => decide

/-- A layout with sixteen bytes of code for each label. -/
def Layout.linked : Layout where
  addr l := 0xC0100000#32 + BitVec.ofNat 32 (16 * l.index)
  injective := by
    intro k l h
    have hk := k.index_lt
    have hl := l.index_lt
    have hindex : k.index = l.index := by bv_omega
    rw [← k.ofIndex_index, hindex, l.ofIndex_index]

/-- The static variables of the assembly files, and the flag of `V86.c`. -/
structure Statics where
  errorCode : DWORD
  theIRQ : DWORD
  supervisorCall : BOOL

abbrev Machine := Cpu Statics

/-- A machine in the kernel, with nothing in memory. -/
def Machine.idle : Machine where
  gpr r := if r = .esp then 0xC0080000 else 0
  seg s := if s = .cs then 0x08 else 0x10
  eip := 0xC0100000
  eflags := 0x202
  mem := fun _ => 0
  tss := ⟨0xC0090000, 0x10, 104⟩
  env := ⟨0, 0, 0⟩

/-! ## The interrupt descriptor table -/

/-- `INTERRUPT_DESCRIPTOR`. -/
structure INTERRUPT_DESCRIPTOR where
  offset15_0 : WORD
  selector : WORD
  zero : BYTE
  attr : BYTE
  offset16_31 : WORD
deriving DecidableEq, Repr

abbrev IDT := BYTE → INTERRUPT_DESCRIPTOR

/-- `_ia32_struct` has no initialiser for its IDT. -/
def IDT.zero : IDT := fun _ => ⟨0, 0, 0, 0, 0⟩

def GDT_KCODE : WORD := 1

def IDT_INT386 : BYTE := 0xE

def IRQ_BASE : BYTE := 0x20

/-- The descriptor `_SetIntVector` writes. -/
def descriptor (attr : BYTE) (address : PTR) : INTERRUPT_DESCRIPTOR where
  offset15_0 := (address &&& 0xFFFF#32).setWidth 16
  selector := GDT_KCODE <<< 3
  zero := 0
  attr := attr
  offset16_31 := (address >>> 16).setWidth 16

/-- `_SetIntVector`. -/
def setIntVector (vector attr : BYTE) (address : PTR) (idt : IDT) : IDT :=
  Function.update idt vector (descriptor attr address)

/-- `MkTrapGate`. Its type is the interrupt gate's. -/
def mkTrapGate (vector dpl : BYTE) (address : PTR) : IDT → IDT :=
  setIntVector vector (0x80 ||| dpl <<< 4 ||| IDT_INT386) address

/-- `MkIntrGate`. -/
def mkIntrGate (vector : BYTE) (address : PTR) : IDT → IDT :=
  setIntVector vector (0x80 ||| IDT_INT386) address

/-- The exceptions of the table are numbered from zero. -/
instance exceptName.neZero : NeZero 15 := ⟨by decide⟩

/-- The table `except`, one stub for each vector from zero. -/
def except : Vector ExceptName 15 :=
  #v[.divide0, .debug, .nmi, .breakpoint, .overflow, .boundRangeExceeded, .invalidOp, .devNotAvail,
    .doubleFault, .segOverrun, .invalidTSS, .segNotPresent, .stackSegFault, .generalProtect,
    .pageFault]

/-- `except[v]`. -/
def exceptName (v : Fin 15) : ExceptName := except[v]

/-- An exception's vector. -/
def exceptVector (v : Fin 15) : BYTE := BitVec.ofNat 8 v.val

/-- `FillIDT`. All sixteen interrupt gates are made for the one vector `IRQ_BASE`. -/
def fillIDT (layout : Layout) (idt : IDT) : IDT :=
  let idt := (List.finRange 15).foldl
    (fun t v => mkTrapGate (exceptVector v) 0 (layout.addr (.lowExcept (exceptName v))) t) idt
  (List.finRange 16).foldl
    (fun t irq => mkIntrGate IRQ_BASE (layout.addr (.low irq)) t) idt

/-- A descriptor as the processor reads it: present, and of one of the two 386 gate types. -/
def gateOf (d : INTERRUPT_DESCRIPTOR) : Option Gate :=
  if d.attr.getLsbD 7 = true ∧ d.attr &&& 0x1E#8 = 0x0E#8 then
    some ⟨d.selector, d.offset16_31 ++ d.offset15_0, !d.attr.getLsbD 0⟩
  else none

/-- The labels that the IDT can point at. -/
def stubs : List Label :=
  (List.finRange 15).map (fun v => .lowExcept (exceptName v)) ++ (List.finRange 16).map .low

/-- The stub an address is the entry of. -/
def Layout.stubAt (layout : Layout) (address : PTR) : Option Label :=
  stubs.find? fun l => layout.addr l = address

/-- The processor takes a vector: the stub it comes to, and the machine there. Without a present
gate it does not come to one. -/
def deliverVector (layout : Layout) (idt : IDT) (vector : BYTE) (err : Option DWORD) (m : Machine) :
    Option (Label × Machine) := do
  let gate ← gateOf (idt vector)
  let label ← layout.stubAt gate.offset
  return (label, m.deliver gate err)

/-- `PIC_Remap`. -/
def picRemap : KernelM Unit := do
  let icw1 : BYTE := 1#8 <<< 4 ||| 1
  picOutb 0x20#16 icw1
  picOutb 0xA0#16 icw1
  picOutb 0x21#16 IRQ_BASE
  picOutb 0xA1#16 (IRQ_BASE + 8)
  picOutb 0x21#16 4
  picOutb 0xA1#16 2
  picOutb 0x21#16 1
  picOutb 0xA1#16 (1 ||| 1#8 <<< 3)

/-- The controllers' part of `InitIA32`: after `PIC_Remap`, reads of the command ports answer the
in-service registers. -/
def initPics : KernelM Unit := do
  picRemap
  picOutb 0x20#16 0xB
  picOutb 0xA0#16 0xB

/-- `SetESP0`, whose argument comes in EAX. -/
def setESP0 (m : Machine) : Machine := { m with tss := { m.tss with esp0 := m.gpr .eax } }

/-- `GetESP0`. -/
def getESP0 (m : Machine) : Machine := m.set .eax m.tss.esp0

/-! ## What the table holds -/

/-- An offset of 32 bits survives being stored in its two halves. -/
theorem offset_halves (a : PTR) :
    (a >>> 16).setWidth 16 ++ (a &&& 0xFFFF#32).setWidth 16 = a := by
  apply BitVec.eq_of_getLsbD_eq
  intro i hi
  have hlow : (0xFFFF#32).getLsbD i = decide (i < 16) := by
    revert i
    decide
  rw [BitVec.getLsbD_append, BitVec.getLsbD_setWidth, BitVec.getLsbD_and, hlow]
  by_cases h : i < 16
  · simp [h]
  · have hi' : 16 + (i - 16) = i := by omega
    have h16 : i - 16 < 16 := by omega
    simp [h, h16, hi']

/-- The attributes of both macros make a present gate of ring 0, in the segment of the kernel's
code. -/
theorem gateOf_descriptor (address : PTR) :
    gateOf (descriptor 0x8E#8 address) = some ⟨8#16, address, true⟩ := by
  unfold gateOf descriptor
  dsimp only
  rw [if_pos (by decide), offset_halves]
  rfl

/-- No two exceptions share a vector. -/
theorem exceptVector_injective : Function.Injective exceptVector := by
  intro v w h
  revert v w
  decide

/-- No exception has the vector of an IRQ, so that the two loops that fill the IDT do not undo each
other. -/
theorem exceptVector_ne (v : Fin 15) (irq : Irq) :
    exceptVector v ≠ IRQ_BASE + BitVec.ofNat 8 irq.val := by
  revert v irq
  decide

section FillIDT

variable (layout : Layout) (idt : IDT)

/-- The two loops of `FillIDT`, as fills of the table. The one for the lines has the same vector in
each of its rounds. -/
theorem fillIDT_eq : fillIDT layout idt =
    fill (fun _ => IRQ_BASE) (fun irq => descriptor 0x8E#8 (layout.addr (.low irq)))
      (List.finRange 16)
      (fill exceptVector (fun v => descriptor 0x8E#8 (layout.addr (.lowExcept (exceptName v))))
        (List.finRange 15) idt) := rfl

/-- The gate of an exception leads to its stub and is an interrupt gate of ring 0. -/
theorem fillIDT_except (v : Fin 15) : fillIDT layout idt (exceptVector v) =
    descriptor 0x8E#8 (layout.addr (.lowExcept (exceptName v))) := by
  have hne : IRQ_BASE ≠ exceptVector v := by
    revert v
    decide
  rw [fillIDT_eq, fill_of_ne _ _ fun _ _ => hne]
  exact fill_of_mem _ _ exceptVector_injective (List.mem_finRange v) idt

/-- The vector `IRQ_BASE` is left with the last of the sixteen stubs. -/
theorem fillIDT_irqBase : fillIDT layout idt IRQ_BASE =
    descriptor 0x8E#8 (layout.addr (.low 15)) := by
  rw [fillIDT_eq, List.finRange_succ_last]
  exact fill_last (fun _ : Irq => IRQ_BASE) _ _ _ _

/-- The vectors of the lines but the first are left as they were found, which in the static table is
zero. -/
theorem fillIDT_irq {irq : Irq} (hirq : irq ≠ 0) :
    fillIDT layout idt (IRQ_BASE + BitVec.ofNat 8 irq.val) =
      idt (IRQ_BASE + BitVec.ofNat 8 irq.val) := by
  have hne : IRQ_BASE ≠ IRQ_BASE + BitVec.ofNat 8 irq.val := by
    revert irq
    decide
  rw [fillIDT_eq, fill_of_ne _ _ fun _ _ => hne,
    fill_of_ne _ _ fun v _ => exceptVector_ne v irq]

end FillIDT

/-- A stub is found at its own address, since no two labels share one. -/
theorem Layout.stubAt_addr (layout : Layout) {l : Label} (hl : l ∈ stubs) :
    layout.stubAt (layout.addr l) = some l := by
  have hsome : (layout.stubAt (layout.addr l)).isSome = true :=
    List.find?_isSome.mpr ⟨l, hl, decide_eq_true rfl⟩
  obtain ⟨l', hl'⟩ := Option.isSome_iff_exists.mp hsome
  have hfound : decide (layout.addr l' = layout.addr l) = true :=
    List.find?_some (p := fun k => decide (layout.addr k = layout.addr l)) hl'
  have haddr : layout.addr l' = layout.addr l := of_decide_eq_true hfound
  rw [hl', layout.injective haddr]

/-- The stubs of exceptions are among the labels that an address of the IDT is looked up in. -/
theorem lowExcept_mem_stubs (v : Fin 15) : Label.lowExcept (exceptName v) ∈ stubs :=
  List.mem_append_left _ (List.mem_map.mpr ⟨v, List.mem_finRange v, rfl⟩)

/-- So are those of IRQs. -/
theorem low_mem_stubs (irq : Irq) : Label.low irq ∈ stubs :=
  List.mem_append_right _ (List.mem_map.mpr ⟨irq, List.mem_finRange irq, rfl⟩)

/-- The gate of a stub, as both macros make it. -/
def Layout.gate (layout : Layout) (l : Label) : Gate := ⟨8#16, layout.addr l, true⟩

/-- A vector whose descriptor is that of a stub comes to the stub, with the frame the processor
pushes for it. -/
theorem deliverVector_of_descriptor {layout : Layout} {idt : IDT} {vector : BYTE} {l : Label}
    (hl : l ∈ stubs) (hd : idt vector = descriptor 0x8E#8 (layout.addr l)) (err : Option DWORD)
    (m : Machine) :
    deliverVector layout idt vector err m = some (l, m.deliver (layout.gate l) err) := by
  unfold deliverVector
  rw [hd, gateOf_descriptor, Option.bind_eq_bind, Option.bind_some, layout.stubAt_addr hl]
  rfl

/-! ## What the controllers hold -/

/-- The controllers as `PIC_Remap` leaves them. -/
def remappedPics (p : PicPair) : PicPair :=
  ⟨p.master.initialised IRQ_BASE 4 1, p.slave.initialised (IRQ_BASE + 8) 2 9⟩

/-- The remapping always comes to its end, with both chips initialised anew whatever their state
was. -/
theorem picRemap_run (s : System) :
    ∃ s', picRemap.run s = some ((), s') ∧ s'.pics = remappedPics s.pics := by
  refine ⟨_, by simp only [picRemap, StateT.run_bind, picOutb_run, Option.bind_eq_bind,
    Option.bind_some]; rfl, ?_⟩
  have hmaster := s.pics.master.initialise IRQ_BASE 4 1
  have hslave := s.pics.slave.initialise (IRQ_BASE + 8) 2 9
  simp only [PicPair.write]
  exact congrArg₂ PicPair.mk hmaster hslave

/-- After the remapping, the vector that a controller answers for a line is the number of the line
above `IRQ_BASE`. -/
theorem vector_remappedPics (p : PicPair) (irq : Irq) :
    (remappedPics p).vector irq = IRQ_BASE + BitVec.ofNat 8 irq.val := by
  have hbits : ∀ irq : Irq, (if irq.val < 8 then
      (IRQ_BASE &&& 0xF8#8) ||| BitVec.ofNat 8 irq.val
      else (IRQ_BASE + 8 &&& 0xF8#8) ||| BitVec.ofNat 8 (irq.val - 8)) =
        IRQ_BASE + BitVec.ofNat 8 irq.val := by decide
  rw [← hbits irq]
  unfold PicPair.vector
  split <;> rfl

/-- After `InitIA32` the controllers answer reads with their in-service registers, as the dispatcher
expects of them. -/
theorem initPics_run (s : System) :
    ∃ s', initPics.run s = some ((), s') ∧
      s'.pics.master = { (remappedPics s.pics).master with readInService := true } ∧
        s'.pics.slave = { (remappedPics s.pics).slave with readInService := true } := by
  obtain ⟨s₁, hrun, hpics⟩ := picRemap_run s
  refine ⟨_, by simp only [initPics, StateT.run_bind, hrun, picOutb_run, Option.bind_eq_bind,
    Option.bind_some]; rfl, ?_, ?_⟩
  · simp only [PicPair.write, hpics]
    rfl
  · simp only [PicPair.write, hpics]
    rfl

end OS90.Kernel
