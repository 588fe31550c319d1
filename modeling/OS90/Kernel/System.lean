import Mathlib.Data.Fintype.Basic
import OS90.Device.Pic8259
import OS90.Kernel.Type

/-!
# Kernel state shared by the PnP manager and the scheduler

The interrupt table of `PnP_Mgr.c`, the interrupt flag, the two interrupt controllers and the mode
variable of `Scheduler.c`, with the port and critical-section primitives of `Platform/8259.h`,
`Platform/IO.h` and `Atomic.h`. A kernel function is a `KernelM` computation: it changes the state
and answers, or it stops with `none` where the C code would index an array out of its bounds or
shift a dword by more than its width.

Bytes written to ports are kept in `io`, in order, so that a law can count them.

The controllers are those of the device model. The poll command is not used by the kernel, and so an
input leaves their registers as they are.
-/

namespace OS90.Kernel

open OS90.Device

/-- `INTERRUPT_LEVEL`. Each level is two bits, so that all sixteen fit in a dword. -/
inductive INTERRUPT_LEVEL where
  | undefined
  | busFree
  | busInuse
  | recl16
deriving DecidableEq, Repr

instance : Fintype INTERRUPT_LEVEL where
  elems := {.undefined, .busFree, .busInuse, .recl16}
  complete lvl := by cases lvl <;> decide

/-- The value of an enumerator. -/
def INTERRUPT_LEVEL.val : INTERRUPT_LEVEL → DWORD
  | .undefined => 0
  | .busFree => 1
  | .busInuse => 2
  | .recl16 => 3

/-- A pointer to an interrupt handler. -/
abbrev FP_IRQ_HANDLR := PTR

abbrev PDRIVER_HEADER := PTR

/-- `INTERRUPTS`: the levels of all interrupts in one dword, and their handlers and owners. -/
structure INTERRUPTS where
  lvlBmp : DWORD
  handlers : Vector FP_IRQ_HANDLR 16
  owners : Vector PDRIVER_HEADER 16
deriving DecidableEq

/-- `static INTERRUPTS interrupts = { 0 }`. -/
def INTERRUPTS.zero : INTERRUPTS := ⟨0, Vector.replicate 16 0, Vector.replicate 16 0⟩

/-- The value `last_mode` takes. -/
inductive Mode where
  | kernel
  | interrupt
  | user
deriving DecidableEq, Repr

structure System where
  interrupts : INTERRUPTS
  intFlag : Bool
  pics : PicPair
  lastMode : Mode
  io : List (WORD × BYTE)
deriving DecidableEq

/-- The state at power-up: the static initialisers, interrupts off, and two controllers nobody
has programmed. -/
def System.powerUp : System where
  interrupts := .zero
  intFlag := false
  pics :=
    let chip : Pic8259 :=
      { phase := .ready, single := false, needsIcw4 := false, base := 0, icw3 := 0, icw4 := 0,
        request := 0, inService := 0, mask := 0, readInService := false }
    ⟨chip, chip⟩
  lastMode := .kernel
  io := []

abbrev KernelM := StateT System Option

/-! ## Primitives -/

def outb (port : WORD) (val : BYTE) : KernelM Unit :=
  modify fun s => { s with pics := s.pics.write port val, io := s.io ++ [(port, val)] }

def inb (port : WORD) : KernelM BYTE := do
  return (← get).pics.read port

/-- Output with delay: the second write goes to an unused port. -/
def picOutb (port : WORD) (val : BYTE) : KernelM Unit := do
  outb port val
  outb 0x80#16 0

def picInb (port : WORD) : KernelM BYTE := do
  outb 0x80#16 0
  inb port

def intsOn : KernelM Unit := modify fun s => { s with intFlag := true }

def intsOff : KernelM Unit := modify fun s => { s with intFlag := false }

/-- `EnterCriticalSecttion()`. -/
def enterCriticalSecttion : KernelM Unit := intsOff

def exitCriticalSection : KernelM Unit := intsOn

/-- `array[index] = value`. -/
def store {α : Type} {n : Nat} (array : Vector α n) (index : DWORD) (value : α) :
    KernelM (Vector α n) :=
  if h : index.toNat < n then pure (array.set index.toNat value) else failure

/-- `array[index]`. -/
def load {α : Type} {n : Nat} (array : Vector α n) (index : DWORD) : KernelM α :=
  if h : index.toNat < n then pure array[index.toNat] else failure

/-- The in-service registers of both controllers, the slave's in the high byte. -/
def inGetInService16 : KernelM WORD := do
  let inService : WORD := (← picInb 0x20#16).setWidth 16
  let slave : WORD := (← picInb 0xA0#16).setWidth 16
  return inService ||| slave <<< 8

/-! ## What the primitives do -/

section Primitives

variable (s : System) (port : WORD) (val : BYTE)

/-- An output is for the controller that the port belongs to. The write to port 80h after it is the
delay, and both are recorded. -/
theorem picOutb_run : (picOutb port val).run s =
    some ((), { s with
      pics := s.pics.write port val
      io := s.io ++ [(port, val), (0x80#16, 0)] }) := by
  simp [picOutb, outb, PicPair.write]

/-- An input reads the controller and changes none of its registers. The delay before it is
recorded. -/
theorem picInb_run : (picInb port).run s =
    some (s.pics.read port, { s with io := s.io ++ [(0x80#16, 0)] }) := by
  simp [picInb, inb, outb, PicPair.write]

/-- The in-service word as the kernel reads it. -/
def inService16 : WORD :=
  (s.pics.read 0x20#16).setWidth 16 ||| (s.pics.read 0xA0#16).setWidth 16 <<< 8

/-- The in-service registers are read by one input for each chip, and no command is sent. -/
theorem inGetInService16_run : inGetInService16.run s =
    some (inService16 s, { s with io := s.io ++ [(0x80#16, 0), (0x80#16, 0)] }) := by
  simp [inGetInService16, picInb_run, inService16]

end Primitives

/-- The low byte of a word that was put together from two bytes is the low one of the two. -/
theorem setWidth_or_shiftLeft_and (low high : BYTE) :
    (low.setWidth 16 ||| high.setWidth 16 <<< 8 : WORD) &&& 0xFF#16 = low.setWidth 16 := by
  apply BitVec.eq_of_getLsbD_eq
  intro i hi
  have hff : (0xFF#16).getLsbD i = decide (i < 8) := by
    revert i
    decide
  rw [BitVec.getLsbD_and, hff]
  by_cases h : i < 8
  · simp [h, hi]
  · simp [h, low.getLsbD_of_ge i (by omega)]

/-- Its high byte is the other. -/
theorem setWidth_or_shiftLeft_ushiftRight (low high : BYTE) :
    (low.setWidth 16 ||| high.setWidth 16 <<< 8 : WORD) >>> 8 = high.setWidth 16 := by
  apply BitVec.eq_of_getLsbD_eq
  intro i hi
  by_cases h : 8 + i < 16
  · simp [h, hi, show ¬ 8 + i < 8 by omega]
  · simp [high.getLsbD_of_ge i (by omega)]

end OS90.Kernel
