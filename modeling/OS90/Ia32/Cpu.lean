import Mathlib.Logic.Function.Basic
import OS90.Ia32.Bytes

/-!
# The processor's programmer-visible state

General registers, selectors, EIP, EFLAGS, memory, and the three fields of the task state segment
that matter to an interrupt. `env` is whatever else a development wants to keep beside the
processor. Segments are flat: a selector is a value to save and restore, and nothing is looked up
in a descriptor table. Of the arithmetic flags only the zero flag is ever set.

The stack is seen through `stack`, the dwords above ESP counted from the top, so that the rules say
what an instruction does to the frames a routine has built and not to addresses. They hold for the
2^28 dwords nearest the top: far past them the address space wraps around.
-/

namespace OS90.Ia32

inductive Reg where
  | eax
  | ebx
  | ecx
  | edx
  | esi
  | edi
  | ebp
  | esp
deriving DecidableEq, Repr

inductive Seg where
  | cs
  | ss
  | ds
  | es
  | fs
  | gs
deriving DecidableEq, Repr

abbrev Selector := BitVec 16

/-- The fields of the task state segment that a kernel writes. -/
structure Tss where
  esp0 : Word
  ss0 : Selector
  /-- The offset of the I/O permission bitmap. -/
  iobpOff : BitVec 16
deriving DecidableEq, Repr

structure Cpu (σ : Type) where
  gpr : Reg → Word
  seg : Seg → Selector
  eip : Word
  eflags : Word
  mem : Mem
  tss : Tss
  env : σ

namespace Cpu

variable {σ : Type}

/-! ## Flags -/

/-- Virtual-8086 mode. -/
def vm (eflags : Word) : Bool := eflags.getLsbD 17

def zf (eflags : Word) : Bool := eflags.getLsbD 6

/-- EFLAGS with one flag set to a value. -/
def withFlag (eflags : Word) (bit : Nat) (v : Bool) : Word :=
  if v then eflags ||| 1#32 <<< bit else eflags &&& ~~~(1#32 <<< bit)

/-- The privilege level: 3 in V86 mode, else that of the code selector. -/
def cpl (c : Cpu σ) : BitVec 16 := if vm c.eflags then 3 else c.seg .cs &&& 3

/-! ## Instructions -/

def set (r : Reg) (v : Word) (c : Cpu σ) : Cpu σ := { c with gpr := Function.update c.gpr r v }

def setSeg (s : Seg) (v : Selector) (c : Cpu σ) : Cpu σ :=
  { c with seg := Function.update c.seg s v }

def push (v : Word) (c : Cpu σ) : Cpu σ :=
  { c with
    gpr := Function.update c.gpr .esp (c.gpr .esp - 4#32)
    mem := c.mem.write32 (c.gpr .esp - 4#32) v }

def pushReg (r : Reg) (c : Cpu σ) : Cpu σ := c.push (c.gpr r)

def pushSeg (s : Seg) (c : Cpu σ) : Cpu σ := c.push ((c.seg s).setWidth 32)

def pushf (c : Cpu σ) : Cpu σ := c.push c.eflags

/-- `add esp, 4 * n`. -/
def drop (n : Nat) (c : Cpu σ) : Cpu σ := c.set .esp (c.gpr .esp + BitVec.ofNat 32 (4 * n))

/-- The dword `i` places above the top of the stack. -/
def stack (c : Cpu σ) (i : Nat) : Word := c.mem.read32 (c.gpr .esp + BitVec.ofNat 32 (4 * i))

def pop (r : Reg) (c : Cpu σ) : Cpu σ := (c.drop 1).set r (c.stack 0)

/-- `mov [a], v`. -/
def store (a v : Word) (c : Cpu σ) : Cpu σ := { c with mem := c.mem.write32 a v }

/-- `mov r, [a]`. -/
def load (r : Reg) (a : Word) (c : Cpu σ) : Cpu σ := c.set r (c.mem.read32 a)

/-- `mov word [a], v`. -/
def store16 (a : Word) (v : BitVec 16) (c : Cpu σ) : Cpu σ := { c with mem := c.mem.write16 a v }

/-- `mov byte [a], v`. -/
def store8 (a : Word) (v : BitVec 8) (c : Cpu σ) : Cpu σ := { c with mem := c.mem.write8 a v }

/-- `movzx r, word [a]`. -/
def load16 (r : Reg) (a : Word) (c : Cpu σ) : Cpu σ := c.set r ((c.mem.read16 a).setWidth 32)

/-- `movzx r, byte [a]`. -/
def load8 (r : Reg) (a : Word) (c : Cpu σ) : Cpu σ := c.set r ((c.mem a).setWidth 32)

/-- `test v, mask`. -/
def test (v mask : Word) (c : Cpu σ) : Cpu σ :=
  { c with eflags := withFlag c.eflags 6 (v &&& mask = 0) }

/-- `call` a routine, whose return address is `ret`, and its `ret` at the end. -/
def call (ret : Word) (routine : Cpu σ → Cpu σ) (c : Cpu σ) : Cpu σ :=
  (routine (c.push ret)).drop 1

/-- The `ret` at the end of a routine, seen from the routine. -/
def ret (c : Cpu σ) : Cpu σ := { c.drop 1 with eip := c.stack 0 }

/-- `push v`, with a 16-bit operand. -/
def pushWord (v : BitVec 16) (c : Cpu σ) : Cpu σ :=
  c.set .esp (c.gpr .esp - 2#32) |>.store16 (c.gpr .esp - 2#32) v

/-! ## What an instruction does to registers -/

section Registers

variable (c : Cpu σ) (r q : Reg) (s t : Seg) (a v : Word) (n : Nat)

@[simp] theorem set_gpr : (c.set r v).gpr q = if q = r then v else c.gpr q :=
  Function.update_apply c.gpr r v q

@[simp] theorem set_seg : (c.set r v).seg = c.seg := rfl

@[simp] theorem set_eip : (c.set r v).eip = c.eip := rfl

@[simp] theorem set_eflags : (c.set r v).eflags = c.eflags := rfl

@[simp] theorem set_mem : (c.set r v).mem = c.mem := rfl

@[simp] theorem set_tss : (c.set r v).tss = c.tss := rfl

@[simp] theorem set_env : (c.set r v).env = c.env := rfl

@[simp] theorem setSeg_seg (w : Selector) :
    (c.setSeg s w).seg t = if t = s then w else c.seg t :=
  Function.update_apply c.seg s w t

@[simp] theorem setSeg_gpr (w : Selector) : (c.setSeg s w).gpr = c.gpr := rfl

@[simp] theorem setSeg_eip (w : Selector) : (c.setSeg s w).eip = c.eip := rfl

@[simp] theorem setSeg_eflags (w : Selector) : (c.setSeg s w).eflags = c.eflags := rfl

@[simp] theorem setSeg_mem (w : Selector) : (c.setSeg s w).mem = c.mem := rfl

@[simp] theorem setSeg_tss (w : Selector) : (c.setSeg s w).tss = c.tss := rfl

@[simp] theorem setSeg_env (w : Selector) : (c.setSeg s w).env = c.env := rfl

@[simp] theorem push_gpr :
    (c.push v).gpr q = if q = .esp then c.gpr .esp - 4#32 else c.gpr q :=
  Function.update_apply c.gpr .esp _ q

@[simp] theorem push_seg : (c.push v).seg = c.seg := rfl

@[simp] theorem push_eip : (c.push v).eip = c.eip := rfl

@[simp] theorem push_eflags : (c.push v).eflags = c.eflags := rfl

@[simp] theorem push_tss : (c.push v).tss = c.tss := rfl

@[simp] theorem push_env : (c.push v).env = c.env := rfl

/-- A push stores below the stack pointer. -/
theorem push_mem : (c.push v).mem = c.mem.write32 (c.gpr .esp - 4#32) v := rfl

@[simp] theorem store_gpr : (c.store a v).gpr = c.gpr := rfl

@[simp] theorem store_seg : (c.store a v).seg = c.seg := rfl

@[simp] theorem store_eip : (c.store a v).eip = c.eip := rfl

@[simp] theorem store_eflags : (c.store a v).eflags = c.eflags := rfl

@[simp] theorem store_tss : (c.store a v).tss = c.tss := rfl

@[simp] theorem store_env : (c.store a v).env = c.env := rfl

theorem store_mem : (c.store a v).mem = c.mem.write32 a v := rfl

@[simp] theorem store16_gpr (w : BitVec 16) : (c.store16 a w).gpr = c.gpr := rfl

theorem store16_mem (w : BitVec 16) : (c.store16 a w).mem = c.mem.write16 a w := rfl

@[simp] theorem store8_gpr (b : BitVec 8) : (c.store8 a b).gpr = c.gpr := rfl

theorem store8_mem (b : BitVec 8) : (c.store8 a b).mem = c.mem.write8 a b := rfl

@[simp] theorem load_gpr :
    (c.load r a).gpr q = if q = r then c.mem.read32 a else c.gpr q := set_gpr _ _ _ _

@[simp] theorem load_mem : (c.load r a).mem = c.mem := rfl

@[simp] theorem load16_gpr :
    (c.load16 r a).gpr q = if q = r then (c.mem.read16 a).setWidth 32 else c.gpr q :=
  set_gpr _ _ _ _

@[simp] theorem load16_mem : (c.load16 r a).mem = c.mem := rfl

@[simp] theorem load8_gpr :
    (c.load8 r a).gpr q = if q = r then (c.mem a).setWidth 32 else c.gpr q := set_gpr _ _ _ _

@[simp] theorem load8_mem : (c.load8 r a).mem = c.mem := rfl

@[simp] theorem test_gpr : (c.test a v).gpr = c.gpr := rfl

@[simp] theorem test_seg : (c.test a v).seg = c.seg := rfl

@[simp] theorem test_eip : (c.test a v).eip = c.eip := rfl

@[simp] theorem test_mem : (c.test a v).mem = c.mem := rfl

@[simp] theorem test_tss : (c.test a v).tss = c.tss := rfl

@[simp] theorem test_env : (c.test a v).env = c.env := rfl

/-- `test` sets the zero flag when the operands have no bit in common. -/
theorem test_zf : zf (c.test a v).eflags = decide (a &&& v = 0) := by
  unfold test zf withFlag
  cases decide (a &&& v = 0) <;> simp

@[simp] theorem drop_mem : (c.drop n).mem = c.mem := rfl

@[simp] theorem drop_seg : (c.drop n).seg = c.seg := rfl

/-- To drop `n` words from the stack moves the stack pointer up by four bytes for each. -/
theorem drop_esp : (c.drop n).gpr .esp = c.gpr .esp + BitVec.ofNat 32 (4 * n) := by
  simp [drop]

theorem drop_of_ne (hq : q ≠ .esp) : (c.drop n).gpr q = c.gpr q := by
  simp [drop, hq]

@[simp] theorem pop_seg : (c.pop r).seg = c.seg := rfl

@[simp] theorem pop_mem : (c.pop r).mem = c.mem := rfl

/-- The register that is popped gets the word at the top. -/
theorem pop_self : (c.pop r).gpr r = c.stack 0 := by
  simp [pop]

theorem pop_esp (hr : r ≠ .esp) : (c.pop r).gpr .esp = c.gpr .esp + 4#32 := by
  simp [pop, drop, Ne.symm hr]

theorem pop_of_ne (hr : q ≠ r) (hq : q ≠ .esp) : (c.pop r).gpr q = c.gpr q := by
  simp [pop, drop, hr, hq]

/-- A call pushes the return address, runs the routine, and keeps what that has stored. -/
theorem call_mem (routine : Cpu σ → Cpu σ) :
    (c.call v routine).mem = (routine (c.push v)).mem := rfl

theorem ret_esp : c.ret.gpr .esp = c.gpr .esp + 4#32 := drop_esp c 1

theorem ret_of_ne (hq : q ≠ .esp) : c.ret.gpr q = c.gpr q := drop_of_ne c q 1 hq

theorem pushWord_esp (w : BitVec 16) : (c.pushWord w).gpr .esp = c.gpr .esp - 2#32 := by
  simp [pushWord]

theorem pushWord_of_ne (w : BitVec 16) (hq : q ≠ .esp) : (c.pushWord w).gpr q = c.gpr q := by
  simp [pushWord, hq]

theorem pushWord_mem (w : BitVec 16) :
    (c.pushWord w).mem = c.mem.write16 (c.gpr .esp - 2#32) w := rfl

end Registers

/-! ## What an instruction does to the stack -/

section Stack

variable (c : Cpu σ) (v : Word) {i j : Nat}

/-- Places of the stack are dwords apart, and do not meet again below 2^28 of them. -/
theorem stack_distance (a : Word) (hi : i < 2 ^ 29) (hj : j < 2 ^ 29) (hij : i ≠ j) :
    4 ≤ (a + BitVec.ofNat 32 (4 * i) - (a + BitVec.ofNat 32 (4 * j))).toNat ∧
      (a + BitVec.ofNat 32 (4 * i) - (a + BitVec.ofNat 32 (4 * j))).toNat + 4 ≤ 2 ^ 32 := by
  have hcancel : a + BitVec.ofNat 32 (4 * i) - (a + BitVec.ofNat 32 (4 * j)) =
      BitVec.ofNat 32 (4 * i) - BitVec.ofNat 32 (4 * j) := by bv_omega
  rw [hcancel]
  simp only [BitVec.toNat_sub, BitVec.toNat_ofNat]
  omega

/-- A write to one place of the stack leaves the others, by their places. -/
theorem stack_write (a : Word) (m : Mem) (hi : i < 2 ^ 29) (hj : j < 2 ^ 29) :
    (m.write32 (a + BitVec.ofNat 32 (4 * j)) v).read32 (a + BitVec.ofNat 32 (4 * i)) =
      if i = j then v else m.read32 (a + BitVec.ofNat 32 (4 * i)) := by
  by_cases hij : i = j
  · subst hij
    rw [if_pos rfl, Mem.read32_write32_same]
  · have hdist := stack_distance a hi hj hij
    rw [if_neg hij, Mem.read32_write32_apart m v hdist.1 hdist.2]

@[simp] theorem stack_push_zero : (c.push v).stack 0 = v := by
  simp [stack, push]

/-- A push moves each word of the stack one place down. The bound on the place keeps the stack from
reaching round the address space. -/
theorem stack_push_succ (hi : i < 2 ^ 28) : (c.push v).stack (i + 1) = c.stack i := by
  have hbase : c.gpr .esp + BitVec.ofNat 32 (4 * i) =
      c.gpr .esp - 4#32 + BitVec.ofNat 32 (4 * (i + 1)) := by
    rw [Nat.mul_add, BitVec.ofNat_add]
    bv_omega
  have hwrite := stack_write v (c.gpr .esp - 4#32) c.mem (i := i + 1) (j := 0) (by omega)
    (by decide)
  rw [if_neg (by omega)] at hwrite
  simp only [Nat.mul_zero, BitVec.add_zero] at hwrite
  unfold stack
  rw [hbase, push_mem, push_gpr, if_pos rfl]
  exact hwrite

/-- What is on the stack depends on memory and ESP only. -/
theorem stack_congr {c d : Cpu σ} (hmem : d.mem = c.mem) (hesp : d.gpr .esp = c.gpr .esp)
    (i : Nat) : d.stack i = c.stack i := by
  unfold stack
  rw [hmem, hesp]

/-- The words that stay after a drop are those above the dropped ones. -/
theorem stack_drop (n i : Nat) : (c.drop n).stack i = c.stack (n + i) := by
  unfold stack drop
  rw [set_mem, set_gpr, if_pos rfl, Nat.mul_add, BitVec.ofNat_add, BitVec.add_assoc]

/-- The stack is memory seen from ESP, and other registers do not matter to it. -/
theorem stack_set_of_ne {r : Reg} (hr : r ≠ .esp) (i : Nat) : (c.set r v).stack i = c.stack i := by
  have hesp : (c.set r v).gpr .esp = c.gpr .esp := by
    rw [set_gpr, if_neg (Ne.symm hr)]
  exact stack_congr (set_mem c r v) hesp i

theorem stack_load_of_ne {r : Reg} (hr : r ≠ .esp) (a : Word) (i : Nat) :
    (c.load r a).stack i = c.stack i := stack_set_of_ne c _ hr i

/-- After a pop the stack begins a word higher. -/
theorem stack_pop {r : Reg} (hr : r ≠ .esp) (i : Nat) : (c.pop r).stack i = c.stack (1 + i) := by
  unfold pop
  rw [stack_set_of_ne _ _ hr, stack_drop]

/-- A store to a place of the stack is seen at that place only. -/
theorem stack_store (hi : i < 2 ^ 28) (hj : j < 2 ^ 28) :
    (c.store (c.gpr .esp + BitVec.ofNat 32 (4 * j)) v).stack i =
      if i = j then v else c.stack i :=
  stack_write v (c.gpr .esp) c.mem (by omega) (by omega)

theorem stack_store_top : (c.store (c.gpr .esp) v).stack 0 = v := by
  simp [stack, store]

theorem stack_store_top_succ (hi : i + 1 < 2 ^ 28) :
    (c.store (c.gpr .esp) v).stack (i + 1) = c.stack (i + 1) := by
  have hstore := stack_store c v (i := i + 1) (j := 0) hi (by decide)
  rw [if_neg (Nat.succ_ne_zero i), Nat.mul_zero, BitVec.add_zero] at hstore
  exact hstore

/-- A call of a routine that writes no memory and gives ESP back leaves the stack. -/
theorem stack_call (ret : Word) {routine : Cpu σ → Cpu σ}
    (hmem : (routine (c.push ret)).mem = (c.push ret).mem)
    (hesp : (routine (c.push ret)).gpr .esp = (c.push ret).gpr .esp) (hi : i < 2 ^ 28) :
    (c.call ret routine).stack i = c.stack i := by
  unfold call
  rw [stack_drop, stack_congr hmem hesp, Nat.add_comm, stack_push_succ _ _ hi]

end Stack

/-! ## Routines that push -/

/-- `d` is `c` with `n` more dwords on its stack, and memory as it was but for them. -/
structure Pushed (n : Nat) (c d : Cpu σ) : Prop where
  esp : d.gpr .esp = c.gpr .esp - BitVec.ofNat 32 (4 * n)
  mem : Mem.Within (d.gpr .esp) (4 * n) c.mem d.mem

namespace Pushed

variable {n : Nat} {c d e : Cpu σ}

/-- Nothing pushed. -/
theorem refl (c : Cpu σ) : Pushed 0 c c := ⟨(BitVec.sub_zero _).symm, Mem.Within.refl _ _ _⟩

/-- One push more. The stack pointer may wrap, and the range of the memory that has changed wraps
with it. -/
theorem push (h : Pushed n c d) (v : Word) : Pushed (n + 1) c (d.push v) := by
  have hesp : (d.push v).gpr .esp = d.gpr .esp - 4#32 := by
    rw [push_gpr, if_pos rfl]
  refine ⟨?_, ?_⟩
  · rw [hesp, h.esp, Nat.mul_add, BitVec.ofNat_add]
    bv_omega
  · rw [hesp, push_mem]
    refine (h.mem.mono ?_).trans ((Mem.write32_within _ _ v).mono ?_)
    · have hdist : d.gpr .esp - (d.gpr .esp - 4#32) = 4#32 := by bv_omega
      rw [hdist]
      show 4 + 4 * n ≤ 4 * (n + 1)
      omega
    · rw [BitVec.sub_self]
      show 0 + 4 ≤ 4 * (n + 1)
      omega

/-- To overwrite the dword on top leaves as many pushed as before. -/
theorem store_top (h : Pushed (n + 1) c d) (v : Word) :
    Pushed (n + 1) c (d.store (d.gpr .esp) v) := by
  refine ⟨h.esp, h.mem.trans ((Mem.write32_within _ _ v).mono ?_)⟩
  rw [BitVec.sub_self]
  show 0 + 4 ≤ 4 * (n + 1)
  omega

/-- Other registers, the flags and the selectors are of no account for what is pushed. -/
theorem congr (h : Pushed n c d) (hesp : e.gpr .esp = d.gpr .esp) (hmem : e.mem = d.mem) :
    Pushed n c e := by
  refine ⟨hesp.trans h.esp, ?_⟩
  rw [hesp, hmem]
  exact h.mem

end Pushed

end Cpu

end OS90.Ia32
