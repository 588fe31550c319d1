import OS90.Ia32.Cpu

/-!
# Real mode

The processor before it leaves real mode: sixteen-bit registers are the low halves of the general
registers, an address is a segment and an offset, and A20 is on, so that segment FFFFh reaches past
the first megabyte. The stack is at SS:SP. String instructions go up or down by the direction flag.

A register of sixteen bits is written with the upper half of the general register kept, and flags
are set by the instructions that the program's branches look at. `pusha` and `popa` are a list of
pushes and pops; what they do to the stack is proved of any list (`pushWords`), so that no proof has
to unfold eight of them.

What is left out is what the boot program does not use: segment limits below 64 KiB, single
stepping, and the instructions that need a mode it is not in.
-/

namespace OS90.Ia32

/-- The address of `seg:off`. -/
def linear (seg : Selector) (off : BitVec 16) : Word := seg.setWidth 32 * 16#32 + off.setWidth 32

/-- An address by its segment and offset is so many bytes from where the segment begins. -/
theorem linear_eq (seg : Selector) {off : BitVec 16} {k : Nat} (hoff : off.toNat = k) :
    linear seg off = linear seg 0#16 + BitVec.ofNat 32 k := by
  have hwidth : off.setWidth 32 = BitVec.ofNat 32 k := by
    apply BitVec.eq_of_toNat_eq
    have hlt := off.isLt
    rw [BitVec.toNat_setWidth, BitVec.toNat_ofNat, hoff]
  unfold linear
  rw [hwidth, BitVec.setWidth_zero, BitVec.add_zero]

/-- An offset below 64 KiB counts from the base of its segment without wrapping. -/
theorem linear_ofNat (seg : Selector) {k : Nat} (hk : k < 2 ^ 16) :
    linear seg (BitVec.ofNat 16 k) = linear seg 0#16 + BitVec.ofNat 32 k := by
  refine linear_eq seg ?_
  rw [BitVec.toNat_ofNat]
  omega

/-- The base of a segment is its selector times sixteen. -/
theorem linear_zero_toNat (seg : Selector) : (linear seg 0#16).toNat = 16 * seg.toNat := by
  have hlt := seg.isLt
  unfold linear
  rw [BitVec.setWidth_zero, BitVec.add_zero, BitVec.toNat_mul, BitVec.toNat_setWidth,
    BitVec.toNat_ofNat]
  omega

namespace Cpu

variable {σ : Type}

/-! ## Sixteen-bit registers -/

def reg16 (c : Cpu σ) (r : Reg) : BitVec 16 := (c.gpr r).setWidth 16

/-- AH, for EAX. -/
def high8 (c : Cpu σ) (r : Reg) : BitVec 8 := (c.gpr r).extractLsb' 8 8

/-- AL, for EAX. -/
def low8 (c : Cpu σ) (r : Reg) : BitVec 8 := (c.gpr r).setWidth 8

def set16 (r : Reg) (v : BitVec 16) (c : Cpu σ) : Cpu σ :=
  c.set r ((c.gpr r).extractLsb' 16 16 ++ v)

def setHigh8 (r : Reg) (v : BitVec 8) (c : Cpu σ) : Cpu σ := c.set16 r (v ++ c.low8 r)

def setLow8 (r : Reg) (v : BitVec 8) (c : Cpu σ) : Cpu σ := c.set16 r (c.high8 r ++ v)

/-! ## Flags -/

def carry (c : Cpu σ) : Bool := c.eflags.getLsbD 0

def setCarry (v : Bool) (c : Cpu σ) : Cpu σ := { c with eflags := withFlag c.eflags 0 v }

/-- The direction flag. -/
def df (c : Cpu σ) : Bool := c.eflags.getLsbD 10

/-- `cld` and `std`. -/
def setDf (v : Bool) (c : Cpu σ) : Cpu σ := { c with eflags := withFlag c.eflags 10 v }

/-! ## Arithmetic

Of the flags only carry is ever read. -/

/-- The carry as a number. -/
def carryIn (c : Cpu σ) : BitVec 16 := if c.carry then 1#16 else 0#16

def add16 (r : Reg) (v : BitVec 16) (c : Cpu σ) : Cpu σ :=
  c.set16 r (c.reg16 r + v) |>.setCarry (decide (2 ^ 16 ≤ (c.reg16 r).toNat + v.toNat))

def adc16 (r : Reg) (v : BitVec 16) (c : Cpu σ) : Cpu σ :=
  c.set16 r (c.reg16 r + v + c.carryIn)
    |>.setCarry (decide (2 ^ 16 ≤ (c.reg16 r).toNat + v.toNat + c.carryIn.toNat))

def sub16 (r : Reg) (v : BitVec 16) (c : Cpu σ) : Cpu σ :=
  c.set16 r (c.reg16 r - v) |>.setCarry (decide ((c.reg16 r).toNat < v.toNat))

def sbb16 (r : Reg) (v : BitVec 16) (c : Cpu σ) : Cpu σ :=
  c.set16 r (c.reg16 r - v - c.carryIn)
    |>.setCarry (decide ((c.reg16 r).toNat < v.toNat + c.carryIn.toNat))

def and16 (r : Reg) (v : BitVec 16) (c : Cpu σ) : Cpu σ :=
  c.set16 r (c.reg16 r &&& v) |>.setCarry false

/-! ## Stack and strings -/

def push16 (v : BitVec 16) (c : Cpu σ) : Cpu σ :=
  let sp := c.reg16 .esp - 2#16
  c.set16 .esp sp |>.store16 (linear (c.seg .ss) sp) v

def pop16 (r : Reg) (c : Cpu σ) : Cpu σ :=
  let sp := c.reg16 .esp
  c.set16 .esp (sp + 2#16) |>.set16 r (c.mem.read16 (linear (c.seg .ss) sp))

/-- Words pushed one after the other. -/
def pushWords (vs : List (BitVec 16)) (c : Cpu σ) : Cpu σ := vs.foldl (fun c v => c.push16 v) c

/-- `pusha`, with SP as it was. -/
def pusha (c : Cpu σ) : Cpu σ :=
  c.pushWords [c.reg16 .eax, c.reg16 .ecx, c.reg16 .edx, c.reg16 .ebx, c.reg16 .esp,
    c.reg16 .ebp, c.reg16 .esi, c.reg16 .edi]

/-- The word `i` places above the top of the stack. -/
def stack16 (c : Cpu σ) (i : Nat) : BitVec 16 :=
  c.mem.read16 (linear (c.seg .ss) (c.reg16 .esp + BitVec.ofNat 16 (2 * i)))

/-- `popa`, which passes over the word for SP. -/
def popa (c : Cpu σ) : Cpu σ :=
  c.set16 .edi (c.stack16 0) |>.set16 .esi (c.stack16 1) |>.set16 .ebp (c.stack16 2)
    |>.set16 .ebx (c.stack16 4) |>.set16 .edx (c.stack16 5) |>.set16 .ecx (c.stack16 6)
    |>.set16 .eax (c.stack16 7) |>.set16 .esp (c.reg16 .esp + 16#16)

/-- How far a string instruction for dwords moves SI and DI. -/
def stride (c : Cpu σ) : BitVec 16 := if c.df then -4#16 else 4#16

def stosd (c : Cpu σ) : Cpu σ :=
  c.store (linear (c.seg .es) (c.reg16 .edi)) (c.gpr .eax)
    |>.set16 .edi (c.reg16 .edi + c.stride)

def movsd (c : Cpu σ) : Cpu σ :=
  let v := c.mem.read32 (linear (c.seg .ds) (c.reg16 .esi))
  c.store (linear (c.seg .es) (c.reg16 .edi)) v
    |>.set16 .esi (c.reg16 .esi + c.stride) |>.set16 .edi (c.reg16 .edi + c.stride)

/-- A round of `rep movsd`. -/
def repMovsd (c : Cpu σ) : Cpu σ ⊕ Cpu σ :=
  if c.reg16 .ecx = 0#16 then .inr c else .inl (c.movsd.set16 .ecx (c.reg16 .ecx - 1#16))

/-! ## What they do -/

section Registers

variable (c : Cpu σ) (r q : Reg) (s : Seg) (a v : Word) (w : BitVec 16) (b : Bool)

/-- A register of sixteen bits depends on the general register it is the low half of, and on nothing
else. -/
theorem reg16_congr {c d : Cpu σ} {r : Reg} (h : d.gpr r = c.gpr r) : d.reg16 r = c.reg16 r := by
  unfold reg16
  rw [h]

@[simp] theorem set16_reg16 : (c.set16 r w).reg16 q = if q = r then w else c.reg16 q := by
  unfold reg16 set16
  rw [set_gpr]
  split
  · exact BitVec.setWidth_append_eq_right
  · rfl

theorem set16_gpr_of_ne (hq : q ≠ r) : (c.set16 r w).gpr q = c.gpr q := by
  unfold set16
  rw [set_gpr, if_neg hq]

@[simp] theorem set16_seg : (c.set16 r w).seg = c.seg := rfl

@[simp] theorem set16_mem : (c.set16 r w).mem = c.mem := rfl

@[simp] theorem set16_env : (c.set16 r w).env = c.env := rfl

/-- AL and the like are the low bytes of the words. -/
theorem low8_eq_reg16 : c.low8 r = (c.reg16 r).setWidth 8 := by
  unfold low8 reg16
  rw [BitVec.setWidth_setWidth_of_le _ (by decide)]

/-- AH and the like are the high bytes of the words. -/
theorem high8_eq_reg16 : c.high8 r = (c.reg16 r).extractLsb' 8 8 := by
  unfold high8 reg16
  apply BitVec.eq_of_getLsbD_eq
  intro i hi
  simp [show 8 + i < 16 by omega]

/-- To set AH keeps AL, and so the word has the new byte over the old one. -/
theorem setHigh8_reg16 (v : BitVec 8) :
    (c.setHigh8 r v).reg16 q = if q = r then v ++ c.low8 r else c.reg16 q := set16_reg16 _ _ _ _

@[simp] theorem setHigh8_high8 (v : BitVec 8) : (c.setHigh8 r v).high8 r = v := by
  rw [high8_eq_reg16, setHigh8_reg16, if_pos rfl]
  exact BitVec.extractLsb'_append_eq_left

@[simp] theorem setHigh8_mem (v : BitVec 8) : (c.setHigh8 r v).mem = c.mem := rfl

@[simp] theorem setHigh8_env (v : BitVec 8) : (c.setHigh8 r v).env = c.env := rfl

@[simp] theorem store_reg16 : (c.store a v).reg16 r = c.reg16 r := rfl

@[simp] theorem store16_reg16 : (c.store16 a w).reg16 r = c.reg16 r := rfl

@[simp] theorem store16_seg : (c.store16 a w).seg = c.seg := rfl

@[simp] theorem store16_env : (c.store16 a w).env = c.env := rfl

@[simp] theorem setCarry_reg16 : (c.setCarry b).reg16 r = c.reg16 r := rfl

@[simp] theorem setCarry_env : (c.setCarry b).env = c.env := rfl

@[simp] theorem carry_setCarry : (c.setCarry b).carry = b := by
  unfold carry setCarry withFlag
  cases b <;> simp

@[simp] theorem setCarry_seg : (c.setCarry b).seg = c.seg := rfl

@[simp] theorem setCarry_mem : (c.setCarry b).mem = c.mem := rfl

@[simp] theorem set16_carry : (c.set16 r w).carry = c.carry := rfl

@[simp] theorem store16_carry : (c.store16 a w).carry = c.carry := rfl

@[simp] theorem add16_reg16 :
    (c.add16 r w).reg16 q = if q = r then c.reg16 r + w else c.reg16 q := set16_reg16 _ _ _ _

@[simp] theorem add16_carry :
    (c.add16 r w).carry = decide (2 ^ 16 ≤ (c.reg16 r).toNat + w.toNat) := carry_setCarry _ _

@[simp] theorem adc16_reg16 :
    (c.adc16 r w).reg16 q = if q = r then c.reg16 r + w + c.carryIn else c.reg16 q :=
  set16_reg16 _ _ _ _

@[simp] theorem and16_reg16 :
    (c.and16 r w).reg16 q = if q = r then c.reg16 r &&& w else c.reg16 q := set16_reg16 _ _ _ _

@[simp] theorem sub16_reg16 :
    (c.sub16 r w).reg16 q = if q = r then c.reg16 r - w else c.reg16 q := set16_reg16 _ _ _ _

@[simp] theorem sub16_carry :
    (c.sub16 r w).carry = decide ((c.reg16 r).toNat < w.toNat) := carry_setCarry _ _

@[simp] theorem sbb16_reg16 :
    (c.sbb16 r w).reg16 q = if q = r then c.reg16 r - w - c.carryIn else c.reg16 q :=
  set16_reg16 _ _ _ _

theorem carryIn_toNat : c.carryIn.toNat = if c.carry = true then 1 else 0 := by
  unfold carryIn
  split <;> rfl

/-- A push in a segment of sixteen bits moves SP alone. -/
theorem push16_reg16 :
    (c.push16 w).reg16 q = if q = .esp then c.reg16 .esp - 2#16 else c.reg16 q :=
  set16_reg16 _ _ _ _

@[simp] theorem push16_seg : (c.push16 w).seg = c.seg := rfl

@[simp] theorem push16_env : (c.push16 w).env = c.env := rfl

theorem push16_mem :
    (c.push16 w).mem = c.mem.write16 (linear (c.seg .ss) (c.reg16 .esp - 2#16)) w := rfl

/-- A pop of SP itself is left with the word that is popped. -/
theorem pop16_reg16 :
    (c.pop16 r).reg16 q = if q = r then c.mem.read16 (linear (c.seg .ss) (c.reg16 .esp))
      else if q = .esp then c.reg16 .esp + 2#16 else c.reg16 q := by
  unfold pop16
  rw [set16_reg16, set16_reg16]

@[simp] theorem pop16_seg : (c.pop16 r).seg = c.seg := rfl

@[simp] theorem pop16_env : (c.pop16 r).env = c.env := rfl

@[simp] theorem pop16_mem : (c.pop16 r).mem = c.mem := rfl

theorem set_reg16_of_ne (hq : q ≠ r) : (c.set r v).reg16 q = c.reg16 q := by
  refine reg16_congr ?_
  rw [set_gpr, if_neg hq]

theorem setSeg_reg16 : (c.setSeg s w).reg16 q = c.reg16 q := rfl

/-- To set the low byte of a register whose low byte is clear adds the byte. -/
theorem setLow8_gpr {c : Cpu σ} {r : Reg} (v : BitVec 8)
    (hlow : ∀ i < 8, (c.gpr r).getLsbD i = false) :
    (c.setLow8 r v).gpr r = c.gpr r ||| v.setWidth 32 := by
  unfold setLow8 set16 high8
  rw [set_gpr, if_pos rfl]
  apply BitVec.eq_of_getLsbD_eq
  intro i hi
  rw [BitVec.getLsbD_append, BitVec.getLsbD_append, BitVec.getLsbD_or, BitVec.getLsbD_setWidth,
    BitVec.getLsbD_extractLsb', BitVec.getLsbD_extractLsb']
  by_cases h8 : i < 8
  · rw [hlow i h8]
    simp [h8, show i < 16 by omega, hi]
  · have hv : v.getLsbD i = false := BitVec.getLsbD_of_ge v i (by omega)
    by_cases h16 : i < 16
    · simp [h8, h16, hv, show i - 8 < 8 by omega, show 8 + (i - 8) = i by omega]
    · simp [h16, hv, show i - 16 < 16 by omega, show 16 + (i - 16) = i by omega]

theorem df_setDf : (c.setDf b).df = b := by
  unfold df setDf withFlag
  cases b <;> simp

/-- With the direction flag clear a string instruction goes up by four. -/
theorem stride_eq {c : Cpu σ} (hdf : c.df = false) : c.stride = 4#16 := by
  unfold stride
  rw [hdf, if_neg Bool.false_ne_true]

/-- `stosd` stores EAX through ES, whatever segment the program keeps its data in. -/
theorem stosd_mem :
    c.stosd.mem = c.mem.write32 (linear (c.seg .es) (c.reg16 .edi)) (c.gpr .eax) := rfl

theorem stosd_reg16 :
    c.stosd.reg16 q = if q = .edi then c.reg16 .edi + c.stride else c.reg16 q :=
  set16_reg16 _ _ _ _

theorem stosd_gpr (hq : q ≠ .edi) : c.stosd.gpr q = c.gpr q := set16_gpr_of_ne _ _ _ _ hq

/-- `movsd` reads through DS and stores through ES. -/
theorem movsd_mem :
    c.movsd.mem = c.mem.write32 (linear (c.seg .es) (c.reg16 .edi))
      (c.mem.read32 (linear (c.seg .ds) (c.reg16 .esi))) := rfl

/-- Both indices go on by four, up or down as the direction flag has it. -/
theorem movsd_reg16 :
    c.movsd.reg16 q = if q = .edi then c.reg16 .edi + c.stride
      else if q = .esi then c.reg16 .esi + c.stride else c.reg16 q := by
  unfold movsd
  rw [set16_reg16, set16_reg16]
  rfl

end Registers

/-! ## Words on the stack -/

section Stack

variable {c : Cpu σ} {vs : List (BitVec 16)}

@[simp] theorem pushWords_seg : (c.pushWords vs).seg = c.seg := by
  induction vs generalizing c with
  | nil => rfl
  | cons v vs ih => exact (ih (c := c.push16 v)).trans (push16_seg c v)

@[simp] theorem pushWords_env : (c.pushWords vs).env = c.env := by
  induction vs generalizing c with
  | nil => rfl
  | cons v vs ih => exact (ih (c := c.push16 v)).trans (push16_env c v)

@[simp] theorem pushWords_eflags : (c.pushWords vs).eflags = c.eflags := by
  induction vs generalizing c with
  | nil => rfl
  | cons v vs ih => exact ih (c := c.push16 v)

variable (vs) in
/-- The words pushed one after the other move SP by two for each. -/
theorem pushWords_reg16 (q : Reg) : (c.pushWords vs).reg16 q =
    if q = .esp then c.reg16 .esp - BitVec.ofNat 16 (2 * vs.length) else c.reg16 q := by
  induction vs generalizing c with
  | nil =>
    rw [List.length_nil, Nat.mul_zero, BitVec.sub_zero]
    split
    · next h => exact congrArg c.reg16 h
    · rfl
  | cons v vs ih =>
    have hstep := ih (c := c.push16 v)
    rw [push16_reg16, push16_reg16, if_pos rfl] at hstep
    refine hstep.trans ?_
    split
    · rw [List.length_cons, Nat.mul_succ, BitVec.ofNat_add]
      grind
    · rfl

/-- Where a push goes, as an offset of the stack segment. -/
theorem linear_push16 (h : 2 ≤ (c.reg16 .esp).toNat) :
    linear (c.seg .ss) (c.reg16 .esp - 2#16) =
      linear (c.seg .ss) 0#16 + BitVec.ofNat 32 ((c.reg16 .esp).toNat - 2) := by
  have hlt := (c.reg16 .esp).isLt
  refine linear_eq _ ?_
  rw [BitVec.toNat_sub, BitVec.toNat_ofNat]
  omega

/-- The stack pointer as a number. The premise is that the stack has room, since SP wraps to the top
of its segment. -/
theorem push16_esp_toNat (v : BitVec 16) (h : 2 ≤ (c.reg16 .esp).toNat) :
    ((c.push16 v).reg16 .esp).toNat = (c.reg16 .esp).toNat - 2 := by
  have hlt := (c.reg16 .esp).isLt
  rw [push16_reg16, if_pos rfl, BitVec.toNat_sub, BitVec.toNat_ofNat]
  omega

variable (vs) in
/-- A sequence of pushes changes the words that are pushed and nothing else. -/
theorem pushWords_within (h : 2 * vs.length ≤ (c.reg16 .esp).toNat) :
    Mem.Within (linear (c.seg .ss) 0#16 +
      BitVec.ofNat 32 ((c.reg16 .esp).toNat - 2 * vs.length)) (2 * vs.length)
      c.mem (c.pushWords vs).mem := by
  have hlt := (c.reg16 .esp).isLt
  induction vs generalizing c with
  | nil => exact Mem.Within.refl _ _ _
  | cons v vs ih =>
    rw [List.length_cons] at h ⊢
    have hsp := push16_esp_toNat v (c := c) (by omega)
    have hrest := ih (c := c.push16 v) (by omega) (by omega)
    have hplace := linear_push16 (c := c) (by omega)
    rw [push16_seg, hsp] at hrest
    have hfirst : Mem.Within (linear (c.seg .ss) 0#16 +
        BitVec.ofNat 32 ((c.reg16 .esp).toNat - 2 * (vs.length + 1))) (2 * (vs.length + 1))
        c.mem (c.push16 v).mem := by
      rw [push16_mem, hplace]
      exact Mem.splice_within_object _ _ _ (by omega) (by omega) (by omega)
    refine hfirst.trans (hrest.mono ?_)
    rw [Mem.byte_distance _ (by omega) (by omega)]
    omega

variable (vs) in
/-- What is pushed is found on the stack, the last word on top. -/
theorem stack16_pushWords (h : 2 * vs.length ≤ (c.reg16 .esp).toNat) {i : Nat}
    (hi : i < vs.length) :
    (c.pushWords vs).stack16 i = vs.get ⟨vs.length - 1 - i, by omega⟩ := by
  have hlt := (c.reg16 .esp).isLt
  induction vs generalizing c with
  | nil => exact absurd hi (Nat.not_lt_zero i)
  | cons v vs ih =>
    rw [List.length_cons] at h hi
    have hsp := push16_esp_toNat v (c := c) (by omega)
    by_cases hlast : i < vs.length
    · have hrest := ih (c := c.push16 v) (by omega) hlast (by omega)
      refine hrest.trans ?_
      have hindex : vs.length + 1 - 1 - i = vs.length - 1 - i + 1 := by omega
      simp only [List.length_cons, hindex]
      rfl
    · have hi' : i = vs.length := by omega
      have hwithin := pushWords_within vs (c := c.push16 v) (by omega)
      have hplace := linear_push16 (c := c) (by omega)
      have htop : linear (((c.push16 v).pushWords vs).seg .ss)
          (((c.push16 v).pushWords vs).reg16 .esp + BitVec.ofNat 16 (2 * i)) =
            linear (c.seg .ss) 0#16 + BitVec.ofNat 32 ((c.reg16 .esp).toNat - 2) := by
        have hsame : c.reg16 .esp - 2#16 - BitVec.ofNat 16 (2 * vs.length) +
            BitVec.ofNat 16 (2 * vs.length) = c.reg16 .esp - 2#16 := by grind
        rw [pushWords_seg, pushWords_reg16, if_pos rfl, push16_reg16, if_pos rfl, hi', hsame]
        exact hplace
      rw [push16_seg, hsp] at hwithin
      have hkept := hwithin.read16_object (e := (c.reg16 .esp).toNat - 2)
        (.inr (by omega)) (by omega) (by omega)
      have hread : ((c.push16 v).pushWords vs).stack16 i = v := by
        unfold stack16
        rw [htop, hkept, push16_mem, hplace, Mem.read16_write16_same]
      have hindex : vs.length + 1 - 1 - i = 0 := by omega
      refine hread.trans ?_
      simp only [List.length_cons, hindex]
      rfl

/-- The words that `pusha` pushes. -/
def pushaWords (c : Cpu σ) : List (BitVec 16) :=
  [c.reg16 .eax, c.reg16 .ecx, c.reg16 .edx, c.reg16 .ebx, c.reg16 .esp, c.reg16 .ebp,
    c.reg16 .esi, c.reg16 .edi]

/-- `pusha` is a sequence of pushes, in which SP is pushed as it was before the first. -/
theorem pusha_eq (c : Cpu σ) : c.pusha = c.pushWords c.pushaWords := rfl

/-- What `pusha` changes of memory are the sixteen bytes under the stack pointer. -/
theorem pusha_within (h : 16 ≤ (c.reg16 .esp).toNat) :
    Mem.Within (linear (c.seg .ss) 0#16 + BitVec.ofNat 32 ((c.reg16 .esp).toNat - 16)) 16
      c.mem c.pusha.mem :=
  pushWords_within c.pushaWords h

@[simp] theorem pusha_seg : c.pusha.seg = c.seg := pushWords_seg

@[simp] theorem pusha_env : c.pusha.env = c.env := pushWords_env

@[simp] theorem pusha_eflags : c.pusha.eflags = c.eflags := pushWords_eflags

theorem pusha_reg16 (q : Reg) :
    c.pusha.reg16 q = if q = .esp then c.reg16 .esp - 16#16 else c.reg16 q :=
  pushWords_reg16 c.pushaWords q

/-- `popa` after `pusha` brings back every register, if the stack was left as it was in between. SP
is not popped but counted. -/
theorem popa_pusha_reg16 {τ : Type} {d : Cpu τ} (h : 16 ≤ (c.reg16 .esp).toNat)
    (hss : d.seg .ss = c.seg .ss) (hsp : d.reg16 .esp = c.reg16 .esp - 16#16)
    (hmem : d.mem = c.pusha.mem) (q : Reg) : d.popa.reg16 q = c.reg16 q := by
  have hstack : ∀ i, d.stack16 i = c.pusha.stack16 i := by
    intro i
    unfold stack16
    rw [hss, hsp, hmem, pusha_seg, pusha_reg16, if_pos rfl]
  have hword := fun {i : Nat} (hi : i < 8) => stack16_pushWords c.pushaWords h hi
  unfold popa
  simp only [set16_reg16]
  rw [hsp, BitVec.sub_add_cancel, hstack, hstack, hstack, hstack, hstack, hstack, hstack,
    pusha_eq, hword (by decide), hword (by decide), hword (by decide), hword (by decide),
    hword (by decide), hword (by decide), hword (by decide)]
  cases q <;> rfl

@[simp] theorem popa_seg : c.popa.seg = c.seg := rfl

@[simp] theorem popa_mem : c.popa.mem = c.mem := rfl

@[simp] theorem popa_env : c.popa.env = c.env := rfl

@[simp] theorem popa_eflags : c.popa.eflags = c.eflags := rfl

end Stack

end Cpu

end OS90.Ia32
