import Mathlib.Algebra.BigOperators.Group.List.Basic
import Mathlib.Data.BitVec
import Mathlib.Data.List.Forall2
import Mathlib.Data.List.Lex
import Mathlib.Order.Bounds.Basic

/-!
# Arithmetic of addresses and sizes

Three pieces of arithmetic that low-level code rests on, each over any width: rounding to a multiple
of a bound, numerals whose digits have bases of their own, and the signed integers of C.

`alignUp b a` is the first multiple of `b` from `a` on (`alignUp_isLeast`). A word that loses the
bits below a power of two to a mask is rounded down (`and_not_toNat`).

A numeral has a digit below each base, the first digit being the most significant. Numerals count
from zero to the product of the bases without a gap (`exists_value`), and their order is that of
their digits from the left (`value_lt_value`).

A `CInt n` has `n` value bits and a sign. An operation has the exact result or, where that cannot be
represented, none: C leaves it undefined. Numbers that are not negative keep to numbers
(`add_ofNat`, `sub_ofNat`, `mul_ofNat`), and a conversion to an unsigned type gives them back.
-/

namespace OS90.Align

def alignUp (b a : Nat) : Nat := (a + b - 1) / b * b

section Multiples

variable {a b n : Nat}

/-- Rounding up is the least multiple that is not below the number, for every bound but zero. -/
theorem alignUp_isLeast (hb : 0 < b) : IsLeast {n : Nat | b ∣ n ∧ a ≤ n} (alignUp b a) := by
  have hdiv := Nat.div_add_mod (a + b - 1) b
  have hmod := Nat.mod_lt (a + b - 1) hb
  have hcomm : (a + b - 1) / b * b = b * ((a + b - 1) / b) := Nat.mul_comm _ _
  constructor
  · refine ⟨Nat.dvd_mul_left b _, ?_⟩
    unfold alignUp
    omega
  · rintro n ⟨⟨k, rfl⟩, hle⟩
    have hquot : (a + b - 1) / b ≤ k := by
      refine Nat.lt_succ_iff.mp (Nat.div_lt_of_lt_mul ?_)
      rw [Nat.mul_succ]
      omega
    unfold alignUp
    rw [hcomm]
    exact Nat.mul_le_mul_left b hquot

/-- Below a multiple of the bound there is room for the bound. -/
theorem add_le_of_alignUp_lt (hb : 0 < b) (hn : b ∣ n) (h : alignUp b a < n) : a + b ≤ n := by
  obtain ⟨k, rfl⟩ := hn
  have hle := (alignUp_isLeast (a := a) hb).1.2
  unfold alignUp at h hle
  rw [Nat.mul_comm b k] at h ⊢
  have hquot : (a + b - 1) / b + 1 ≤ k := Nat.lt_of_mul_lt_mul_right h
  have hmul := Nat.mul_le_mul_right b hquot
  rw [Nat.add_mul, Nat.one_mul] at hmul
  omega

end Multiples

section Masks

variable {n k : Nat} (w : BitVec n) {mask : BitVec n} (hmask : mask.toNat = 2 ^ k - 1)

include hmask

/-- A word without its low bits is the word shifted out and back. -/
theorem and_not_eq_shift : w &&& ~~~mask = w >>> k <<< k := by
  have hbit : ∀ i, mask.getLsbD i = decide (i < k) := by
    intro i
    rw [BitVec.getLsbD, hmask, Nat.testBit_two_pow_sub_one]
  apply BitVec.eq_of_getLsbD_eq
  intro i hi
  rw [BitVec.getLsbD_and, BitVec.getLsbD_not, hbit, BitVec.getLsbD_shiftLeft,
    BitVec.getLsbD_ushiftRight]
  by_cases h : i < k
  · simp [h]
  · have hback : k + (i - k) = i := by omega
    simp [h, hi, hback]

theorem and_not_toNat : (w &&& ~~~mask).toNat = w.toNat / 2 ^ k * 2 ^ k := by
  have hlt := w.isLt
  have hle := Nat.div_mul_le_self w.toNat (2 ^ k)
  rw [and_not_eq_shift w hmask, BitVec.toNat_shiftLeft, BitVec.toNat_ushiftRight,
    Nat.shiftRight_eq_div_pow, Nat.shiftLeft_eq, Nat.mod_eq_of_lt (by omega)]

end Masks

end OS90.Align

namespace OS90.Radix

/-- Digit by digit, below its base. -/
abbrev Numeral (bs ds : List Nat) : Prop := List.Forall₂ (fun d b => d < b) ds bs

def value : List Nat → List Nat → Nat
  | _ :: bs, d :: ds => d * bs.prod + value bs ds
  | _, _ => 0

/-- The value of a numeral is below the product of its bases. -/
theorem value_lt {bs ds : List Nat} (h : Numeral bs ds) : value bs ds < bs.prod := by
  induction h with
  | nil => exact Nat.one_pos
  | @cons d b ds bs hd _ ih =>
    have hnext : (d + 1) * bs.prod ≤ b * bs.prod := Nat.mul_le_mul_right _ hd
    rw [Nat.add_mul, Nat.one_mul] at hnext
    rw [List.prod_cons]
    unfold value
    omega

/-- Every number below the product of the bases has digits, which are found by division. -/
theorem exists_value (bs : List Nat) {n : Nat} (hn : n < bs.prod) :
    ∃ ds, Numeral bs ds ∧ value bs ds = n := by
  induction bs generalizing n with
  | nil =>
    rw [List.prod_nil, Nat.lt_one_iff] at hn
    exact ⟨[], .nil, hn.symm⟩
  | cons b bs ih =>
    rw [List.prod_cons] at hn
    have hpos : 0 < bs.prod := Nat.pos_of_lt_mul_left hn
    obtain ⟨ds, hds, hvalue⟩ := ih (Nat.mod_lt n hpos)
    refine ⟨n / bs.prod :: ds, .cons ?_ hds, ?_⟩
    · exact (Nat.div_lt_iff_lt_mul hpos).mpr hn
    · unfold value
      rw [hvalue, Nat.mul_comm]
      exact Nat.div_add_mod n bs.prod

/-- A smaller first digit makes the number smaller, whatever comes after it. -/
theorem value_lt_of_digit {b d e : Nat} {bs ds es : List Nat} (hds : Numeral bs ds) (h : d < e) :
    value (b :: bs) (d :: ds) < value (b :: bs) (e :: es) := by
  have hrest := value_lt hds
  have hnext : (d + 1) * bs.prod ≤ e * bs.prod := Nat.mul_le_mul_right _ h
  rw [Nat.add_mul, Nat.one_mul] at hnext
  unfold value
  omega

/-- Numerals are ordered as lists are, from the left. That their digits are below the bases is what
makes the first difference decide. -/
theorem value_lt_value {bs ds es : List Nat} (hds : Numeral bs ds) (hes : Numeral bs es)
    (h : ds < es) : value bs ds < value bs es := by
  induction hds generalizing es with
  | nil =>
    cases hes
    exact absurd h (List.lt_irrefl [])
  | cons hd hrest ih =>
    cases hes with
    | cons he hes =>
      rcases List.cons_lt_cons_iff.mp h with hdigit | ⟨rfl, htail⟩
      · exact value_lt_of_digit hrest hdigit
      · exact Nat.add_lt_add_left (ih hes htail) _

/-- A number has one numeral: two with the same value have the same digits. -/
theorem value_injective {bs ds es : List Nat} (hds : Numeral bs ds) (hes : Numeral bs es)
    (h : value bs ds = value bs es) : ds = es := by
  rcases lt_trichotomy ds es with hlt | heq | hgt
  · exact absurd h (Nat.ne_of_lt (value_lt_value hds hes hlt))
  · exact heq
  · exact absurd h.symm (Nat.ne_of_lt (value_lt_value hes hds hgt))

end OS90.Radix

namespace OS90

structure CInt (n : Nat) where
  val : Int
  ge : -2 ^ n ≤ val
  lt : val < 2 ^ n

namespace CInt

variable {n : Nat}

/-- The integer, if it is in the range. -/
def represent (z : Int) : Option (CInt n) :=
  if h : -2 ^ n ≤ z ∧ z < 2 ^ n then some ⟨z, h.1, h.2⟩ else none

def add (x y : CInt n) : Option (CInt n) := represent (x.val + y.val)

def sub (x y : CInt n) : Option (CInt n) := represent (x.val - y.val)

def mul (x y : CInt n) : Option (CInt n) := represent (x.val * y.val)

/-- A number is representable as exactly the value that stands for it. -/
theorem represent_eq_some_iff {z : Int} {x : CInt n} : represent z = some x ↔ x.val = z := by
  have hge := x.ge
  have hlt := x.lt
  unfold represent
  constructor
  · intro h
    split at h
    · cases h
      rfl
    · cases h
  · rintro rfl
    rw [dif_pos ⟨hge, hlt⟩]

/-! ## Numbers -/

def ofNat (k : Nat) (h : k < 2 ^ n) : CInt n where
  val := k
  ge := by
    have hpos : (0 : Int) ≤ 2 ^ n := Int.pow_nonneg (by decide)
    omega
  lt := by exact_mod_cast h

/-- The promotion of an unsigned type that has no more bits than the value bits. -/
def promote {m : Nat} (w : BitVec m) (h : m ≤ n) : CInt n :=
  ofNat w.toNat (Nat.lt_of_lt_of_le w.isLt (Nat.pow_le_pow_right (by decide) h))

/-- The conversion to an unsigned type, which is modulo a power of two. -/
def toUnsigned (m : Nat) (x : CInt n) : BitVec m := BitVec.ofInt m x.val

section Numbers

variable {a b : Nat} {ha : a < 2 ^ n} {hb : b < 2 ^ n}

/-- A sum that fits does not overflow, and is the sum. -/
theorem add_ofNat (h : a + b < 2 ^ n) : add (ofNat a ha) (ofNat b hb) = some (ofNat (a + b) h) := by
  unfold add
  rw [represent_eq_some_iff]
  exact Int.natCast_add a b

/-- A difference of naturals that is not negative does not overflow. -/
theorem sub_ofNat (h : b ≤ a) : sub (ofNat a ha) (ofNat b hb) =
    some (ofNat (a - b) (Nat.lt_of_le_of_lt (Nat.sub_le a b) ha)) := by
  unfold sub
  rw [represent_eq_some_iff]
  exact Int.ofNat_sub h

/-- A product that fits does not overflow, and is the product. -/
theorem mul_ofNat (h : a * b < 2 ^ n) : mul (ofNat a ha) (ofNat b hb) = some (ofNat (a * b) h) := by
  unfold mul
  rw [represent_eq_some_iff]
  exact Int.natCast_mul a b

theorem toUnsigned_ofNat {m : Nat} (h : a < 2 ^ m) : ((ofNat a ha).toUnsigned m).toNat = a := by
  unfold toUnsigned
  rw [show (ofNat a ha).val = (a : Int) from rfl, BitVec.ofInt_natCast, BitVec.toNat_ofNat,
    Nat.mod_eq_of_lt h]

end Numbers

end CInt

end OS90
