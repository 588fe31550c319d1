import Mathlib.Data.BitVec

/-!
# A byte memory with dword access

Memory is a total function from 32-bit addresses to bytes, little-endian and without segments or
paging. Addresses wrap, so "how far `x` lies above `lo`" is the number `(x - lo).toNat`, and every
rule here is about those distances: a read is not disturbed by a write when the dwords are at
least four bytes apart both ways around.

`Within lo n m m'` is the frame condition: the step from `m` to `m'` changed nothing but the `n`
bytes from `lo`.

No rule assumes that a range does not wrap. The kernel's own structures do not, and their lemmas say
so where it matters.
-/

namespace OS90.Ia32

abbrev Word := BitVec 32

abbrev Mem := Word → BitVec 8

/-- Numbers that fit a word are told apart as words. -/
theorem ofNat_ne {w i j : Nat} (hi : i < 2 ^ w) (hj : j < 2 ^ w) (h : i ≠ j) :
    BitVec.ofNat w i ≠ BitVec.ofNat w j := by
  intro heq
  have hnat := congrArg BitVec.toNat heq
  rw [BitVec.toNat_ofNat, BitVec.toNat_ofNat, Nat.mod_eq_of_lt hi, Nat.mod_eq_of_lt hj] at hnat
  exact h hnat

namespace Mem

def write32 (m : Mem) (a v : Word) : Mem := fun x =>
  if (x - a).toNat < 4 then v.extractLsb' (8 * (x - a).toNat) 8 else m x

def read32 (m : Mem) (a : Word) : Word := m (a + 3#32) ++ m (a + 2#32) ++ m (a + 1#32) ++ m a

/-- Nothing but the `n` bytes from `lo` differs. -/
def Within (lo : Word) (n : Nat) (m m' : Mem) : Prop := ∀ x, n ≤ (x - lo).toNat → m' x = m x

/-- The offset of a byte from the base of an object is the number it was given by. -/
theorem add_sub_cancel_toNat (a : Word) {k : Nat} (hk : k < 2 ^ 32) :
    (a + BitVec.ofNat 32 k - a).toNat = k := by
  have hcancel : a + BitVec.ofNat 32 k - a = BitVec.ofNat 32 k := by bv_omega
  rw [hcancel]
  exact Nat.mod_eq_of_lt hk

/-- The bytes of a dword that has been stored, the lowest at its address. -/
theorem write32_add (m : Mem) (a v : Word) {k : Nat} (hk : k < 4) :
    write32 m a v (a + BitVec.ofNat 32 k) = v.extractLsb' (8 * k) 8 := by
  have hdist := add_sub_cancel_toNat a (k := k) (by omega)
  unfold write32
  rw [hdist, if_pos hk]

/-- The four bytes of a dword, the highest first. -/
theorem extractLsb'_append (v : Word) :
    v.extractLsb' 24 8 ++ v.extractLsb' 16 8 ++ v.extractLsb' 8 8 ++ v.extractLsb' 0 8 = v := by
  apply BitVec.eq_of_getLsbD_eq
  intro i hi
  simp only [BitVec.getLsbD_append, BitVec.getLsbD_extractLsb']
  by_cases h0 : i < 8
  · simp [h0]
  · by_cases h1 : i - 8 < 8
    · have hi' : 8 + (i - 8) = i := by omega
      simp [h0, h1, hi']
    · by_cases h2 : i - 8 - 8 < 8
      · have hi' : 16 + (i - 8 - 8) = i := by omega
        simp [h0, h1, h2, hi']
      · have h3 : i - 8 - 8 - 8 < 8 := by omega
        have hi' : 24 + (i - 8 - 8 - 8) = i := by omega
        simp [h0, h1, h2, h3, hi']

@[simp] theorem read32_write32_same (m : Mem) (a v : Word) : read32 (write32 m a v) a = v := by
  have h0 := write32_add m a v (k := 0) (by decide)
  have h1 := write32_add m a v (k := 1) (by decide)
  have h2 := write32_add m a v (k := 2) (by decide)
  have h3 := write32_add m a v (k := 3) (by decide)
  rw [BitVec.add_zero] at h0
  rw [read32, h0, h1, h2, h3]
  exact extractLsb'_append v

/-! ## Frames -/

/-- No change is within any range. -/
theorem Within.refl (lo : Word) (n : Nat) (m : Mem) : Within lo n m m := fun _ _ => rfl

/-- Two changes within one range are one change within it. -/
theorem Within.trans {lo : Word} {n : Nat} {m₁ m₂ m₃ : Mem} (h₁ : Within lo n m₁ m₂)
    (h₂ : Within lo n m₂ m₃) : Within lo n m₁ m₃ := by
  intro x hx
  rw [h₂ x hx, h₁ x hx]

/-- The store of a dword changes its four bytes only. -/
theorem write32_within (m : Mem) (a v : Word) : Within a 4 m (write32 m a v) := by
  intro x hx
  unfold write32
  rw [if_neg (by omega)]

/-- A change within some bytes is a change within any range that has them all. -/
theorem Within.mono {a lo : Word} {k n : Nat} {m m' : Mem} (h : Within a k m m')
    (hrange : (a - lo).toNat + k ≤ n) : Within lo n m m' := by
  intro x hx
  refine h x ?_
  bv_omega

/-- The same for ranges that end a known number of bytes below one place. -/
theorem Within.below {a b : Word} {c d k n : Nat} {m m' : Mem} (h : Within a k m m')
    (ha : a = b - BitVec.ofNat 32 c) (hcd : c ≤ d) (hn : d - c + k ≤ n) :
    Within (b - BitVec.ofNat 32 d) n m m' := by
  refine h.mono ?_
  have hdist : a - (b - BitVec.ofNat 32 d) = BitVec.ofNat 32 d - BitVec.ofNat 32 c := by
    rw [ha]
    grind
  rw [hdist, BitVec.toNat_sub, BitVec.toNat_ofNat, BitVec.toNat_ofNat]
  omega

/-- Two steps down the stack are one of their sum. -/
theorem sub_sub_ofNat (b : Word) (c d : Nat) :
    b - BitVec.ofNat 32 c - BitVec.ofNat 32 d = b - BitVec.ofNat 32 (c + d) := by
  rw [BitVec.ofNat_add]
  grind

/-- A dword that no byte of the range is in reads as before. -/
theorem Within.read32 {lo : Word} {n : Nat} {m m' : Mem} (h : Within lo n m m') {a : Word}
    (hlo : n ≤ (a - lo).toNat) (hhi : (a - lo).toNat + 4 ≤ 2 ^ 32) :
    read32 m' a = read32 m a := by
  unfold Mem.read32
  rw [h (a + 3#32) (by bv_omega), h (a + 2#32) (by bv_omega), h (a + 1#32) (by bv_omega), h a hlo]

/-- A read is not disturbed by a write that is four bytes away or more, on either side. -/
theorem read32_write32_apart (m : Mem) {a b : Word} (v : Word) (hlo : 4 ≤ (a - b).toNat)
    (hhi : (a - b).toNat + 4 ≤ 2 ^ 32) : read32 (write32 m b v) a = read32 m a :=
  (write32_within m b v).read32 hlo hhi

/-- To write to two places again, in the same order, forgets what was written to them before. They
may even overlap. -/
theorem write32_overwrite (m : Mem) (a b v w v' w' : Word) :
    write32 (write32 (write32 (write32 m a v) b w) a v') b w' =
      write32 (write32 m a v') b w' := by
  funext x
  unfold write32
  by_cases hb : (x - b).toNat < 4
  · simp only [hb, if_true]
  · by_cases ha : (x - a).toNat < 4
    · simp only [hb, ha, if_true, if_false]
    · simp only [hb, ha, if_false]

end Mem

end OS90.Ia32
