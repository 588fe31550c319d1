import Mathlib.Data.BitVec

/-!
# Fixed-width fields packed in a word

A word of any width read as a sequence of `k`-bit fields, field `i` at bit `k * i`. The fields
determine the word, and a shift by whole fields or by any positive count changes a word unless
nothing is set in it.

A word is also put together from values shifted to their places (`pack`). Where the places are apart
each value is read back at its own (`read_pack`), and between them there is nothing
(`read_pack_apart`).

Both views are needed by drivers and tables alike, and neither names anything of them: a field is a
place and a width, and the premises are that the value fits and that places are apart.
-/

namespace OS90.Fields

variable {n : Nat}

/-- Field `i` of the word, `k` bits wide. -/
def field (k : Nat) (w : BitVec n) (i : Nat) : BitVec k := w.extractLsb' (k * i) k

/-- Two words with the same fields are the same word, if a field has at least a bit. -/
theorem field_ext {k : Nat} (hk : 0 < k) {w v : BitVec n}
    (h : ∀ i, k * i < n → field k w i = field k v i) : w = v := by
  apply BitVec.eq_of_getLsbD_eq
  intro b hb
  have hdiv : k * (b / k) + b % k = b := Nat.div_add_mod b k
  have hmod : b % k < k := Nat.mod_lt b hk
  have hbit := congrArg (fun x : BitVec k => x.getLsbD (b % k)) (h (b / k) (by omega))
  simpa only [field, BitVec.getLsbD_extractLsb', hmod, decide_true, Bool.true_and, hdiv] using hbit

/-- The low field of a shifted word is the field it was shifted by. -/
theorem setWidth_ushiftRight (k : Nat) (w : BitVec n) (i : Nat) :
    (w >>> (k * i)).setWidth k = field k w i := by
  apply BitVec.eq_of_getLsbD_eq
  intro b hb
  simp only [field, BitVec.getLsbD_setWidth, BitVec.getLsbD_ushiftRight,
    BitVec.getLsbD_extractLsb']

/-- A shift by a positive count moves every word but zero. -/
theorem ushiftRight_eq_self_iff {w : BitVec n} {c : Nat} :
    w >>> c = w ↔ c = 0 ∨ w = 0 := by
  constructor
  · intro h
    by_cases hc : c = 0
    · exact Or.inl hc
    · right
      have hn : w.toNat / 2 ^ c = w.toNat := by
        rw [← Nat.shiftRight_eq_div_pow, ← BitVec.toNat_ushiftRight, h]
      have htwo : 1 < 2 ^ c := Nat.one_lt_two_pow hc
      apply BitVec.eq_of_toNat_eq
      rcases Nat.eq_zero_or_pos w.toNat with hzero | hpos
      · simpa using hzero
      · exact absurd hn (Nat.ne_of_lt (Nat.div_lt_self hpos htwo))
  · intro h
    rcases h with rfl | rfl
    · exact BitVec.ushiftRight_zero w
    · exact BitVec.zero_ushiftRight

/-! ## Fields put in their places -/

/-- A value, and the bits of the word it is meant for. -/
structure Placed (n : Nat) where
  pos : Nat
  width : Nat
  value : BitVec n

/-- The value needs no other bits, and the word has them. -/
structure Placed.Fits (f : Placed n) : Prop where
  value_lt : f.value.toNat < 2 ^ f.width
  range : f.pos + f.width ≤ n

/-- A range of bits is apart from those of the value. -/
def Placed.Apart (f : Placed n) (start len : Nat) : Prop :=
  start + len ≤ f.pos ∨ f.pos + f.width ≤ start

theorem Placed.Apart.symm {f g : Placed n} (h : f.Apart g.pos g.width) :
    g.Apart f.pos f.width := Or.symm h

def pack : List (Placed n) → BitVec n
  | [] => 0#n
  | f :: fs => f.value <<< f.pos ||| pack fs

variable {f : Placed n} {fs : List (Placed n)} {start len : Nat}

/-- A value that fits its field is read back from it. -/
theorem read_placed (h : f.Fits) :
    ((f.value <<< f.pos).extractLsb' f.pos f.width).toNat = f.value.toNat := by
  have hpos := Nat.two_pow_pos f.pos
  have hword : f.value.toNat * 2 ^ f.pos < 2 ^ n := by
    calc f.value.toNat * 2 ^ f.pos < 2 ^ f.width * 2 ^ f.pos :=
          Nat.mul_lt_mul_of_pos_right h.value_lt hpos
      _ = 2 ^ (f.pos + f.width) := by rw [← Nat.pow_add, Nat.add_comm]
      _ ≤ 2 ^ n := Nat.pow_le_pow_right (by decide) h.range
  rw [BitVec.extractLsb'_toNat, BitVec.toNat_shiftLeft, Nat.shiftLeft_eq, Nat.mod_eq_of_lt hword,
    Nat.shiftRight_eq_div_pow, Nat.mul_div_cancel _ hpos, Nat.mod_eq_of_lt h.value_lt]

/-- And it is not seen in bits apart from the field. -/
theorem read_placed_apart (h : f.Fits) (hapart : f.Apart start len) :
    (f.value <<< f.pos).extractLsb' start len = 0#(len) := by
  apply BitVec.eq_of_getLsbD_eq
  intro i hi
  rw [BitVec.getLsbD_extractLsb', BitVec.getLsbD_shiftLeft, BitVec.getLsbD_zero]
  rcases hapart with hbelow | habove
  · have hlow : start + i < f.pos := by omega
    simp [hlow]
  · have hout : f.value.getLsbD (start + i - f.pos) = false := by
      refine Nat.testBit_lt_two_pow (Nat.lt_of_lt_of_le h.value_lt ?_)
      exact Nat.pow_le_pow_right (by decide) (by omega)
    simp [hout]

/-- Bits that no field covers are zero. -/
theorem read_pack_apart (hfits : ∀ f ∈ fs, f.Fits) (hapart : ∀ f ∈ fs, f.Apart start len) :
    (pack fs).extractLsb' start len = 0#(len) := by
  induction fs with
  | nil => exact BitVec.extractLsb'_zero
  | cons f fs ih =>
    rw [List.forall_mem_cons] at hfits hapart
    unfold pack
    rw [BitVec.extractLsb'_or, read_placed_apart hfits.1 hapart.1, ih hfits.2 hapart.2,
      BitVec.or_self]

/-- Of a word packed from fields that fit and are apart, each field reads as its value, in whatever
order they were packed. -/
theorem read_pack (hfits : ∀ f ∈ fs, f.Fits)
    (hapart : fs.Pairwise fun f g => f.Apart g.pos g.width) (hmem : f ∈ fs) :
    ((pack fs).extractLsb' f.pos f.width).toNat = f.value.toNat := by
  induction fs with
  | nil => cases hmem
  | cons g fs ih =>
    rw [List.forall_mem_cons] at hfits
    rw [List.pairwise_cons] at hapart
    unfold pack
    rw [BitVec.extractLsb'_or]
    rcases List.mem_cons.mp hmem with rfl | hrest
    · rw [read_pack_apart hfits.2 fun g hg => (hapart.1 g hg).symm, BitVec.or_zero,
        read_placed hfits.1]
    · rw [read_placed_apart hfits.1 (hapart.1 f hrest), BitVec.zero_or,
        ih hfits.2 hapart.2 hrest]

end OS90.Fields
