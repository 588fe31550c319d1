import OS90.Ia32.Memory

/-!
# Bytes, words and ranges

Writes of other sizes than a dword are one operation, `splice`, which replaces a range of bytes.
An object in memory is looked at from its own address: `m.byte base k` is its byte `k`, and the
rules for `byte` say which write into the object that byte comes from. They hold for objects that
do not reach around the end of the address space.

That splitting of offsets is what most proofs about memory here come down to: two ranges of one
object are compared by their offsets, and ranges of different objects by `Apart`, which is a
statement about distances. A write into one object leaves the bytes of another if they are apart,
and of the same if the offsets do not meet.

Dwords are read and written by their bytes, the lowest first, so that a dword that is read where
another was written in part is right by itself.
-/

namespace OS90.Ia32.Mem

/-- Memory with the `n` bytes from `a` replaced. -/
def splice (m : Mem) (a : Word) (n : Nat) (f : Nat → BitVec 8) : Mem := fun x =>
  if (x - a).toNat < n then f (x - a).toNat else m x

def write8 (m : Mem) (a : Word) (v : BitVec 8) : Mem := m.splice a 1 fun _ => v

def write16 (m : Mem) (a : Word) (v : BitVec 16) : Mem :=
  m.splice a 2 fun i => v.extractLsb' (8 * i) 8

/-- `memset`. -/
def fill (m : Mem) (a : Word) (n : Nat) (v : BitVec 8) : Mem := m.splice a n fun _ => v

def read16 (m : Mem) (a : Word) : BitVec 16 := m (a + 1#32) ++ m a

/-- Byte `k` of the object at `base`. -/
def byte (m : Mem) (base : Word) (k : Nat) : BitVec 8 := m (base + BitVec.ofNat 32 k)

/-- No byte of the first range is a byte of the second. -/
def Apart (a : Word) (n : Nat) (b : Word) (k : Nat) : Prop :=
  ∀ i < n, k ≤ (a + BitVec.ofNat 32 i - b).toNat

variable {m m' : Mem} {a b base : Word} {j k n : Nat} {f : Nat → BitVec 8}

/-- A dword is stored as four bytes, the lowest first. The lemmas about splices hold for it by way
of this one. -/
theorem write32_eq_splice (v : Word) :
    m.write32 a v = m.splice a 4 fun i => v.extractLsb' (8 * i) 8 := rfl

/-- A splice changes the bytes it is over and no others. -/
theorem splice_within (m : Mem) (a : Word) (n : Nat) (f : Nat → BitVec 8) :
    Within a n m (m.splice a n f) := by
  intro x hx
  unfold splice
  rw [if_neg (by omega)]

/-- A splice of two memories that agree at a place leaves them agreeing there. -/
theorem splice_congr {x : Word} (h : m' x = m x) : m'.splice a n f x = m.splice a n f x := by
  unfold splice
  rw [h]

/-- A range that is replaced by the bytes it already holds leaves memory as it was. -/
theorem splice_self (h : ∀ i < n, m.byte a i = f i) : m.splice a n f = m := by
  funext x
  unfold splice
  split
  next hx =>
    have hplace : a + BitVec.ofNat 32 (x - a).toNat = x := by
      rw [BitVec.ofNat_toNat, BitVec.setWidth_eq]
      grind
    rw [← h _ hx]
    unfold byte
    rw [hplace]
  · rfl

/-- Only the bytes that are written count, and not what the function says beyond them. -/
theorem splice_congr_bytes (m : Mem) (a : Word) {g : Nat → BitVec 8} (h : ∀ i < n, f i = g i) :
    m.splice a n f = m.splice a n g := by
  funext x
  unfold splice
  by_cases hx : (x - a).toNat < n
  · rw [if_pos hx, if_pos hx, h _ hx]
  · rw [if_neg hx, if_neg hx]

/-- How far one byte of an object lies above another, without the wrap that addresses have. -/
theorem byte_distance (base : Word) (hj : j < 2 ^ 32) (hk : k < 2 ^ 32) :
    (base + BitVec.ofNat 32 k - (base + BitVec.ofNat 32 j)).toNat = (2 ^ 32 + k - j) % 2 ^ 32 := by
  have hcancel : base + BitVec.ofNat 32 k - (base + BitVec.ofNat 32 j) =
      BitVec.ofNat 32 k - BitVec.ofNat 32 j := by grind
  rw [hcancel, BitVec.toNat_sub, BitVec.toNat_ofNat, BitVec.toNat_ofNat]
  omega

/-- Two ranges in a row, the second right behind the first, are one range. -/
theorem splice_splice (m : Mem) (a : Word) (f : Nat → BitVec 8) (hfit : j + n ≤ 2 ^ 32) :
    (m.splice a j f).splice (a + BitVec.ofNat 32 j) n (fun i => f (j + i)) =
      m.splice a (j + n) f := by
  funext x
  by_cases hn : n = 0
  · subst hn
    unfold splice
    rw [if_neg (Nat.not_lt_zero _), Nat.add_zero]
  have hdist : (x - (a + BitVec.ofNat 32 j)).toNat = (2 ^ 32 + (x - a).toNat - j) % 2 ^ 32 := by
    have hplace : x = a + BitVec.ofNat 32 (x - a).toNat := by
      rw [BitVec.ofNat_toNat, BitVec.setWidth_eq]
      grind
    have hbyte := byte_distance a (j := j) (by omega) (x - a).isLt
    rw [← hplace] at hbyte
    exact hbyte
  have hlt := (x - a).isLt
  unfold splice
  rw [hdist]
  by_cases hlow : (x - a).toNat < j
  · rw [if_neg (by omega), if_pos hlow, if_pos (by omega)]
  · have hmod : (2 ^ 32 + (x - a).toNat - j) % 2 ^ 32 = (x - a).toNat - j := by omega
    have hsum : j + ((x - a).toNat - j) = (x - a).toNat := by omega
    rw [hmod, if_neg hlow]
    exact if_congr (by omega) (congrArg f hsum) rfl

/-- Blocks of one size, copied one after the other, are one copy of all of it. -/
theorem foldl_splice (m : Mem) (a : Word) (f : Nat → BitVec 8) (size : Nat)
    (hfit : size * n ≤ 2 ^ 32) :
    (List.range n).foldl (fun m k =>
      m.splice (a + BitVec.ofNat 32 (size * k)) size fun i => f (size * k + i)) m =
      m.splice a (size * n) f := by
  induction n with
  | zero =>
    funext x
    exact (if_neg (Nat.not_lt_zero _)).symm
  | succ n ih =>
    rw [Nat.mul_succ] at hfit
    rw [List.range_succ, List.foldl_append, ih (by omega), List.foldl_cons, List.foldl_nil,
      splice_splice m a f hfit, Nat.mul_succ]

/-- A byte of the object after a range of it is replaced, by the two offsets alone. All lemmas about
stores into objects follow from this. -/
theorem byte_splice (hj : j + n ≤ 2 ^ 32) (hn : 0 < n) (hk : k < 2 ^ 32) :
    (m.splice (base + BitVec.ofNat 32 j) n f).byte base k =
      if j ≤ k ∧ k < j + n then f (k - j) else m.byte base k := by
  have hdist := byte_distance base (j := j) (k := k) (by omega) hk
  unfold byte splice
  rw [hdist]
  by_cases hin : j ≤ k ∧ k < j + n
  · have hmod : (2 ^ 32 + k - j) % 2 ^ 32 = k - j := by omega
    rw [hmod, if_pos (by omega), if_pos hin]
  · rw [if_neg (by omega), if_neg hin]

/-- A byte after the store of a byte, both by their offsets from one base. Offsets below 4 GiB do
not wrap, and that is the premise. -/
theorem byte_write8 (v : BitVec 8) (hj : j < 2 ^ 32) (hk : k < 2 ^ 32) :
    (m.write8 (base + BitVec.ofNat 32 j) v).byte base k = if k = j then v else m.byte base k := by
  unfold write8
  rw [byte_splice hj Nat.one_pos hk]
  exact if_congr (by omega) rfl rfl

theorem write8_apply (m : Mem) (a x : Word) (v : BitVec 8) :
    m.write8 a v x = if x = a then v else m x := by
  have hplace : (x - a).toNat < 1 ↔ x = a := by
    constructor
    · intro h
      have hzero : x - a = 0#32 := BitVec.eq_of_toNat_eq (by rw [BitVec.toNat_ofNat]; omega)
      grind
    · rintro rfl
      rw [BitVec.sub_self]
      decide
  unfold write8 splice
  exact if_congr hplace rfl rfl

/-- The same for a range at the very address the object is looked at from. -/
theorem byte_splice_self (m : Mem) (base : Word) (f : Nat → BitVec 8) (hn : 0 < n)
    (hle : n ≤ 2 ^ 32) (hk : k < 2 ^ 32) :
    (m.splice base n f).byte base k = if k < n then f k else m.byte base k := by
  have hsplice : (m.splice (base + BitVec.ofNat 32 0) n f).byte base k =
      if 0 ≤ k ∧ k < 0 + n then f (k - 0) else m.byte base k := byte_splice (by omega) hn hk
  rw [BitVec.add_zero, Nat.zero_add, Nat.sub_zero] at hsplice
  exact hsplice.trans (if_congr (and_iff_right (Nat.zero_le k)) rfl rfl)

/-- The same after the store of a word: the two bytes of the word are read back, and the others are
as before. -/
theorem byte_write16 (v : BitVec 16) (hj : j + 2 ≤ 2 ^ 32) (hk : k < 2 ^ 32) :
    (m.write16 (base + BitVec.ofNat 32 j) v).byte base k =
      if j ≤ k ∧ k < j + 2 then v.extractLsb' (8 * (k - j)) 8 else m.byte base k :=
  byte_splice hj Nat.two_pos hk

/-- The same after the store of a dword. -/
theorem byte_write32 (v : Word) (hj : j + 4 ≤ 2 ^ 32) (hk : k < 2 ^ 32) :
    (m.write32 (base + BitVec.ofNat 32 j) v).byte base k =
      if j ≤ k ∧ k < j + 4 then v.extractLsb' (8 * (k - j)) 8 else m.byte base k := by
  rw [write32_eq_splice]
  exact byte_splice hj (by omega) hk

/-- The same after a fill. One of no bytes would be a fill of 4 GiB by this formula, and `hn`
excludes it. -/
theorem byte_fill (v : BitVec 8) (hj : j + n ≤ 2 ^ 32) (hn : 0 < n) (hk : k < 2 ^ 32) :
    (m.fill (base + BitVec.ofNat 32 j) n v).byte base k =
      if j ≤ k ∧ k < j + n then v else m.byte base k :=
  byte_splice hj hn hk

/-- Offsets add up, also where the sum goes round the end of the address space. -/
theorem add_ofNat_add (base : Word) (i j : Nat) :
    base + BitVec.ofNat 32 i + BitVec.ofNat 32 j = base + BitVec.ofNat 32 (i + j) := by
  rw [BitVec.ofNat_add]
  grind

/-- A byte of an object inside another is a byte of the outer one. -/
theorem byte_add (m : Mem) (base : Word) (i k : Nat) :
    m.byte (base + BitVec.ofNat 32 i) k = m.byte base (i + k) := by
  unfold byte
  rw [add_ofNat_add]

/-- A word is read from its two bytes, the low one first. -/
theorem read16_eq_byte (m : Mem) (a : Word) : m.read16 a = m.byte a 1 ++ m.byte a 0 := by
  unfold read16 byte
  rw [BitVec.add_zero]

/-- A dword is read from its four bytes. -/
theorem read32_eq_byte (m : Mem) (a : Word) :
    m.read32 a = m.byte a 3 ++ m.byte a 2 ++ m.byte a 1 ++ m.byte a 0 := by
  unfold read32 byte
  rw [BitVec.add_zero]

/-- The bytes of a dword, by the dword that is read at their address. -/
theorem byte_eq_read32 (m : Mem) (a : Word) {i : Nat} (hi : i < 4) :
    m.byte a i = (m.read32 a).extractLsb' (8 * i) 8 := by
  rw [read32_eq_byte]
  apply BitVec.eq_of_getLsbD_eq
  intro t ht
  rw [BitVec.getLsbD_extractLsb', BitVec.getLsbD_append, BitVec.getLsbD_append,
    BitVec.getLsbD_append]
  rcases i with _ | _ | _ | _ | i
  · simp [ht]
  · simp [ht, show ¬ 8 + t < 8 by omega]
  · simp [ht, show ¬ 16 + t < 8 by omega, show ¬ 16 + t - 8 < 8 by omega,
      show 16 + t - 8 - 8 = t by omega]
  · simp [ht, show ¬ 24 + t < 8 by omega, show ¬ 24 + t - 8 < 8 by omega,
      show ¬ 24 + t - 8 - 8 < 8 by omega, show 24 + t - 8 - 8 - 8 = t by omega]
  · omega

/-- Its low word. -/
theorem read16_eq_read32 (m : Mem) (a : Word) : m.read16 a = (m.read32 a).setWidth 16 := by
  rw [read16_eq_byte, read32_eq_byte]
  apply BitVec.eq_of_getLsbD_eq
  intro t ht
  rw [BitVec.getLsbD_setWidth, BitVec.getLsbD_append, BitVec.getLsbD_append,
    BitVec.getLsbD_append, BitVec.getLsbD_append]
  by_cases hlow : t < 8
  · simp [hlow, ht]
  · simp [hlow, ht, show t - 8 < 8 by omega]

/-- A word of an object is the two bytes at its offset. -/
theorem read16_add (m : Mem) (base : Word) (k : Nat) :
    m.read16 (base + BitVec.ofNat 32 k) = m.byte base (k + 1) ++ m.byte base k := by
  rw [read16_eq_byte, byte_add, byte_add]
  rfl

/-- The two bytes of a word, the higher first. -/
theorem extractLsb'_append16 (v : BitVec 16) : v.extractLsb' 8 8 ++ v.extractLsb' 0 8 = v := by
  apply BitVec.eq_of_getLsbD_eq
  intro i hi
  rw [BitVec.getLsbD_append, BitVec.getLsbD_extractLsb', BitVec.getLsbD_extractLsb']
  by_cases hlow : i < 8
  · simp [hlow]
  · simp [hlow, show i - 8 < 8 by omega, show 8 + (i - 8) = i by omega]

@[simp] theorem read16_write16_same (m : Mem) (a : Word) (v : BitVec 16) :
    (m.write16 a v).read16 a = v := by
  have hbyte : ∀ k < 2, (m.write16 a v).byte a k = v.extractLsb' (8 * k) 8 := by
    intro k hk
    exact (byte_splice_self m a _ (by decide) (by decide) (by omega)).trans (if_pos hk)
  rw [read16_eq_byte, hbyte 1 (by decide), hbyte 0 (by decide)]
  exact extractLsb'_append16 v

/-- A range replaced in an object is within any range of the object around it. -/
theorem splice_within_object (m : Mem) (base : Word) {e w : Nat} (f : Nat → BitVec 8) (hje : j ≤ e)
    (hew : e + w ≤ j + n) (hfit : j + n < 2 ^ 32) :
    Within (base + BitVec.ofNat 32 j) n m (m.splice (base + BitVec.ofNat 32 e) w f) := by
  refine (splice_within m _ w f).mono ?_
  rw [byte_distance base (by omega) (by omega)]
  omega

/-- To lie apart is mutual. -/
theorem Apart.symm (h : Apart a n b k) : Apart b k a n := by
  intro i hi
  by_contra hlt
  have hplace : a + BitVec.ofNat 32 (b + BitVec.ofNat 32 i - a).toNat = b + BitVec.ofNat 32 i := by
    rw [BitVec.ofNat_toNat, BitVec.setWidth_eq]
    grind
  have hfar := h (b + BitVec.ofNat 32 i - a).toNat (by omega)
  have hdist : b + BitVec.ofNat 32 i - b = BitVec.ofNat 32 i := by grind
  rw [hplace, hdist, BitVec.toNat_ofNat] at hfar
  have hle := Nat.mod_le i (2 ^ 32)
  omega

/-- Of two ranges, one that ends below the other is apart from it, if neither wraps. -/
theorem apart_of_le (h : a.toNat + n ≤ b.toNat ∨ b.toNat + k ≤ a.toNat)
    (ha : a.toNat + n ≤ 2 ^ 32) (hb : b.toNat + k ≤ 2 ^ 32) : Apart a n b k := by
  intro i hi
  rw [BitVec.toNat_sub, BitVec.toNat_add, BitVec.toNat_ofNat]
  omega

/-- A part of a region lies apart from whatever the region lies apart from. -/
theorem Apart.sub (h : Apart base n b k) {w : Nat} (hjw : j + w ≤ n) :
    Apart (base + BitVec.ofNat 32 j) w b k := by
  intro i hi
  rw [add_ofNat_add]
  exact h (j + i) (by omega)

/-- Two ranges of an object that do not overlap are apart, wherever the object is. -/
theorem apart_object (base : Word) {e w : Nat} (h : j + w ≤ e ∨ e + n ≤ j)
    (hj : j + w ≤ 2 ^ 32) (he : e + n ≤ 2 ^ 32) :
    Apart (base + BitVec.ofNat 32 j) w (base + BitVec.ofNat 32 e) n := by
  intro i hi
  by_cases hn : n = 0
  · omega
  · rw [add_ofNat_add, byte_distance base (by omega) (by omega)]
    omega

/-- A range replaced within an object leaves what is apart from the object. -/
theorem Apart.splice (h : Apart a n b k) {e w : Nat} (hew : e + w ≤ n) {x : Word}
    (hx : (x - b).toNat < k) : m.splice (a + BitVec.ofNat 32 e) w f x = m x := by
  apply splice_within
  by_contra hlt
  have hplace : a + BitVec.ofNat 32 (e + (x - (a + BitVec.ofNat 32 e)).toNat) = x := by
    rw [BitVec.ofNat_add, BitVec.ofNat_toNat, BitVec.setWidth_eq]
    grind
  have hfar := h (e + (x - (a + BitVec.ofNat 32 e)).toNat) (by omega)
  rw [hplace] at hfar
  omega

/-- A change elsewhere leaves the bytes of the object, each by its offset. -/
theorem Within.byte (h : Within b n m m') (hapart : Apart base k b n) {i : Nat} (hi : i < k) :
    m'.byte base i = m.byte base i := h _ (hapart i hi)

/-- A word that is apart from what is changed reads as before. -/
theorem Within.read16_apart (h : Within b n m m') (hapart : Apart base k b n) {e : Nat}
    (he : e + 2 ≤ k) :
    m'.read16 (base + BitVec.ofNat 32 e) = m.read16 (base + BitVec.ofNat 32 e) := by
  rw [read16_add, read16_add, h.byte hapart (by omega), h.byte hapart (by omega)]

/-- A dword that is apart from what is changed reads as before. -/
theorem Within.read32_apart (h : Within b n m m') (hapart : Apart base k b n) {e : Nat}
    (he : e + 4 ≤ k) :
    m'.read32 (base + BitVec.ofNat 32 e) = m.read32 (base + BitVec.ofNat 32 e) := by
  rw [read32_eq_byte, read32_eq_byte, byte_add, byte_add, byte_add, byte_add, byte_add, byte_add,
    byte_add, byte_add, h.byte hapart (by omega), h.byte hapart (by omega),
    h.byte hapart (by omega), h.byte hapart (by omega)]

/-- A word of an object of which another part is written. The premises are about offsets. -/
theorem Within.read16_object {e : Nat} (h : Within (base + BitVec.ofNat 32 j) n m m')
    (hne : e + 2 ≤ j ∨ j + n ≤ e) (he : e + 2 ≤ 2 ^ 32) (hj : j + n ≤ 2 ^ 32) :
    m'.read16 (base + BitVec.ofNat 32 e) = m.read16 (base + BitVec.ofNat 32 e) := by
  have hkept := h.read16_apart (apart_object base hne he hj) (e := 0) (by decide)
  rw [BitVec.add_zero] at hkept
  exact hkept

/-- A dword of an object that a change of another part of the object spares. All premises are about
offsets. -/
theorem Within.read32_object {e : Nat} (h : Within (base + BitVec.ofNat 32 j) n m m')
    (hne : e + 4 ≤ j ∨ j + n ≤ e) (he : e + 4 ≤ 2 ^ 32) (hj : j + n ≤ 2 ^ 32) :
    m'.read32 (base + BitVec.ofNat 32 e) = m.read32 (base + BitVec.ofNat 32 e) := by
  have hkept := h.read32_apart (apart_object base hne he hj) (e := 0) (by decide)
  rw [BitVec.add_zero] at hkept
  exact hkept

/-- A dword is the word at its address and the next one above it. -/
theorem read32_eq_read16 (m : Mem) (a : Word) :
    m.read32 a = m.read16 (a + 2#32) ++ m.read16 a := by
  have hhigh := read16_add m a 2
  rw [show BitVec.ofNat 32 2 = 2#32 from rfl] at hhigh
  rw [hhigh, read16_eq_byte, read32_eq_byte, BitVec.append_assoc]
  rfl

/-- A dword that is written as two words, the lower one first, reads back as one. -/
theorem read32_write16_write16 (m : Mem) (a : Word) (low high : BitVec 16) :
    ((m.write16 a low).write16 (a + 2#32) high).read32 a = high ++ low := by
  have hwithin := splice_within (m.write16 a low) (a + BitVec.ofNat 32 2) 2
    fun i => high.extractLsb' (8 * i) 8
  have hlow := hwithin.read16_object (e := 0) (by decide) (by decide) (by decide)
  rw [BitVec.add_zero] at hlow
  rw [read32_eq_read16, read16_write16_same]
  exact congrArg (high ++ ·) (hlow.trans (read16_write16_same m a low))

end OS90.Ia32.Mem
