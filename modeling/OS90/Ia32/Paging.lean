import OS90.Ia32.Bytes
import OS90.Lib.Arith

/-!
# Paging

The two levels of tables that turn a linear address into a physical one. A table is a page of 1024
dwords, `entry` is one of them, and `translate` looks the address up: the directory is found
through CR3, the table through the directory's entry. An access may write, or come from user mode,
if both entries allow it.

An address is a place in each table and an offset in the page, and `forall_linear` trades one for
the other. Tables are pages, so that two of them are the same or apart (`Within.entry`). A window
that does not hold its own tables stays mapped while it is written (`Maps`), and a store through
them is one behind it (`Maps.storePaged`).
-/

namespace OS90.Ia32

/-- The page that CR3 or an entry points to. -/
def frame (w : Word) : Word := w &&& 0xFFFFF000#32

def present (w : Word) : Bool := w.getLsbD 0

def writable (w : Word) : Bool := w.getLsbD 1

def user (w : Word) : Bool := w.getLsbD 2

def dirIndex (la : Word) : Nat := la.toNat / 0x400000

def tableIndex (la : Word) : Nat := la.toNat / 0x1000 % 1024

/-- The frame of an entry is the entry with its twelve low bits shifted out and back. -/
theorem frame_eq_shift (w : Word) : frame w = w >>> 12 <<< 12 :=
  Align.and_not_eq_shift w (show (0xFFF#32).toNat = 2 ^ 12 - 1 from rfl)

/-- As a number it is rounded down to a page. -/
theorem frame_toNat (w : Word) : (frame w).toNat = w.toNat / 4096 * 4096 :=
  Align.and_not_toNat w (show (0xFFF#32).toNat = 2 ^ 12 - 1 from rfl)

/-- An address in a page, less its offset, is the page. -/
theorem frame_add {w : Word} {k : Nat} (hw : w.toNat % 4096 = 0) (hk : k < 4096) :
    frame (w + BitVec.ofNat 32 k) = w := by
  have hlt := w.isLt
  apply BitVec.eq_of_toNat_eq
  rw [frame_toNat, BitVec.toNat_add, BitVec.toNat_ofNat]
  omega

/-- An address on a page boundary is its own frame. -/
theorem frame_eq_self {w : Word} (hw : w.toNat % 4096 = 0) : frame w = w := by
  have hframe := frame_add hw (k := 0) (by decide)
  rw [BitVec.add_zero] at hframe
  exact hframe

/-- The attributes that are added to the address of a page are the low bits of the entry. -/
theorem getLsbD_frame_add {w x : Word} (hw : frame w = w)
    (hx : 0xFFFFF000#32 &&& x = 0#32) {i : Nat} (hi : i < 12) :
    (w + x).getLsbD i = x.getLsbD i := by
  have hand : frame w &&& x = 0#32 := by
    unfold frame
    rw [BitVec.and_assoc, hx, BitVec.and_zero]
  have hlow : (frame w).getLsbD i = false := by
    rw [frame_eq_shift, BitVec.getLsbD_shiftLeft]
    simp [hi]
  rw [← hw, BitVec.add_eq_or_of_and_eq_zero _ _ hand, BitVec.getLsbD_or, hlow, Bool.false_or]

theorem tableIndex_lt (la : Word) : tableIndex la < 1024 := Nat.mod_lt _ (by decide)

theorem dirIndex_lt (la : Word) : dirIndex la < 1024 := by
  have hlt := la.isLt
  unfold dirIndex
  omega

structure Translation where
  address : Word
  write : Bool
  user : Bool
deriving DecidableEq

namespace Mem

/-- Entry `i` of the table at `t`. -/
def entry (m : Mem) (t : Word) (i : Nat) : Word := m.read32 (t + BitVec.ofNat 32 (4 * i))

def translate (m : Mem) (cr3 la : Word) : Option Translation :=
  let d := m.entry (frame cr3) (dirIndex la)
  let p := m.entry (frame d) (tableIndex la)
  if present d && present p then
    some ⟨frame p + BitVec.ofNat 32 (la.toNat % 0x1000), writable d && writable p, user d && user p⟩
  else none

/-- Where the supervisor's write goes. It minds what the tables allow if `wp` of CR0 is set. -/
def target (m : Mem) (wp : Bool) (cr3 la : Word) : Option Word := do
  let t ← m.translate cr3 la
  if t.write || !wp then some t.address else none

/-- A dword stored through the tables. It is a page fault before any byte is written. -/
def storePaged (m : Mem) (wp : Bool) (cr3 la v : Word) : Option Mem := do
  let a₀ ← m.target wp cr3 la
  let a₁ ← m.target wp cr3 (la + 1#32)
  let a₂ ← m.target wp cr3 (la + 2#32)
  let a₃ ← m.target wp cr3 (la + 3#32)
  return m.write8 a₀ (v.extractLsb' 0 8)
    |>.write8 a₁ (v.extractLsb' 8 8)
    |>.write8 a₂ (v.extractLsb' 16 8)
    |>.write8 a₃ (v.extractLsb' 24 8)

/-- The `n` bytes from `la` are mapped to those from `p`, and stay so whatever is written there. -/
def Maps (m : Mem) (cr3 la p : Word) (n : Nat) : Prop :=
  ∀ m', Within p n m m' → ∀ i < n, ∃ u, m'.translate cr3 (la + BitVec.ofNat 32 i) =
    some ⟨p + BitVec.ofNat 32 i, true, u⟩

variable {m m' : Mem} {t : Word} {i j : Nat}

/-! ## Entries -/

/-- An entry of a table after another has been written. The bounds on the indices keep the table
from overlapping itself round the address space. -/
theorem entry_write32 (v : Word) (hi : i < 2 ^ 30) (hj : j < 2 ^ 30) :
    (m.write32 (t + BitVec.ofNat 32 (4 * j)) v).entry t i = if i = j then v else m.entry t i := by
  unfold entry
  by_cases hij : i = j
  · rw [hij, if_pos rfl, read32_write32_same]
  · have hdist := byte_distance t (j := 4 * j) (k := 4 * i) (by omega) (by omega)
    rw [if_neg hij]
    refine read32_write32_apart m v ?_ ?_
    · omega
    · omega

/-- Tables in a row are one array of entries, a page of them each. -/
theorem entry_add (m : Mem) (t : Word) (k i : Nat) :
    m.entry (t + BitVec.ofNat 32 (4096 * k)) i = m.entry t (1024 * k + i) := by
  have hsum : 4096 * k + 4 * i = 4 * (1024 * k + i) := by omega
  unfold entry
  rw [add_ofNat_add, hsum]

/-- A change apart from a table leaves its entries. -/
theorem Within.entry {lo : Word} {n : Nat} (h : Within lo n m m') (hapart : Apart t 4096 lo n)
    (hi : i < 1024) : m'.entry t i = m.entry t i :=
  h.read32_apart hapart (by omega)

/-- A page that is none of the `n` pages from `lo` has no byte in them. -/
theorem page_apart {lo : Word} {n : Nat} (hlo : lo.toNat % 4096 = 0)
    (hfit : lo.toNat + 4096 * n ≤ 2 ^ 32) (w : Word)
    (hne : ∀ k < n, frame w ≠ lo + BitVec.ofNat 32 (4096 * k)) :
    Apart (frame w) 4096 lo (4096 * n) := by
  intro i hi
  have hframe := frame_toNat w
  have hlt := (frame w).isLt
  by_contra hin
  rw [BitVec.toNat_sub, BitVec.toNat_add, BitVec.toNat_ofNat] at hin
  refine hne (((frame w).toNat - lo.toNat) / 4096) (by omega) ?_
  apply BitVec.eq_of_toNat_eq
  rw [BitVec.toNat_add, BitVec.toNat_ofNat]
  omega

/-! ## Addresses -/

/-- Every pair of places in the two levels is that of some address, so that a statement about all
addresses is one about all pairs. -/
theorem forall_linear (P : Nat → Nat → Prop) :
    (∀ la, P (dirIndex la) (tableIndex la)) ↔ ∀ i < 1024, ∀ j < 1024, P i j := by
  constructor
  · intro h i hi j hj
    have hla := h (BitVec.ofNat 32 (0x400000 * i + 0x1000 * j))
    have hdir : dirIndex (BitVec.ofNat 32 (0x400000 * i + 0x1000 * j)) = i := by
      unfold dirIndex
      rw [BitVec.toNat_ofNat]
      omega
    have htable : tableIndex (BitVec.ofNat 32 (0x400000 * i + 0x1000 * j)) = j := by
      unfold tableIndex
      rw [BitVec.toNat_ofNat]
      omega
    rw [hdir, htable] at hla
    exact hla
  · intro h la
    exact h _ (dirIndex_lt la) _ (tableIndex_lt la)

/-- An address faults if its directory entry is not present, or if that is and the entry of the
table is not. -/
theorem translate_eq_none_iff (m : Mem) (cr3 la : Word) :
    m.translate cr3 la = none ↔
      (present (m.entry (frame cr3) (dirIndex la)) = true →
        present (m.entry (frame (m.entry (frame cr3) (dirIndex la))) (tableIndex la)) = false) := by
  unfold translate
  dsimp only
  cases present (m.entry (frame cr3) (dirIndex la)) <;>
    cases present (m.entry (frame (m.entry (frame cr3) (dirIndex la))) (tableIndex la)) <;> simp

/-- Of CR3, only the address of the page counts. -/
theorem translate_congr_frame (m : Mem) {cr3 cr3' : Word} (h : frame cr3 = frame cr3') (la : Word) :
    m.translate cr3 la = m.translate cr3' la := by
  unfold translate
  rw [h]

/-- A change outside the directory and the table that are looked into leaves a translation. -/
theorem Within.translate {lo : Word} {n : Nat} {cr3 la : Word} (h : Within lo n m m')
    (hdir : Apart (frame cr3) 4096 lo n)
    (htable : Apart (frame (m.entry (frame cr3) (dirIndex la))) 4096 lo n) :
    m'.translate cr3 la = m.translate cr3 la := by
  unfold Mem.translate
  dsimp only
  rw [h.entry hdir (dirIndex_lt la), h.entry htable (tableIndex_lt la)]

/-- An address is translated by the entry of its table, when the directory and the table have it
present. -/
theorem translate_page {cr3 la d w x : Word} (hd : m.entry (frame cr3) (dirIndex la) = d)
    (hp : m.entry (frame d) (tableIndex la) = w + x) (hw : w.toNat % 4096 = 0)
    (hx : 0xFFFFF000#32 &&& x = 0#32) (hdp : present d = true) (hxp : present x = true) :
    m.translate cr3 la = some ⟨w + BitVec.ofNat 32 (la.toNat % 0x1000),
      writable d && writable x, user d && user x⟩ := by
  have hbits := fun {b : Nat} (hb : b < 12) =>
    getLsbD_frame_add (w := w) (x := x) (frame_eq_self hw) hx hb
  have hattributes : present (w + x) = present x ∧ writable (w + x) = writable x ∧
      user (w + x) = user x := ⟨hbits (by decide), hbits (by decide), hbits (by decide)⟩
  obtain ⟨hpresent, hwritable, huser⟩ := hattributes
  have hpage : frame (w + x) = w := by
    have hsmall : x.toNat < 4096 := by
      have hzero : frame x = 0#32 := (BitVec.and_comm _ _).trans hx
      have hnat := frame_toNat x
      rw [hzero] at hnat
      have hnat' : 0 = x.toNat / 4096 * 4096 := hnat
      omega
    have hframe := frame_add hw hsmall
    rw [BitVec.ofNat_toNat, BitVec.setWidth_eq] at hframe
    exact hframe
  unfold translate
  dsimp only
  rw [hd, hp, hdp, hpresent, hxp, hwritable, huser, hpage]
  rfl

/-! ## Stores -/

section Maps

variable {cr3 la p : Word} {n : Nat}

/-- A window stays mapped when memory changes inside the pages that it maps, which is what `Maps`
asks of it. One that held its own tables would not. -/
theorem Maps.within (h : m.Maps cr3 la p n) (hwithin : Within p n m m') : m'.Maps cr3 la p n :=
  fun m'' hm'' => h m'' (hwithin.trans hm'')

/-- A byte of a window is at the same offset from the physical address, also for a supervisor that
obeys the write protection. -/
theorem Maps.target (h : m.Maps cr3 la p n) (wp : Bool) (hi : i < n) :
    m.target wp cr3 (la + BitVec.ofNat 32 i) = some (p + BitVec.ofNat 32 i) := by
  obtain ⟨u, hu⟩ := h m (Within.refl p n m) i hi
  unfold Mem.target
  rw [hu]
  rfl

/-- Four bytes in a row are a dword. -/
theorem write8_write8 (a v : Word) :
    ((((m.write8 a (v.extractLsb' 0 8)).write8 (a + 1#32) (v.extractLsb' 8 8)).write8 (a + 2#32)
      (v.extractLsb' 16 8)).write8 (a + 3#32) (v.extractLsb' 24 8)) = m.write32 a v := by
  have hbyte : ∀ (m : Mem) (b : Word) (j : Nat), m.write8 b (v.extractLsb' (8 * j) 8) =
      m.splice b 1 fun i => v.extractLsb' (8 * (j + i)) 8 := by
    intro m b j
    refine splice_congr_bytes m b fun i hi => ?_
    rw [Nat.lt_one_iff.mp hi, Nat.add_zero]
  rw [hbyte m a 0, hbyte _ _ 1, hbyte _ _ 2, hbyte _ _ 3, write32_eq_splice]
  simp only [Nat.zero_add]
  let f := fun i => v.extractLsb' (8 * i) 8
  rw [splice_splice (j := 1) (n := 1) m a f (by decide),
    splice_splice (j := 2) (n := 1) m a f (by decide),
    splice_splice (j := 3) (n := 1) m a f (by decide)]

/-- A store through the window is a store to the bytes that are mapped, at the same offset. -/
theorem Maps.storePaged (h : m.Maps cr3 la p n) (wp : Bool) (v : Word) (hi : i + 4 ≤ n) :
    m.storePaged wp cr3 (la + BitVec.ofNat 32 i) v =
      some (m.write32 (p + BitVec.ofNat 32 i) v) := by
  have hnext : ∀ j < 4, m.target wp cr3 (la + BitVec.ofNat 32 i + BitVec.ofNat 32 j) =
      some (p + BitVec.ofNat 32 i + BitVec.ofNat 32 j) := by
    intro j hj
    rw [add_ofNat_add, add_ofNat_add]
    exact h.target wp (by omega)
  unfold Mem.storePaged
  rw [h.target wp (by omega), hnext 1 (by decide), hnext 2 (by decide), hnext 3 (by decide),
    ← write8_write8 (p + BitVec.ofNat 32 i) v]
  rfl

end Maps

end Mem

end OS90.Ia32
