import OS90.Ia32.Bytes
import OS90.Ia32.Cpu

/-!
# Segment descriptors and the I/O permission map

The processor's reading of an eight-byte segment descriptor, the registers that are loaded through
one, and the rule by which it lets code without I/O privilege at a port. A descriptor scatters its
base and limit over its bytes; `Descriptor.decode` collects them, and keeps every one of the 64
bits, so that two descriptors with the same decoding are the same bytes.

A load that the processor checks is partial here: `loadData`, `loadStack` and `farJump` answer
nothing where a fault would be raised, and their lemmas say what the descriptor has to be like. The
checks are those of ring 0, which is where the code that is modelled loads its segments. Limits are
checked on the way into a segment, and not for each access to it.
-/

namespace OS90.Ia32

structure Descriptor where
  base : Word
  rawLimit : BitVec 20
  /-- Granularity, operand size and the two bits without a meaning, the first on top. -/
  flags : BitVec 4
  /-- The type, under the bit that tells segments of code and data from system segments. -/
  type : BitVec 5
  dpl : BitVec 2
  present : Bool
deriving DecidableEq, Repr

namespace Descriptor

def decode (b : Nat → BitVec 8) : Descriptor where
  base := b 7 ++ b 4 ++ b 3 ++ b 2
  rawLimit := (b 6).extractLsb' 0 4 ++ b 1 ++ b 0
  flags := (b 6).extractLsb' 4 4
  type := (b 5).extractLsb' 0 5
  dpl := (b 5).extractLsb' 5 2
  present := (b 5).getLsbD 7

/-- The last valid offset: the limit counts bytes, or pages with the granularity bit. -/
def limit (d : Descriptor) : Nat :=
  if d.flags.getLsbD 3 then d.rawLimit.toNat * 4096 + 4095 else d.rawLimit.toNat

def isCode (d : Descriptor) : Bool := d.type.getLsbD 4 && d.type.getLsbD 3

def isData (d : Descriptor) : Bool := d.type.getLsbD 4 && !d.type.getLsbD 3

/-- The segment is all of the address space. -/
def Flat (d : Descriptor) : Prop := d.base = 0 ∧ d.limit = 2 ^ 32 - 1

instance (d : Descriptor) : Decidable d.Flat := inferInstanceAs (Decidable (_ ∧ _))

/-- The limit depends on the raw limit and on the granularity among the flags. -/
theorem limit_congr {d e : Descriptor} (hflags : d.flags = e.flags)
    (hraw : d.rawLimit = e.rawLimit) : d.limit = e.limit := by
  unfold limit
  rw [hflags, hraw]

/-- A descriptor is the eight bytes it is decoded from. -/
theorem decode_congr {b c : Nat → BitVec 8} (h : ∀ i < 8, b i = c i) : decode b = decode c := by
  unfold decode
  rw [h 0 (by decide), h 1 (by decide), h 2 (by decide), h 3 (by decide), h 4 (by decide),
    h 5 (by decide), h 6 (by decide), h 7 (by decide)]

end Descriptor

/-- The descriptor at an address. -/
def Mem.descriptor (m : Mem) (a : Word) : Descriptor := .decode (m.byte a)

/-- The descriptor a selector names in a table. -/
def selected (table : Word) (s : Selector) : Word := table + (s &&& 0xFFF8#16).setWidth 32

/-- `ltr`: an available 386 task state segment goes into the task register and is marked busy. -/
def ltr (gdt : Word) (s : Selector) (m : Mem) : Option (Descriptor × Mem) :=
  let a := selected gdt s
  let d := m.descriptor a
  if d.present = true ∧ d.type = 0x09#5 then some (d, m.write8 (a + 5#32) (m.byte a 5 ||| 2#8))
  else none

/-- `lldt`. -/
def lldt (gdt : Word) (s : Selector) (m : Mem) : Option Descriptor :=
  let d := m.descriptor (selected gdt s)
  if d.present = true ∧ d.type = 0x02#5 then some d else none

/-- Whether code without I/O privilege may access a byte port. The map begins at the offset in the
word at byte 102 of the task state segment, and two bytes of it are read at a time. -/
def ioAllowed (tr : Descriptor) (m : Mem) (port : BitVec 16) : Bool :=
  let place := (m.read16 (tr.base + 102#32)).toNat + port.toNat / 8
  place + 1 ≤ tr.limit && !(m.read16 (tr.base + BitVec.ofNat 32 place)).getLsbD (port.toNat % 8)

/-! ## Tables in registers -/

/-- What `lgdt` and `lidt` load: the last byte of a table, and where it is. -/
structure TableRegister where
  limit : BitVec 16
  base : Word
deriving DecidableEq, Repr

def Mem.tableRegister (m : Mem) (a : Word) : TableRegister := ⟨m.read16 a, m.read32 (a + 2#32)⟩

/-- What `lgdt` reads depends on the six bytes of its operand. -/
theorem Mem.tableRegister_congr {m m' : Mem} {a : Word} (h : ∀ i < 6, m.byte a i = m'.byte a i) :
    m.tableRegister a = m'.tableRegister a := by
  have hplace : a + 2#32 = a + BitVec.ofNat 32 2 := rfl
  unfold Mem.tableRegister
  rw [hplace, Mem.read16_eq_byte, Mem.read16_eq_byte, Mem.read32_eq_byte, Mem.read32_eq_byte,
    Mem.byte_add, Mem.byte_add, Mem.byte_add, Mem.byte_add, Mem.byte_add, Mem.byte_add,
    Mem.byte_add, Mem.byte_add, h 0 (by decide), h 1 (by decide), h (2 + 0) (by decide),
    h (2 + 1) (by decide), h (2 + 2) (by decide), h (2 + 3) (by decide)]

/-- A table register's operand, as a linker puts it in memory. -/
def Mem.storeRegister (m : Mem) (a : Word) (t : TableRegister) : Mem :=
  m.splice a 6 fun i =>
    if i < 2 then t.limit.extractLsb' (8 * i) 8 else t.base.extractLsb' (8 * (i - 2)) 8

/-- What `sgdt` stores is six bytes. -/
theorem Mem.storeRegister_within (m : Mem) (a : Word) (t : TableRegister) :
    Mem.Within a 6 m (m.storeRegister a t) := Mem.splice_within _ _ _ _

/-- What `lgdt` reads from an operand is what was stored there. -/
theorem Mem.tableRegister_storeRegister (m : Mem) (a : Word) (t : TableRegister) :
    (m.storeRegister a t).tableRegister a = t := by
  have hbyte : ∀ i < 6, (m.storeRegister a t).byte a i =
      if i < 2 then t.limit.extractLsb' (8 * i) 8 else t.base.extractLsb' (8 * (i - 2)) 8 := by
    intro i hi
    exact (Mem.byte_splice_self m a _ (by decide) (by decide) (by omega)).trans (if_pos hi)
  have hplace : a + 2#32 = a + BitVec.ofNat 32 2 := rfl
  unfold Mem.tableRegister
  rw [hplace, Mem.read16_eq_byte, Mem.read32_eq_byte, Mem.byte_add, Mem.byte_add, Mem.byte_add,
    Mem.byte_add, hbyte 0 (by decide), hbyte 1 (by decide), hbyte (2 + 0) (by decide),
    hbyte (2 + 1) (by decide), hbyte (2 + 2) (by decide), hbyte (2 + 3) (by decide)]
  exact congrArg₂ TableRegister.mk (Mem.extractLsb'_append16 t.limit)
    (Mem.extractLsb'_append t.base)

/-- The descriptor of a selector, if it is in the table. -/
def TableRegister.descriptor (t : TableRegister) (m : Mem) (s : Selector) : Option Descriptor :=
  if (s &&& 0xFFF8#16).toNat + 7 ≤ t.limit.toNat then some (m.descriptor (selected t.base s))
  else none

namespace Descriptor

/-- Of data, or of code that may be read. -/
def readable (d : Descriptor) : Bool :=
  d.present && d.type.getLsbD 4 && (!d.type.getLsbD 3 || d.type.getLsbD 1)

/-- Of data that may be written, for ring 0. -/
def isStack (d : Descriptor) : Bool := d.present && d.isData && d.type.getLsbD 1 && d.dpl == 0

/-- Of code for ring 0. -/
def runs (d : Descriptor) : Bool := d.present && d.isCode && d.dpl == 0

end Descriptor

namespace Cpu

variable {σ : Type} (gdt : TableRegister) (sel : Selector)

/-- A data segment register loaded in ring 0, if that is no fault. The bit that says a descriptor
has been used is left alone. -/
def loadData (s : Seg) (c : Cpu σ) : Option (Cpu σ) := do
  if sel &&& 0xFFFC#16 = 0 then return c.setSeg s sel
  let d ← gdt.descriptor c.mem sel
  if d.readable then return c.setSeg s sel else none

/-- SS loaded in ring 0. -/
def loadStack (c : Cpu σ) : Option (Cpu σ) := do
  let d ← gdt.descriptor c.mem sel
  if d.isStack then return c.setSeg .ss sel else none

/-- A far jump within ring 0. -/
def farJump (offset : Word) (c : Cpu σ) : Option (Cpu σ) := do
  let d ← gdt.descriptor c.mem sel
  if d.runs && offset.toNat ≤ d.limit then return { c.setSeg .cs sel with eip := offset } else none

variable {gdt sel} {c : Cpu σ} {d : Descriptor}

/-- A data segment register is loaded when the descriptor is there and readable. If not, the
processor faults, and the model has no successor. -/
theorem loadData_eq (s : Seg) (hd : gdt.descriptor c.mem sel = some d) (hread : d.readable = true) :
    c.loadData gdt sel s = some (c.setSeg s sel) := by
  unfold loadData
  split
  · rfl
  · rw [hd]
    exact if_pos hread

/-- SS is loaded when the descriptor is there and is one of a writable segment. -/
theorem loadStack_eq (hd : gdt.descriptor c.mem sel = some d) (hstack : d.isStack = true) :
    c.loadStack gdt sel = some (c.setSeg .ss sel) := by
  unfold loadStack
  rw [hd]
  exact if_pos hstack

/-- A far jump goes through when the descriptor is one of code and the offset is within its
limit. -/
theorem farJump_eq {offset : Word} (hd : gdt.descriptor c.mem sel = some d)
    (hruns : d.runs = true) (hlimit : offset.toNat ≤ d.limit) :
    c.farJump gdt sel offset = some { c.setSeg .cs sel with eip := offset } := by
  unfold farJump
  rw [hd, Option.bind_eq_bind, Option.bind_some, hruns, decide_eq_true hlimit]
  rfl

end Cpu

/-! ## Writes around a descriptor -/

/-- A descriptor depends on its eight bytes of memory only, so that a table moved or written around
keeps it. -/
theorem Mem.descriptor_congr {m m' : Mem} {a : Word} (h : ∀ i < 8, m'.byte a i = m.byte a i) :
    m'.descriptor a = m.descriptor a := Descriptor.decode_congr h

/-- The busy bit is a bit of the type, and to set it leaves every other field of the descriptor. -/
theorem Mem.descriptor_busy (m : Mem) (a : Word) :
    (m.write8 (a + 5#32) (m.byte a 5 ||| 2#8)).descriptor a =
      { m.descriptor a with type := (m.descriptor a).type ||| 2#5 } := by
  have hbits : ∀ b : BitVec 8, (b ||| 2#8).extractLsb' 0 5 = b.extractLsb' 0 5 ||| 2#5 ∧
      (b ||| 2#8).extractLsb' 5 2 = b.extractLsb' 5 2 ∧ (b ||| 2#8).getLsbD 7 = b.getLsbD 7 := by
    decide
  obtain ⟨htype, hdpl, hpresent⟩ := hbits (m.byte a 5)
  unfold descriptor Descriptor.decode
  simp (disch := decide) only [byte_write8, Nat.reduceEqDiff, if_true, if_false, htype, hdpl,
    hpresent]

/-- What `ltr` loads is the descriptor, and what it writes is its busy bit. -/
theorem ltr_eq {gdt : Word} {s : Selector} {m : Mem}
    (hpresent : (m.descriptor (selected gdt s)).present = true)
    (htype : (m.descriptor (selected gdt s)).type = 0x09#5) :
    ltr gdt s m = some (m.descriptor (selected gdt s),
      m.write8 (selected gdt s + 5#32) (m.byte (selected gdt s) 5 ||| 2#8)) := by
  unfold ltr
  dsimp only
  rw [if_pos ⟨hpresent, htype⟩]

/-- `lldt` accepts a descriptor that is present and of the type of an LDT. The premises are its two
checks. -/
theorem lldt_eq {gdt : Word} {s : Selector} {m : Mem}
    (hpresent : (m.descriptor (selected gdt s)).present = true)
    (htype : (m.descriptor (selected gdt s)).type = 0x02#5) :
    lldt gdt s m = some (m.descriptor (selected gdt s)) := by
  unfold lldt
  dsimp only
  rw [if_pos ⟨hpresent, htype⟩]

/-- Whether a port is allowed is decided by one byte of the map, if the limit reaches the byte
behind that. -/
theorem ioAllowed_iff {tr : Descriptor} {m : Mem} {port : BitVec 16} {map : Nat}
    (hmap : (m.read16 (tr.base + 102#32)).toNat = map)
    (hlimit : map + port.toNat / 8 + 1 ≤ tr.limit) :
    ioAllowed tr m port =
      !(m.byte tr.base (map + port.toNat / 8)).getLsbD (port.toNat % 8) := by
  unfold ioAllowed
  dsimp only
  rw [hmap, decide_eq_true hlimit, Bool.true_and, Mem.read16_eq_byte, BitVec.getLsbD_append,
    if_pos (Nat.mod_lt _ (by decide))]
  unfold Mem.byte
  rw [BitVec.add_zero]

end OS90.Ia32
