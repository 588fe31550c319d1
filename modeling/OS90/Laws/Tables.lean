import OS90.Kernel.Ia32
import OS90.Kernel.Ia32Struct
import OS90.Kernel.V86

/-!
# The processor's tables

What the processor reads in the tables that the kernel builds for it: a gate of the IDT, a
descriptor of the GDT, and a bit of the map of ports. Each law is stated over the decoding the
processor does, and not over the constants the kernel has put there.

`GateDescriptor.decode` is the processor's whole reading of an entry of the IDT, the privilege level
with it, and `gateOf_eq_gate` says that what the delivery of interrupts goes by is part of it.
`GateLaw` is what the two macros are for: the entry decodes to the gate that was asked for, and
every other entry is as it was.

`MkIntrGate` keeps it. `MkTrapGate` names the interrupt gate's type, and shifts the privilege level
one place short, into the bit that makes a descriptor one of a segment, so it never does
(`gateLaw_iff`).

`DescriptorLaw` is what the processor should read in each entry of the GDT once `InitIA32` has run:
the task state segment and the LDT where they are and of their size, and flat segments of code and
data for the kernel and for user programs. `BaseLaw` is what setting a base should do.

Setting a base is right at every address. In the table three entries are wrong: `ACCESS_RIGHTS`
shifts the ring one place too far, which makes ring 2 of ring 3, and the limit of the LDT is its
number of entries and not its size.

`COMPLETE_TSS` carries two maps, one that allows every port and one that denies it, and a word that
should choose between them. `PortLaw` is that the choice works for a port: with one offset in the
word the processor lets a program without I/O privilege at it, and with the other it does not.

The structure has no field for the trap word at byte 100, so the offset is stored where the
processor does not look for it, and the word it does look at is the beginning of the first map:
zero. The map the processor uses is therefore the structure itself from its first byte, and the
choice makes a difference to it in one bit only, a bit of the offset (`portLaw_iff`).
-/

namespace OS90.Laws

open OS90.Ia32 OS90.Ia32.Cpu OS90.Kernel

/-! ## Gates -/

/-- An entry of the IDT as the processor reads it. -/
structure GateDescriptor where
  selector : Selector
  offset : Word
  /-- The type, under the bit that tells segments from system descriptors. -/
  type : BitVec 5
  dpl : BitVec 2
  present : Bool
deriving DecidableEq, Repr

namespace GateDescriptor

def decode (d : INTERRUPT_DESCRIPTOR) : GateDescriptor where
  selector := d.selector
  offset := d.offset16_31 ++ d.offset15_0
  type := d.attr.extractLsb' 0 5
  dpl := d.attr.extractLsb' 5 2
  present := d.attr.getLsbD 7

/-- What an interrupt through the entry goes by. -/
def gate (g : GateDescriptor) : Option Gate :=
  if g.present = true ∧ (g.type = 0x0E#5 ∨ g.type = 0x0F#5) then
    some ⟨g.selector, g.offset, decide (g.type = 0x0E#5)⟩
  else none

end GateDescriptor

/-- The gate that the processor takes from a descriptor, and the one that its fields say, are
one. -/
theorem gateOf_eq_gate (d : INTERRUPT_DESCRIPTOR) : gateOf d = (GateDescriptor.decode d).gate := by
  have hattr : ∀ attr : BYTE, (attr.getLsbD 7 = true ∧ attr &&& 0x1E#8 = 0x0E#8 ↔
      attr.getLsbD 7 = true ∧ (attr.extractLsb' 0 5 = 0x0E#5 ∨ attr.extractLsb' 0 5 = 0x0F#5)) ∧
      (attr.getLsbD 7 = true ∧ attr &&& 0x1E#8 = 0x0E#8 →
        (!attr.getLsbD 0) = decide (attr.extractLsb' 0 5 = 0x0E#5)) := by decide
  obtain ⟨hiff, htype⟩ := hattr d.attr
  unfold gateOf GateDescriptor.gate GateDescriptor.decode
  by_cases hpresent : d.attr.getLsbD 7 = true ∧ d.attr &&& 0x1E#8 = 0x0E#8
  · rw [if_pos hpresent, if_pos (hiff.mp hpresent), htype hpresent]
  · rw [if_neg hpresent, if_neg fun h => hpresent (hiff.mpr h)]

/-- A use of one of the macros. The privilege level is 0 to 3. -/
inductive GateRequest where
  | trap (vector : BYTE) (dpl : BitVec 2) (address : PTR)
  | intr (vector : BYTE) (address : PTR)

namespace GateRequest

def vector : GateRequest → BYTE
  | .trap vector _ _ => vector
  | .intr vector _ => vector

/-- The table after it. -/
def make (idt : IDT) : GateRequest → IDT
  | .trap vector dpl address => mkTrapGate vector (dpl.setWidth 8) address idt
  | .intr vector address => mkIntrGate vector address idt

/-- The gate asked for: a trap gate for its privilege level, or an interrupt gate for ring 0. -/
def wanted : GateRequest → GateDescriptor
  | .trap _ dpl address => ⟨GDT_KCODE <<< 3, address, 0x0F, dpl, true⟩
  | .intr _ address => ⟨GDT_KCODE <<< 3, address, 0x0E, 0, true⟩

def address : GateRequest → PTR
  | .trap _ _ address => address
  | .intr _ address => address

/-- It is `MkIntrGate`. -/
def isIntr : GateRequest → Bool
  | .trap _ _ _ => false
  | .intr _ _ => true

end GateRequest

/-- The vector's entry is the gate asked for, and no other entry has changed. -/
def GateLaw (idt : IDT) (r : GateRequest) : Prop :=
  GateDescriptor.decode (r.make idt r.vector) = r.wanted ∧
    ∀ v, v ≠ r.vector → r.make idt v = idt v

/-- An interrupt through the gate that was asked for comes to its address, and it is off there if
the gate is an interrupt gate. -/
theorem GateLaw.gateOf_make {idt : IDT} {r : GateRequest} (h : GateLaw idt r) :
    gateOf (r.make idt r.vector) = some ⟨8#16, r.address, r.isIntr⟩ := by
  rw [gateOf_eq_gate, h.1]
  cases r <;> rfl

/-- Selector and offset of a gate are right whatever the attributes are, which the two macros differ
in. -/
theorem decode_descriptor (attr : BYTE) (address : PTR) :
    GateDescriptor.decode (descriptor attr address) =
      ⟨GDT_KCODE <<< 3, address, attr.extractLsb' 0 5, attr.extractLsb' 5 2, attr.getLsbD 7⟩ := by
  unfold GateDescriptor.decode descriptor
  rw [offset_halves]

/-- What `MkTrapGate` makes: the type is the interrupt gate's, the low bit of the privilege level
falls on top of it, and the high bit is where the low one should be. -/
theorem decode_mkTrapGate (vector : BYTE) (dpl : BitVec 2) (address : PTR) (idt : IDT) :
    GateDescriptor.decode (mkTrapGate vector (dpl.setWidth 8) address idt vector) =
      ⟨GDT_KCODE <<< 3, address, dpl.setWidth 5 <<< 4 ||| 0x0E#5, dpl >>> 1, true⟩ := by
  have hattr : ∀ dpl : BitVec 2,
      (0x80 ||| dpl.setWidth 8 <<< 4 ||| IDT_INT386).extractLsb' 0 5 =
          dpl.setWidth 5 <<< 4 ||| 0x0E#5 ∧
        (0x80 ||| dpl.setWidth 8 <<< 4 ||| IDT_INT386).extractLsb' 5 2 = dpl >>> 1 ∧
        (0x80 ||| dpl.setWidth 8 <<< 4 ||| IDT_INT386).getLsbD 7 = true := by decide
  obtain ⟨htype, hdpl, hpresent⟩ := hattr dpl
  rw [mkTrapGate, setIntVector, Function.update_self, decode_descriptor, htype, hdpl, hpresent]

/-- `MkIntrGate` makes an interrupt gate of ring 0 for every vector and address. -/
theorem decode_mkIntrGate (vector : BYTE) (address : PTR) (idt : IDT) :
    GateDescriptor.decode (mkIntrGate vector address idt vector) =
      ⟨GDT_KCODE <<< 3, address, 0x0E, 0, true⟩ := by
  rw [mkIntrGate, setIntVector, Function.update_self, decode_descriptor]
  rfl

/-- Neither macro touches the entry of another vector. -/
theorem make_of_ne (idt : IDT) (r : GateRequest) {v : BYTE} (hv : v ≠ r.vector) :
    r.make idt v = idt v := by
  cases r with
  | trap vector dpl address => exact Function.update_of_ne hv _ idt
  | intr vector address => exact Function.update_of_ne hv _ idt

/-- For every table, vector, privilege level and address: the macro makes the gate it is asked for,
and only that one, exactly when it is `MkIntrGate`. Selector, offset, level and presence are right
for both macros, and the type alone is not. -/
theorem gateLaw_iff (idt : IDT) (r : GateRequest) : GateLaw idt r ↔ r.isIntr = true := by
  cases r with
  | trap vector dpl address =>
    refine iff_of_false (fun hlaw => ?_) Bool.false_ne_true
    have htype : ∀ dpl : BitVec 2, dpl.setWidth 5 <<< 4 ||| 0x0E#5 ≠ 0x0F#5 := by decide
    have hmade := (decode_mkTrapGate vector dpl address idt).symm.trans hlaw.1
    exact htype dpl (congrArg GateDescriptor.type hmade)
  | intr vector address =>
    exact iff_of_true ⟨decode_mkIntrGate vector address idt, fun v => make_of_ne idt _⟩ rfl

/-- The gate that is made for a divide error is of the type that turns interrupts off. -/
theorem gateLaw_divide : ¬ GateLaw IDT.zero (.trap 0 0 0xC0100000) := by
  intro hlaw
  have hmade := (decode_mkTrapGate 0 0 0xC0100000 .zero).symm.trans hlaw.1
  exact absurd (congrArg GateDescriptor.type hmade) (by decide)

/-! ## Descriptors -/

/-- What the entry should say. -/
def DescriptorLaw (base : PTR) (m : Mem) (g : GdtEntry) : Prop :=
  let d := m.descriptor (gdtEntry base g)
  match g with
  | .tssd => d.base = tssAt base ∧ d.limit = sizeofTss - 1
  | .ldt => d.base = ldtAt base ∧ ∀ j < LDT_SIZE, 8 * j + 7 ≤ d.limit
  | .kcode => d.isCode = true ∧ d.dpl = 0 ∧ d.Flat
  | .kdata => d.isData = true ∧ d.dpl = 0 ∧ d.Flat
  | .ucode => d.isCode = true ∧ d.dpl = 3 ∧ d.Flat
  | .udata => d.isData = true ∧ d.dpl = 3 ∧ d.Flat
  | .null | .pnpcs | .pnpOsDs | .pnpBiosDs => True

/-- A routine gives an entry its base, and changes no other field of it and no other descriptor. -/
def BaseLaw (g : GdtEntry) (set : PTR → PTR → StructSite → Machine → Machine) : Prop :=
  ∀ ret address site m,
    (∀ h, (set ret address site m).mem.descriptor (gdtEntry site.base h) =
      if h = g then { m.mem.descriptor (gdtEntry site.base h) with base := address }
      else m.mem.descriptor (gdtEntry site.base h)) ∧
    (∀ j < LDT_SIZE, (set ret address site m).mem.descriptor
        (ldtAt site.base + BitVec.ofNat 32 (8 * j)) =
      m.mem.descriptor (ldtAt site.base + BitVec.ofNat 32 (8 * j))) ∧
    idtTable site.base (set ret address site m).mem = idtTable site.base m.mem

/-- The entries that are wrong. -/
def Misdescribed (g : GdtEntry) : Prop := g = .ucode ∨ g = .udata ∨ g = .ldt

/-- `SetGdtBase` leaves the base it is called with, for each entry of the GDT. -/
theorem setGdtBase_law (g : GdtEntry) : BaseLaw g (setGdtBase g) := by
  intro ret address site m
  have hg := g.val_lt
  have hkeep : ∀ k, 80 ≤ k → k < sizeofIa32Struct →
      (setGdtBase g ret address site m).mem.byte site.base k = m.mem.byte site.base k :=
    fun k hlow hk => setGdtBase_outside g ret address site m hk (Or.inr (by omega))
  refine ⟨fun h => setGdtBase_descriptor g ret address site m h, fun j hj => ?_, ?_⟩
  · unfold LDT_SIZE at hj
    refine Mem.descriptor_congr fun i hi => ?_
    unfold ldtAt ldtOffset GDT_ENTRIES
    rw [Mem.add_ofNat_add, Mem.byte_add, Mem.byte_add]
    exact hkeep _ (by omega) (by rw [sizeofIa32Struct_eq]; omega)
  · funext w
    have hw := w.isLt
    have hentry : ∀ i < 8, (setGdtBase g ret address site m).mem.byte (idtEntry site.base w) i =
        m.mem.byte (idtEntry site.base w) i := by
      intro i hi
      unfold idtEntry idtOffset ldtOffset LDT_SIZE GDT_ENTRIES
      rw [Mem.byte_add, Mem.byte_add]
      exact hkeep _ (by omega) (by rw [sizeofIa32Struct_eq]; omega)
    exact idtTable_congr hentry

/-- The four segments as they are: code or data, with their ring, and whether they are flat. Those
of the user have ring 2. -/
theorem segments_static :
    ((gdtStatic .kcode).isCode = true ∧ (gdtStatic .kcode).dpl = 0 ∧ (gdtStatic .kcode).Flat) ∧
      ((gdtStatic .kdata).isData = true ∧ (gdtStatic .kdata).dpl = 0 ∧ (gdtStatic .kdata).Flat) ∧
        (gdtStatic .ucode).dpl = 2 ∧ (gdtStatic .udata).dpl = 2 := by
  decide

/-- Both limits are one less than the size of what they are for. -/
theorem limits_static :
    (gdtStatic .tssd).limit = sizeofTss - 1 ∧ (gdtStatic .ldt).limit = LDT_SIZE - 1 := by
  decide

/-- `InitIA32` describes every object but those three as the law asks, wherever the structure is. -/
theorem descriptorLaw_gdtAfterInit {base : PTR} {m : Mem} {g : GdtEntry}
    (h : m.descriptor (gdtEntry base g) = gdtAfterInit base g) :
    DescriptorLaw base m g ↔ ¬ Misdescribed g := by
  obtain ⟨hkcode, hkdata, hucode, hudata⟩ := segments_static
  obtain ⟨htssd, hldt⟩ := limits_static
  have hring : (2 : BitVec 2) ≠ 3 := by decide
  unfold DescriptorLaw Misdescribed
  dsimp only
  rw [h]
  cases g with
  | null => exact iff_of_true trivial (by decide)
  | kcode => exact iff_of_true hkcode (by decide)
  | kdata => exact iff_of_true hkdata (by decide)
  | ucode => exact iff_of_false (fun hlaw => hring (hucode.symm.trans hlaw.2.1)) (by decide)
  | udata => exact iff_of_false (fun hlaw => hring (hudata.symm.trans hlaw.2.1)) (by decide)
  | tssd =>
    have hlimit : (gdtAfterInit base .tssd).limit = (gdtStatic .tssd).limit :=
      Descriptor.limit_congr rfl rfl
    refine iff_of_true ⟨rfl, ?_⟩ (by decide)
    rw [hlimit, htssd]
  | ldt =>
    refine iff_of_false (fun hlaw => ?_) (by decide)
    -- the limit admits the first thousand descriptors and not the next
    have hlimit : (gdtAfterInit base .ldt).limit = LDT_SIZE - 1 :=
      (Descriptor.limit_congr rfl rfl).trans hldt
    have hsize : LDT_SIZE = 8192 := rfl
    have hlast := hlaw.2 1024 (by omega)
    omega
  | pnpcs => exact iff_of_true trivial (by decide)
  | pnpOsDs => exact iff_of_true trivial (by decide)
  | pnpBiosDs => exact iff_of_true trivial (by decide)

/-- For every place of `_ia32_struct` and every machine: `InitIA32` runs, and afterwards an entry
describes its object exactly when it is none of the user segments and the LDT. Setting a base is
right for every entry and every address, in the general routine and in the three macros. -/
theorem descriptorLaw_iff (layout : Layout) (afterTss afterLdt : PTR) (site : StructSite)
    (m : Machine) :
    (∃ i, initIA32 layout afterTss afterLdt site (site.loaded m) = some i ∧
      ∀ g, DescriptorLaw site.base i.machine.mem g ↔ ¬ Misdescribed g) ∧
    (∀ g, BaseLaw g (setGdtBase g)) ∧ BaseLaw .pnpBiosDs pnSetBiosDsegBase ∧
      BaseLaw .pnpOsDs pnSetOsDsegBase ∧ BaseLaw .pnpcs pnSetBiosCsegBase := by
  obtain ⟨i, hrun, hspec⟩ := initIA32_spec layout afterTss afterLdt site m
  refine ⟨⟨i, hrun, fun g => descriptorLaw_gdtAfterInit (hspec.gdt g)⟩, setGdtBase_law,
    setGdtBase_law _, setGdtBase_law _, setGdtBase_law _⟩

/-- The code segment of a user program is described as one of ring 2. -/
theorem descriptorLaw_ucode : ∃ i, initIA32 Layout.linked 0 0 StructSite.linked
    (StructSite.linked.loaded Machine.idle) = some i ∧
      ¬ DescriptorLaw StructSite.linked.base i.machine.mem .ucode := by
  obtain ⟨i, hrun, hspec⟩ := initIA32_spec Layout.linked 0 0 StructSite.linked Machine.idle
  refine ⟨i, hrun, fun hlaw => ?_⟩
  exact (descriptorLaw_gdtAfterInit (hspec.gdt .ucode)).mp hlaw (Or.inl rfl)

/-! ## The map of ports -/

/-- `_ia32_struct.tss.iobp_off = v`. -/
def setIobpOff (base : PTR) (v : WORD) (m : Mem) : Mem :=
  m.write16 (tssAt base + BitVec.ofNat 32 iobpOffset) v

/-- A port is open with the one offset and closed with the other. -/
def PortLaw (tr : Descriptor) (base : PTR) (m : Mem) (port : WORD) : Prop :=
  ioAllowed tr (setIobpOff base TSS_ALLOW_OFFSET m) port = true ∧
    ioAllowed tr (setIobpOff base TSS_DENY_OFFSET m) port = false

/-- A byte of the task state segment, with any contents of its dwords and an offset. -/
def tssWith (fields : Nat → BYTE) (v : WORD) (k : Nat) : BYTE :=
  if iobpOffset ≤ k ∧ k < iobpOffset + 2 then v.extractLsb' (8 * (k - iobpOffset)) 8
  else if k < iobpOffset then fields k
  else tssAfterInit k

section Port

variable {base : PTR} {m : Mem} (fields : Nat → BYTE) (v : WORD)

/-- The task state segment after the store of the offset of the map, byte by byte. -/
theorem setIobpOff_byte (hm : ∀ k < sizeofTss, m.byte (tssAt base) k = tssAfterInit k) {k : Nat}
    (hk : k < sizeofTss) :
    (setIobpOff base v (m.splice (tssAt base) iobpOffset fields)).byte (tssAt base) k =
      tssWith fields v k := by
  have hk' : k < 2 ^ 32 := Nat.lt_trans hk (by decide)
  have hfields := Mem.byte_splice_self m (tssAt base) fields (by decide : 0 < iobpOffset)
    (by decide) hk'
  rw [hm k hk] at hfields
  unfold setIobpOff tssWith
  rw [Mem.byte_write16 v (by decide) hk', hfields]

/-- The first map is clear in all of its bytes. -/
theorem tssWith_map {k : Nat} (hlow : iopbAllowAll ≤ k) (hhigh : k < iopbDenyAll) :
    tssWith fields v k = 0 := by
  have hoffsets : iobpOffset = 100 ∧ iopbAllowAll = 102 := ⟨rfl, rfl⟩
  unfold tssWith tssAfterInit
  rw [if_neg (by omega), if_neg (by omega), if_neg (by omega), if_neg (by omega)]

/-- Every port is decided by a byte of the segment itself, counted from the offset that was stored
in it. The limit is large enough for all of them. -/
theorem ioAllowed_setIobpOff {tr : Descriptor} (hbase : tr.base = tssAt base)
    (hlimit : tr.limit = sizeofTss - 1)
    (hm : ∀ k < sizeofTss, m.byte (tssAt base) k = tssAfterInit k) (port : WORD) :
    ioAllowed tr (setIobpOff base v (m.splice (tssAt base) iobpOffset fields)) port =
      !(tssWith fields v (port.toNat / 8)).getLsbD (port.toNat % 8) := by
  have hport := port.isLt
  have hsize : sizeofTss = 16486 := rfl
  have hbyte := fun k hk => setIobpOff_byte fields v hm (k := k) hk
  -- the word at byte 102 is the beginning of the first map
  have hmap : ((setIobpOff base v (m.splice (tssAt base) iobpOffset fields)).read16
      (tr.base + 102#32)).toNat = 0 := by
    rw [hbase, Mem.read16_add, hbyte 103 (by omega), hbyte 102 (by omega),
      tssWith_map fields v (by decide) (by decide), tssWith_map fields v (by decide) (by decide)]
    rfl
  rw [ioAllowed_iff hmap (by omega), Nat.zero_add, hbase, hbyte _ (by omega)]

/-- The two offsets differ in one bit of all they reach, the bit of port 813. -/
theorem tssWith_choice (k i : Nat) (hi : i < 8) :
    ((tssWith fields TSS_ALLOW_OFFSET k).getLsbD i = false ∧
      (tssWith fields TSS_DENY_OFFSET k).getLsbD i = true) ↔ k = 101 ∧ i = 5 := by
  have hoffset : iobpOffset = 100 := rfl
  unfold tssWith
  by_cases hin : iobpOffset ≤ k ∧ k < iobpOffset + 2
  · rw [if_pos hin, if_pos hin]
    have hk : k = 100 ∨ k = 101 := by omega
    have hbits : ∀ i < 8,
        (((TSS_ALLOW_OFFSET.extractLsb' 0 8).getLsbD i = false ∧
          (TSS_DENY_OFFSET.extractLsb' 0 8).getLsbD i = true) ↔ False) ∧
        (((TSS_ALLOW_OFFSET.extractLsb' 8 8).getLsbD i = false ∧
          (TSS_DENY_OFFSET.extractLsb' 8 8).getLsbD i = true) ↔ i = 5) := by decide
    rcases hk with rfl | rfl
    · exact (hbits i hi).1.trans ⟨False.elim, fun h => absurd h.1 (by decide)⟩
    · exact (hbits i hi).2.trans (and_iff_right rfl).symm
  · rw [if_neg hin, if_neg hin]
    refine iff_of_false (fun h => ?_) (by omega)
    exact Bool.noConfusion (h.1.symm.trans h.2)

/-- Whether the law of ports holds is a matter of the task state segment that the task register
points to, so that it can be decided from the bytes of it. -/
theorem portLaw_iff_of_tss {tr : Descriptor} (hbase : tr.base = tssAt base)
    (hlimit : tr.limit = sizeofTss - 1)
    (hm : ∀ k < sizeofTss, m.byte (tssAt base) k = tssAfterInit k) (port : WORD) :
    PortLaw tr base (m.splice (tssAt base) iobpOffset fields) port ↔ port = 813#16 := by
  have hchoice := tssWith_choice fields (port.toNat / 8) (port.toNat % 8) (by omega)
  unfold PortLaw
  rw [ioAllowed_setIobpOff fields _ hbase hlimit hm, ioAllowed_setIobpOff fields _ hbase hlimit hm,
    Bool.not_eq_true', Bool.not_eq_false', hchoice]
  constructor
  · intro h
    apply BitVec.eq_of_toNat_eq
    show port.toNat = 813
    omega
  · intro h
    subst h
    decide

end Port

/-- For every place of `_ia32_struct`, every machine, every content of the dwords of the task state
segment and every port: after `InitIA32` the choice between the two maps works for the port exactly
when it is port 813. -/
theorem portLaw_iff (layout : Layout) (afterTss afterLdt : PTR) (site : StructSite) (m : Machine) :
    ∃ i, initIA32 layout afterTss afterLdt site (site.loaded m) = some i ∧
      ∀ (fields : Nat → BYTE) (port : WORD),
        PortLaw i.tr site.base (i.machine.mem.splice (tssAt site.base) iobpOffset fields) port ↔
          port = 813#16 := by
  obtain ⟨i, hrun, hspec⟩ := initIA32_spec layout afterTss afterLdt site m
  obtain ⟨hbase, hlimit⟩ := hspec.tr_base_limit
  exact ⟨i, hrun, fun fields port => portLaw_iff_of_tss fields hbase hlimit hspec.tss port⟩

/-- With every dword of the segment zero, both offsets leave the port of the keyboard open. -/
theorem portLaw_keyboard : ∃ i, initIA32 Layout.linked 0 0 StructSite.linked
    (StructSite.linked.loaded Machine.idle) = some i ∧
      ¬ PortLaw i.tr StructSite.linked.base (i.machine.mem.splice (tssAt StructSite.linked.base)
        iobpOffset fun _ => 0) 0x60#16 := by
  obtain ⟨i, hrun, hspec⟩ := initIA32_spec Layout.linked 0 0 StructSite.linked Machine.idle
  obtain ⟨hbase, hlimit⟩ := hspec.tr_base_limit
  refine ⟨i, hrun, fun hlaw => ?_⟩
  exact absurd ((portLaw_iff_of_tss _ hbase hlimit hspec.tss _).mp hlaw) (by decide)

end OS90.Laws
