import Mathlib.Data.Nat.Find
import OS90.Kernel.PnpBios

/-!
# The plug-and-play BIOS, found and called

Two laws, of the installation check and of a call with arguments.

`SetupLaw` is the search as the BIOS specification has it: the ROM is looked through in steps of
2 KiB for a signature, nothing outside of it is read, the two descriptors get the bases in the first
structure found, and without one the call fails and leaves the GDT alone.

The scan takes whatever is first in the ROM for the structure, so that the law holds of a ROM with
a signature whose first structure has the bases that are found there (`setupLaw_iff`).

`PnCallBiosInternal` has the argument count in EAX and the arguments, as dwords, above its return
address. `BiosCallLaw` is what its comments promise for a count that is not zero: the BIOS is
called, with the low words of the arguments in order above the return address, and the routine
returns, with the status of the BIOS in EAX and ESI and the stack as they were.

The loop that narrows the arguments leaves its counter alone. It is never left, so that the BIOS is
not called and there is no return, whatever the count and the arguments are (`not_biosCallLaw`).
-/

namespace OS90.Laws

open OS90.Ia32 OS90.Ia32.Cpu OS90.Kernel

/-! ## The installation check -/

/-- A machine, the kernel's tables and stack outside of the ROM, and what is in the variable that is
not initialised. -/
structure PnpEntry where
  m : Machine
  site : StructSite
  supportsPnp : BOOL
  afterDseg : PTR
  afterCseg : PTR
  stackApart : Mem.Apart pnpRom 0x10000 (site.esp - 16#32) 16
  structApart : Mem.Apart pnpRom 0x10000 site.base sizeofIa32Struct

/-- Where a structure can begin. -/
def pnpPlace (k : Nat) : PTR := pnpRom + BitVec.ofNat 32 (0x800 * k)

/-- The four bytes `$PnP`. -/
def HasSignature (m : Mem) (k : Nat) : Prop :=
  m.byte (pnpPlace k) 0 = 0x24 ∧ m.byte (pnpPlace k) 1 = 0x50 ∧ m.byte (pnpPlace k) 2 = 0x6E ∧
    m.byte (pnpPlace k) 3 = 0x50

instance (m : Mem) (k : Nat) : Decidable (HasSignature m k) := inferInstanceAs (Decidable (_ ∧ _))

/-- The lowest place with the signature. -/
def FirstSignature (m : Mem) (k : Nat) : Prop :=
  k < 32 ∧ HasSignature m k ∧ ∀ j < k, ¬ HasSignature m j

/-- The two bases of a structure. -/
def codeBase (m : Mem) (k : Nat) : DWORD :=
  m.read32 (pnpPlace k + BitVec.ofNat 32 protectedBaseOffset)

def dataBase (m : Mem) (k : Nat) : DWORD :=
  (m.read16 (pnpPlace k + BitVec.ofNat 32 protectedDataBaseOffset)).setWidth 32

namespace PnpEntry

variable (e : PnpEntry)

/-- The GDT. -/
def gdt (m : Machine) (g : GdtEntry) : Descriptor := m.mem.descriptor (gdtEntry e.site.base g)

/-- The GDT with the bases of the structure at a place. -/
def gdtWith (k : Nat) (g : GdtEntry) : Descriptor :=
  if g = .pnpcs then { e.gdt e.m g with base := codeBase e.m.mem k }
  else if g = .pnpBiosDs then { e.gdt e.m g with base := dataBase e.m.mem k }
  else e.gdt e.m g

end PnpEntry

/-- What `SetupPnP` is to do. -/
def SetupLaw (e : PnpEntry) : Prop :=
  ∃ rounds r, setupPnP rounds e.supportsPnp e.afterDseg e.afterCseg e.site e.m = some r ∧
    (∀ a n, (a, n) ∈ r.reads → pnpRom.toNat ≤ a.toNat ∧ a.toNat + n ≤ 0x100000) ∧
    (∀ k, FirstSignature e.m.mem k → r.status = .osOk ∧ ∀ g, e.gdt r.machine g = e.gdtWith k g) ∧
    ((∀ k < 32, ¬ HasSignature e.m.mem k) →
      r.status = .osFeatureNotSupported ∧ ∀ g, e.gdt r.machine g = e.gdt e.m g)

/-! ## What it does -/

/-- The first place is the start of the ROM. -/
theorem pnpPlace_zero : pnpPlace 0 = pnpRom := by
  decide

/-- A dword of the ROM is as it was after a base has been set, for the structure is apart from the
ROM. -/
theorem rom_read32 (e : PnpEntry) (g : GdtEntry) (ret address : PTR) {k : Nat}
    (hk : k + 4 ≤ 0x10000) :
    (setGdtBase g ret address e.site e.m).mem.read32 (pnpRom + BitVec.ofNat 32 k) =
      e.m.mem.read32 (pnpRom + BitVec.ofNat 32 k) := by
  have hbyte : ∀ i < 4, (setGdtBase g ret address e.site e.m).mem.byte pnpRom (k + i) =
      e.m.mem.byte pnpRom (k + i) := fun i hi =>
    setGdtBase_elsewhere g ret address e.site e.m (e.stackApart (k + i) (by omega))
      (e.structApart (k + i) (by omega))
  rw [Mem.read32_eq_byte, Mem.read32_eq_byte]
  simp only [Mem.byte_add]
  rw [hbyte 0 (by decide), hbyte 1 (by decide), hbyte 2 (by decide), hbyte 3 (by decide)]

/-- It takes the start of the ROM for the structure, in the first round and for every content of the
ROM, and reads three fields of it. -/
theorem setupPnP_run (e : PnpEntry) :
    ∃ r, (∀ rounds, setupPnP (rounds + 1) e.supportsPnp e.afterDseg e.afterCseg e.site e.m =
        some r) ∧
      r.status = .osOk ∧ (∀ g, e.gdt r.machine g = e.gdtWith 0 g) ∧
      r.reads = [(pnpRom, 4), (pnpRom + 34#32, 2), (pnpRom + 24#32, 4)] := by
  obtain ⟨m₁, hm₁⟩ : ∃ m₁, m₁ = pnSetBiosDsegBase e.afterDseg
    ((e.m.mem.read16 (pnpRom + 34#32)).setWidth 32) e.site e.m := ⟨_, rfl⟩
  refine ⟨⟨.osOk, pnSetBiosCsegBase e.afterCseg (m₁.mem.read32 (pnpRom + 24#32)) e.site m₁,
    [(pnpRom, 4), (pnpRom + 34#32, 2), (pnpRom + 24#32, 4)]⟩, fun rounds => ?_, rfl, fun g => ?_,
    rfl⟩
  · have hscan : Loop.run (scanRound e.m.mem) (rounds + 1) ⟨pnpRom, 0, e.supportsPnp, []⟩ =
        some ⟨pnpRom, 0, 1, [(pnpRom, 4)]⟩ := by
      unfold Loop.run
      rw [scanRound_first]
    unfold setupPnP
    rw [hscan, Option.bind_eq_bind, Option.bind_some, hm₁]
    rfl
  · have hcode : m₁.mem.read32 (pnpRom + 24#32) = codeBase e.m.mem 0 := by
      unfold codeBase
      rw [hm₁, pnpPlace_zero]
      exact rom_read32 e .pnpBiosDs _ _ (k := 24) (by decide)
    have hdata : (e.m.mem.read16 (pnpRom + 34#32)).setWidth 32 = dataBase e.m.mem 0 := by
      unfold dataBase
      rw [pnpPlace_zero]
      rfl
    unfold PnpEntry.gdt PnpEntry.gdtWith PnpEntry.gdt
    dsimp only
    rw [hcode]
    unfold pnSetBiosCsegBase
    rw [setGdtBase_descriptor, hm₁]
    unfold pnSetBiosDsegBase
    rw [setGdtBase_descriptor, hdata]
    by_cases hcs : g = .pnpcs
    · rw [if_pos hcs, if_pos hcs, if_neg (by rw [hcs]; decide)]
    · rw [if_neg hcs, if_neg hcs]

/-- The reads are within the ROM. -/
theorem reads_inside {a : PTR} {n : Nat}
    (h : (a, n) ∈ [(pnpRom, 4), (pnpRom + 34#32, 2), (pnpRom + 24#32, 4)]) :
    pnpRom.toNat ≤ a.toNat ∧ a.toNat + n ≤ 0x100000 := by
  have hall : ∀ x ∈ [(pnpRom, 4), (pnpRom + 34#32, 2), (pnpRom + 24#32, 4)],
      pnpRom.toNat ≤ x.1.toNat ∧ x.1.toNat + x.2 ≤ 0x100000 := by decide
  exact hall _ h

/-- The GDT made from two structures is the same if their bases are. -/
theorem gdtWith_iff (e : PnpEntry) (k : Nat) :
    (∀ g, e.gdtWith 0 g = e.gdtWith k g) ↔
      codeBase e.m.mem k = codeBase e.m.mem 0 ∧ dataBase e.m.mem k = dataBase e.m.mem 0 := by
  unfold PnpEntry.gdtWith
  constructor
  · intro h
    exact ⟨(congrArg Descriptor.base (h .pnpcs)).symm,
      (congrArg Descriptor.base (h .pnpBiosDs)).symm⟩
  · rintro ⟨hcode, hdata⟩ g
    rw [hcode, hdata]

/-- A ROM that has a signature has a first one. -/
theorem exists_firstSignature {m : Mem} {k : Nat} (hk : k < 32) (h : HasSignature m k) :
    ∃ k, FirstSignature m k := by
  have hex : ∃ k, HasSignature m k := ⟨k, h⟩
  exact ⟨Nat.find hex, lt_of_le_of_lt (Nat.find_min' hex h) hk, Nat.find_spec hex,
    fun _ hj => Nat.find_min hex hj⟩

/-- The answer is the same, whatever the number of rounds that are allowed. -/
theorem setupPnP_unique (e : PnpEntry) {rounds : Nat} {r r' : PnpSetup}
    (h : setupPnP rounds e.supportsPnp e.afterDseg e.afterCseg e.site e.m = some r)
    (h' : ∀ rounds, setupPnP (rounds + 1) e.supportsPnp e.afterDseg e.afterCseg e.site e.m =
      some r') : r = r' := by
  cases rounds with
  | zero => cases h
  | succ rounds =>
    rw [h' rounds] at h
    exact (Option.some.inj h).symm

/-- The law makes one place the first signature, and the bases are those found there. -/
theorem SetupLaw.first {e : PnpEntry} (hlaw : SetupLaw e) :
    ∃ k, FirstSignature e.m.mem k ∧ codeBase e.m.mem k = codeBase e.m.mem 0 ∧
      dataBase e.m.mem k = dataBase e.m.mem 0 := by
  obtain ⟨r', hrun', hstatus, hgdt, _⟩ := setupPnP_run e
  obtain ⟨rounds, r, hrun, _, hfound, hmissing⟩ := hlaw
  obtain rfl := setupPnP_unique e hrun hrun'
  have hsome : ∃ k < 32, HasSignature e.m.mem k := by
    by_contra hnone
    have hfails := (hmissing fun k hk hs => hnone ⟨k, hk, hs⟩).1
    rw [hstatus] at hfails
    exact absurd hfails (by decide)
  obtain ⟨k, hk, hs⟩ := hsome
  obtain ⟨first, hfirst⟩ := exists_firstSignature hk hs
  refine ⟨first, hfirst, (gdtWith_iff e first).mp fun g => ?_⟩
  exact (hgdt g).symm.trans ((hfound _ hfirst).2 g)

/-- There is at most one first signature. -/
theorem FirstSignature.unique {m : Mem} {j k : Nat} (hj : FirstSignature m j)
    (hk : FirstSignature m k) : j = k := by
  rcases lt_trichotomy j k with hlt | heq | hgt
  · exact absurd hj.2.1 (hk.2.2 j hlt)
  · exact heq
  · exact absurd hk.2.1 (hj.2.2 k hgt)

/-- For every content of the ROM and every machine: the search does what it should exactly when
there is a signature in the ROM, and the first structure with one has the bases that are found at
the start of the ROM. Checksum and revision are not looked at by the code, and the law does not ask
for them. -/
theorem setupLaw_iff (e : PnpEntry) :
    SetupLaw e ↔ ∃ k, FirstSignature e.m.mem k ∧ codeBase e.m.mem k = codeBase e.m.mem 0 ∧
      dataBase e.m.mem k = dataBase e.m.mem 0 := by
  constructor
  · exact SetupLaw.first
  · rintro ⟨k, hfirst, hbases⟩
    obtain ⟨r, hrun, hstatus, hgdt, hreads⟩ := setupPnP_run e
    refine ⟨1, r, hrun 0, fun a n hmem => reads_inside (hreads ▸ hmem), fun j hj => ?_,
      fun hnone => ?_⟩
    · obtain rfl := hj.unique hfirst
      exact ⟨hstatus, fun g => (hgdt g).trans ((gdtWith_iff e j).mpr hbases g)⟩
    · exact absurd hfirst.2.1 (hnone k hfirst.1)

/-- A machine with nothing in its ROM. -/
def emptyRom : PnpEntry where
  m := Machine.idle
  site := StructSite.linked
  supportsPnp := 0
  afterDseg := 0
  afterCseg := 0
  stackApart := by
    intro i hi
    have hdist : 0xF0000#32 + BitVec.ofNat 32 i - (0xC0180000#32 - 16#32) =
        BitVec.ofNat 32 i + 0x3FF70010#32 := by grind
    show 16 ≤ (0xF0000#32 + BitVec.ofNat 32 i - (0xC0180000#32 - 16#32)).toNat
    rw [hdist, BitVec.toNat_add, BitVec.toNat_ofNat, BitVec.toNat_ofNat]
    omega
  structApart := by
    intro i hi
    have hdist : 0xF0000#32 + BitVec.ofNat 32 i - 0xC0101000#32 =
        BitVec.ofNat 32 i + 0x3FFEF000#32 := by grind
    show sizeofIa32Struct ≤ (0xF0000#32 + BitVec.ofNat 32 i - 0xC0101000#32).toNat
    rw [sizeofIa32Struct_eq, hdist, BitVec.toNat_add, BitVec.toNat_ofNat, BitVec.toNat_ofNat]
    omega

/-- In a ROM without a signature a BIOS is found. -/
theorem setupLaw_emptyRom : ¬ SetupLaw emptyRom := by
  intro hlaw
  obtain ⟨k, hfirst, _⟩ := hlaw.first
  have hbyte : (0 : BYTE) = 0x24 := hfirst.2.1.1
  exact absurd hbyte (by decide)

/-! ## The call -/

/-- A call with arguments, the machine being at the routine's first instruction. -/
structure BiosCall where
  m : Machine
  argc_ne : m.gpr .eax ≠ 0#32
  wfpEntryPoint : PTR
  afterBios : PTR
  bios : PnpBios

namespace BiosCall

variable (x : BiosCall)

/-- The arguments in words, from right above the return address on. -/
def Narrowed (c : Machine) : Prop :=
  ∀ i < (x.m.gpr .eax).toNat,
    c.mem.read16 (c.gpr .esp + 4#32 + BitVec.ofNat 32 (2 * i)) = (x.m.stack (1 + i)).setWidth 16

/-- What the caller finds, after a call that came to the BIOS at `c`. -/
structure Answered (c d : Machine) : Prop where
  eax : d.gpr .eax = ((x.bios.run c).reg16 .eax).setWidth 32
  esi : d.gpr .esi = x.m.gpr .esi
  esp : d.ret.gpr .esp = x.m.gpr .esp + 4#32

end BiosCall

def BiosCallLaw (x : BiosCall) : Prop :=
  ∃ rounds c d,
    pnCallBiosCalls x.wfpEntryPoint x.afterBios rounds x.m = some c ∧
    pnCallBiosInternal x.wfpEntryPoint x.afterBios x.bios rounds x.m = some d ∧
    x.Narrowed c ∧ x.Answered c d

/-- No number of rounds brings the call to the BIOS, if there are arguments. -/
theorem BiosCall.not_calls (x : BiosCall) (rounds : Nat) (c : Machine) :
    pnCallBiosCalls x.wfpEntryPoint x.afterBios rounds x.m ≠ some c := by
  rw [pnCallBiosCalls_eq_none x.argc_ne]
  exact (Option.some_ne_none c).symm

/-- For every count that is not zero, all arguments, every BIOS and every machine the law fails: the
loop that narrows the arguments never ends. No premise on the BIOS matters, as it is not reached. -/
theorem not_biosCallLaw (x : BiosCall) : ¬ BiosCallLaw x := by
  rintro ⟨rounds, c, _, hcalls, _⟩
  exact x.not_calls rounds c hcalls

/-- One argument, and a BIOS that answers at once. -/
def oneArgument : BiosCall where
  m := Machine.idle.set .eax 1
  argc_ne := by decide
  wfpEntryPoint := 0xC0106000
  afterBios := 0xC0102000
  bios := .unsupported

theorem biosCallLaw_oneArgument : ¬ BiosCallLaw oneArgument := by
  rintro ⟨rounds, c, _, hcalls, _⟩
  exact oneArgument.not_calls rounds c hcalls

end OS90.Laws
