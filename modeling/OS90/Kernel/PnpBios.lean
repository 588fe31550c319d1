import OS90.Ia32.RealMode
import OS90.Kernel.Ia32Struct
import OS90.Kernel.IntrTrap
import OS90.Lib.Loop

/-!
# The plug-and-play BIOS

The kernel looks for the BIOS in ROM when it starts, and calls it from then on.

`SetupPnP` of `PnP_Mgr.c`. It looks for an installation structure in the ROM and gives the two
descriptors of the BIOS their bases. `reads` are the places it has read from, with their sizes.

The structure is not packed: three of its fields come after padding.

`PnInsertEntryPoint` and `PnCallBiosInternal` of `PnP_Mgr.asm`, each up to its `ret`. The second is
its way to the BIOS, with the loop that narrows the arguments, the far call, and its way back. The
BIOS is a parameter, of which the plug-and-play specification says what it keeps. It is a 16-bit
program, and its far return takes a 16-bit offset off the stack.
-/

namespace OS90.Kernel

open OS90.Ia32 OS90.Ia32.Cpu

/-! ## The installation check -/

/-- The first of the 64 KiB of ROM. -/
def pnpRom : PTR := 0xF0000

/-- Offsets in `PNP_INSTALL_CHECK`, and its size. -/
def protectedBaseOffset : Nat := 24

def protectedDataBaseOffset : Nat := 34

def sizeofInstallCheck : Nat := 36

/-- `signature == PNP_ROM_STRING`. `BYTESWAP` has no parentheses around it, so that only the first
of its four parts is compared. -/
def signatureTest (signature : DWORD) : DWORD :=
  let value := 0x24506e50#32
  (if signature = (value &&& 0xFF#32) <<< 24 then 1#32 else 0#32) |||
    (value &&& 0xFF00#32) <<< 8 ||| (value &&& 0xFF0000#32) >>> 8 |||
      (value &&& 0xFF000000#32) >>> 24

/-- The variables of the scan. -/
structure PnpScan where
  checkstruct : PTR
  i : DWORD
  supportsPnp : BOOL
  reads : List (PTR × Nat)

/-- A round of the loop. The pointer goes up by 800h structures. -/
def scanRound (m : Mem) (s : PnpScan) : PnpScan ⊕ PnpScan :=
  if s.i < 0x800#32 * 32#32 then
    let signature := m.read32 s.checkstruct
    let s := { s with reads := s.reads ++ [(s.checkstruct, 4)] }
    if signatureTest signature ≠ 0 then .inr { s with supportsPnp := 1 }
    else
      .inl { s with
        checkstruct := s.checkstruct + BitVec.ofNat 32 (0x800 * sizeofInstallCheck)
        i := s.i + 1#32 }
  else .inr s

/-- What `SetupPnP` answers, and the machine and the reads after it. -/
structure PnpSetup where
  status : STATUS
  machine : Machine
  reads : List (PTR × Nat)

/-- `SetupPnP`, with so many rounds of its loop. `supportsPnp` is what its variable is found to
hold, and the two addresses are those its calls return to. -/
def setupPnP (rounds : Nat) (supportsPnp : BOOL) (afterDseg afterCseg : PTR) (site : StructSite)
    (m : Machine) : Option PnpSetup := do
  let s ← Loop.run (scanRound m.mem) rounds ⟨pnpRom, 0, supportsPnp, []⟩
  if s.supportsPnp = 0 then
    return ⟨.osFeatureNotSupported, m, s.reads⟩
  let dataField := s.checkstruct + BitVec.ofNat 32 protectedDataBaseOffset
  let m := pnSetBiosDsegBase afterDseg ((m.mem.read16 dataField).setWidth 32) site m
  let codeField := s.checkstruct + BitVec.ofNat 32 protectedBaseOffset
  let m := pnSetBiosCsegBase afterCseg (m.mem.read32 codeField) site m
  return ⟨.osOk, m, s.reads ++ [(dataField, 2), (codeField, 4)]⟩

/-- The test is true of every signature: only its first part is a comparison, and the others are
constants that are not zero. -/
theorem signatureTest_ne_zero (signature : DWORD) : signatureTest signature ≠ 0 := by
  unfold signatureTest
  dsimp only
  split <;> decide

/-- So the scan ends where it begins, with its first place taken for the structure. -/
theorem scanRound_first (m : Mem) (supportsPnp : BOOL) :
    scanRound m ⟨pnpRom, 0, supportsPnp, []⟩ = .inr ⟨pnpRom, 0, 1, [(pnpRom, 4)]⟩ := by
  have hin : (PnpScan.mk pnpRom 0 supportsPnp []).i < 0x800#32 * 32#32 := by
    show 0#32 < 0x800#32 * 32#32
    decide
  unfold scanRound
  rw [if_pos hin]
  exact if_pos (signatureTest_ne_zero _)

/-! ## The calls -/

/-- `PnInsertEntryPoint`. `wfpEntryPoint` is the variable's address. -/
def pnInsertEntryPoint (wfpEntryPoint : PTR) (m : Machine) : Machine :=
  let m := m.load .eax (m.gpr .esp + 4#32)
  m.store wfpEntryPoint (m.gpr .eax)

/-- `PnCallBiosInternal` up to the loop. -/
def pnCallBiosEnter (m : Machine) : Machine :=
  let m := m.pushReg .esi |>.pushReg .eax
  let m := m.set .ecx (m.gpr .eax)
  let m := m.set .esi (m.gpr .esp + 4#32)
  m.setDf true

/-- A round of the loop. `jecxz` tests the counter, and no instruction counts. -/
def narrowRound (m : Machine) : Machine ⊕ Machine :=
  if m.gpr .ecx = 0#32 then .inr m
  else
    let m := m.set .esi (m.gpr .esi + 4#32)
    let m := m.load .eax (m.gpr .esi)
    .inl (m.store16 (m.gpr .esi + 2#32) ((m.gpr .eax).setWidth 16))

/-- `call far word [wfpEntryPoint]`: both halves of the return address are words. -/
def callFarWord (wfpEntryPoint ret : PTR) (m : Machine) : Machine :=
  let off := m.mem.read16 wfpEntryPoint
  let sel := m.mem.read16 (wfpEntryPoint + 2#32)
  let m := m.pushWord (m.seg .cs) |>.pushWord (ret.setWidth 16)
  { m.setSeg .cs sel with eip := off.setWidth 32 }

/-- The BIOS, from its entry point to the instruction after its far return. It keeps all registers
but AX, and of the stack the three dwords above the return address. -/
structure PnpBios where
  run : Machine → Machine
  saved : ∀ m r, r ≠ .eax → r ≠ .esp → (run m).gpr r = m.gpr r
  esp : ∀ m, (run m).gpr .esp = m.gpr .esp + 4#32
  eip : ∀ m, (run m).eip = (m.mem.read16 (m.gpr .esp)).setWidth 32
  stack : ∀ m, ∀ i < 3, (run m).stack i = m.stack (1 + i)

/-- A BIOS with no function at all. -/
def PnpBios.unsupported : PnpBios where
  run m := { m.drop 1 |>.set .eax 0x82 with eip := (m.mem.read16 (m.gpr .esp)).setWidth 32 }
  saved m r hr hr' := by simp [drop, hr, hr']
  esp m := by simp [drop]
  eip _ := rfl
  stack m i _ := (stack_set_of_ne _ _ (by decide) i).trans (stack_drop m 1 i)

/-- `PnCallBiosInternal` after the call. -/
def pnCallBiosLeave (m : Machine) : Machine :=
  m.set .eax ((m.reg16 .eax).setWidth 32) |>.setDf false |>.pop .eax |>.pop .esi

section Call

variable (wfpEntryPoint afterBios : PTR) (bios : PnpBios) (rounds : Nat) (m : Machine)

/-- The machine at the first instruction of the BIOS, if the loop is done in so many rounds. -/
def pnCallBiosCalls : Option Machine :=
  (Loop.run narrowRound rounds (pnCallBiosEnter m)).map (callFarWord wfpEntryPoint afterBios)

/-- `PnCallBiosInternal`. The BIOS comes back to the instruction after the call only if that has
an address of sixteen bits. -/
def pnCallBiosInternal : Option Machine := do
  let m ← pnCallBiosCalls wfpEntryPoint afterBios rounds m
  let m := bios.run m
  if m.eip = afterBios then some (pnCallBiosLeave m) else none

end Call

/-! ## The loop -/

/-- With a count that is not zero the loop is never left: no instruction in it changes ECX, which
`jecxz` tests. -/
theorem narrowRound_not_leaves {m : Machine} (h : m.gpr .ecx ≠ 0#32) (d : Machine) :
    ¬ Loop.Leaves narrowRound m d := by
  refine Loop.not_leaves (fun m => m.gpr .ecx ≠ 0#32) (fun m hm => ?_) h d
  refine ⟨_, if_neg hm, ?_⟩
  simpa [Cpu.load] using hm

/-- ECX is the count of the arguments when the loop is entered. -/
theorem pnCallBiosEnter_ecx (m : Machine) : (pnCallBiosEnter m).gpr .ecx = m.gpr .eax := by
  simp [pnCallBiosEnter, setDf, pushReg]

/-- So that the BIOS is not called at all, however many rounds are allowed. -/
theorem pnCallBiosCalls_eq_none {m : Machine} (h : m.gpr .eax ≠ 0#32)
    (wfpEntryPoint afterBios : PTR) (rounds : Nat) :
    pnCallBiosCalls wfpEntryPoint afterBios rounds m = none := by
  have hecx : (pnCallBiosEnter m).gpr .ecx ≠ 0#32 := by
    rw [pnCallBiosEnter_ecx]
    exact h
  unfold pnCallBiosCalls
  cases hrun : Loop.run narrowRound rounds (pnCallBiosEnter m) with
  | none => rfl
  | some d => exact absurd ⟨rounds, hrun⟩ (narrowRound_not_leaves hecx d)

/-! ## The call -/

section FarCall

variable (wfpEntryPoint ret : PTR) (m : Machine)

/-- A far call with a prefix of sixteen bits pushes two words. -/
theorem callFarWord_esp : (callFarWord wfpEntryPoint ret m).gpr .esp = m.gpr .esp - 4#32 := by
  show ((m.pushWord (m.seg .cs)).pushWord (ret.setWidth 16)).gpr .esp = m.gpr .esp - 4#32
  rw [pushWord_esp, pushWord_esp]
  bv_omega

theorem callFarWord_of_ne {r : Reg} (hr : r ≠ .esp) :
    (callFarWord wfpEntryPoint ret m).gpr r = m.gpr r := by
  show ((m.pushWord (m.seg .cs)).pushWord (ret.setWidth 16)).gpr r = m.gpr r
  rw [pushWord_of_ne _ _ _ hr, pushWord_of_ne _ _ _ hr]

/-- They are CS and the low half of the return address. The high half is lost. -/
theorem callFarWord_mem :
    (callFarWord wfpEntryPoint ret m).mem =
      (m.mem.write16 (m.gpr .esp - 2#32) (m.seg .cs)).write16 (m.gpr .esp - 4#32)
        (ret.setWidth 16) := by
  have hbelow : m.gpr .esp - 2#32 - 2#32 = m.gpr .esp - 4#32 := by bv_omega
  show ((m.pushWord (m.seg .cs)).pushWord (ret.setWidth 16)).mem = _
  rw [pushWord_mem, pushWord_esp, pushWord_mem, hbelow]

/-- The offset that is returned to is cut to a word. -/
theorem callFarWord_offset :
    (callFarWord wfpEntryPoint ret m).mem.read16 ((callFarWord wfpEntryPoint ret m).gpr .esp) =
      ret.setWidth 16 := by
  rw [callFarWord_esp, callFarWord_mem, Mem.read16_write16_same]

/-- The selector and the offset take one dword of stack together, above which it is as before. -/
theorem callFarWord_stack {i : Nat} (hi : i < 2 ^ 28) :
    (callFarWord wfpEntryPoint ret m).stack (1 + i) = m.stack i := by
  have hesp := callFarWord_esp wfpEntryPoint ret m
  have hmem : Mem.Within (m.gpr .esp - 4#32) 4 m.mem (callFarWord wfpEntryPoint ret m).mem := by
    rw [callFarWord_mem]
    refine ((Mem.splice_within m.mem (m.gpr .esp - 2#32) 2 _).mono ?_).trans
      ((Mem.splice_within _ (m.gpr .esp - 4#32) 2 _).mono ?_)
    · bv_omega
    · bv_omega
  have hplace : m.gpr .esp - 4#32 + BitVec.ofNat 32 (4 * (1 + i)) =
      m.gpr .esp + BitVec.ofNat 32 (4 * i) := by
    rw [Nat.mul_add, BitVec.ofNat_add]
    bv_omega
  have hdist : m.gpr .esp + BitVec.ofNat 32 (4 * i) - (m.gpr .esp - 4#32) =
      BitVec.ofNat 32 (4 * i + 4) := by
    rw [BitVec.ofNat_add]
    bv_omega
  unfold stack
  rw [hesp, hplace]
  refine hmem.read32 ?_ ?_
  · rw [hdist, BitVec.toNat_ofNat]
    omega
  · rw [hdist, BitVec.toNat_ofNat]
    omega

end FarCall

/-! ## A call without arguments -/

section NoArguments

variable (wfpEntryPoint afterBios : PTR) (bios : PnpBios) (m : Machine)

/-- The way in pushes ESI and the count, in this order. -/
theorem pnCallBiosEnter_stack (i : Nat) :
    (pnCallBiosEnter m).stack i = ((m.pushReg .esi).pushReg .eax).stack i := by
  let p := (m.pushReg .esi).pushReg .eax
  show ((p.set .ecx (p.gpr .eax)).set .esi (p.gpr .esp + 4#32)).stack i = p.stack i
  rw [stack_set_of_ne _ _ (by decide), stack_set_of_ne _ _ (by decide)]

/-- The machine when the BIOS is back. -/
def biosReturns : Machine := bios.run (callFarWord wfpEntryPoint afterBios (pnCallBiosEnter m))

/-- With a count of zero the loop is left at once, and the routine returns if the return address
fits a word. -/
theorem pnCallBiosInternal_zero (h : m.gpr .eax = 0#32) (rounds : Nat) :
    pnCallBiosInternal wfpEntryPoint afterBios bios (rounds + 1) m =
      if (afterBios.setWidth 16).setWidth 32 = afterBios then
        some (pnCallBiosLeave (biosReturns wfpEntryPoint afterBios bios m))
      else none := by
  have hecx : (pnCallBiosEnter m).gpr .ecx = 0#32 := (pnCallBiosEnter_ecx m).trans h
  have hrun : Loop.run narrowRound (rounds + 1) (pnCallBiosEnter m) =
      some (pnCallBiosEnter m) := by
    unfold Loop.run narrowRound
    rw [if_pos hecx]
  have heip : (biosReturns wfpEntryPoint afterBios bios m).eip =
      (afterBios.setWidth 16).setWidth 32 := by
    unfold biosReturns
    rw [bios.eip, callFarWord_offset]
  unfold pnCallBiosInternal pnCallBiosCalls
  rw [hrun, ← heip]
  rfl

/-- The saved registers and the routine's own return address are still on the stack. -/
theorem biosReturns_stack {i : Nat} (hi : i < 3) :
    (biosReturns wfpEntryPoint afterBios bios m).stack i = (pnCallBiosEnter m).stack i := by
  unfold biosReturns
  rw [bios.stack _ i hi, callFarWord_stack _ _ _ (by omega)]

/-- The BIOS returns with the stack as the loop had it, two dwords below that of the caller. -/
theorem biosReturns_esp :
    (biosReturns wfpEntryPoint afterBios bios m).gpr .esp = m.gpr .esp - 8#32 := by
  have henter : (pnCallBiosEnter m).gpr .esp = m.gpr .esp - 8#32 := by
    simp only [pnCallBiosEnter, setDf, pushReg, set_gpr, push_gpr, if_true, reduceCtorEq, if_false]
    bv_omega
  unfold biosReturns
  rw [bios.esp, callFarWord_esp, henter]
  bv_omega

/-- Registers that neither the BIOS nor the loop uses are kept. -/
theorem biosReturns_of_not_mem {r : Reg} (hr : r ∉ [Reg.eax, .ecx, .esi, .esp]) :
    (biosReturns wfpEntryPoint afterBios bios m).gpr r = m.gpr r := by
  simp only [List.mem_cons, List.not_mem_nil, or_false, not_or] at hr
  obtain ⟨heax, hecx, hesi, hesp⟩ := hr
  unfold biosReturns
  rw [bios.saved _ r heax hesp, callFarWord_of_ne _ _ _ hesp]
  simp [pnCallBiosEnter, setDf, pushReg, hecx, hesi, hesp]

end NoArguments

/-! ## The way back -/

section Leave

variable (m : Machine)

/-- ESI is popped from the second word. -/
theorem pnCallBiosLeave_esi : (pnCallBiosLeave m).gpr .esi = m.stack 1 := by
  unfold pnCallBiosLeave
  rw [pop_self, stack_pop _ (by decide)]
  exact stack_set_of_ne m _ (by decide) 1

/-- Two words are taken from the stack on the way out. -/
theorem pnCallBiosLeave_esp : (pnCallBiosLeave m).gpr .esp = m.gpr .esp + 8#32 := by
  unfold pnCallBiosLeave
  rw [pop_esp _ _ (by decide), pop_esp _ _ (by decide)]
  show m.gpr .esp + 4#32 + 4#32 = _
  bv_omega

theorem pnCallBiosLeave_of_not_mem {r : Reg} (hr : r ∉ [Reg.eax, .esi, .esp]) :
    (pnCallBiosLeave m).gpr r = m.gpr r := by
  simp only [List.mem_cons, List.not_mem_nil, or_false, not_or] at hr
  obtain ⟨heax, hesi, hesp⟩ := hr
  unfold pnCallBiosLeave
  rw [pop_of_ne _ _ _ hesi hesp, pop_of_ne _ _ _ heax hesp]
  exact (set_gpr m .eax r _).trans (if_neg heax)

/-- The direction flag is clear afterwards. -/
theorem pnCallBiosLeave_df : (pnCallBiosLeave m).df = false :=
  df_setDf (m.set .eax ((m.reg16 .eax).setWidth 32)) false

theorem pnCallBiosLeave_stack (i : Nat) : (pnCallBiosLeave m).stack i = m.stack (2 + i) := by
  unfold pnCallBiosLeave
  rw [stack_pop _ (by decide), stack_pop _ (by decide), ← Nat.add_assoc]
  exact stack_set_of_ne m _ (by decide) (1 + 1 + i)

end Leave

end OS90.Kernel
