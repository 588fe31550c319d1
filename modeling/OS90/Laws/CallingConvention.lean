import OS90.Kernel.Ia32Struct
import OS90.Kernel.PnpBios
import OS90.Kernel.Vm86

/-!
# The assembly routines as C functions

Five routines in assembly are called from C, whose compiler keeps variables in EBX, ESI, EDI and
EBP across a call and expects the direction flag as it left it. `ComesBack` is that a routine gives
these back and returns, with the stack as it was, and `ConventionLaw` that a call of any of the five
comes back so. A call comes with what its routine may assume: `AppendAddress` that the descriptor is
not on its stack, `PnInsertEntryPoint` that its variable is not, and `ScOnExceptRetReenterCallerV86`
that it is in the handler of an exception from V86 mode.

Two of the routines use a register of their caller's without saving it, and one clears the direction
flag. `conventionLaw_iff` is what has to be so on entry for that to make no difference.
-/

namespace OS90.Laws

open OS90.Ia32 OS90.Ia32.Cpu OS90.Kernel

inductive AsmRoutine where
  | appendAddress
  | pnInsertEntryPoint
  | getErrCode
  | pnCallBiosInternal
  | scOnExceptRetReenterCallerV86
deriving DecidableEq, Repr

/-- What a routine may assume of the machine at its first instruction. -/
def AsmRoutine.Valid (wfpEntryPoint : PTR) (m : Machine) : AsmRoutine → Prop
  | .appendAddress => Mem.Apart (m.stack 1) 8 (m.gpr .esp - 4#32) 16
  | .pnInsertEntryPoint => Mem.Apart (m.gpr .esp) 4 wfpEntryPoint 4
  | .getErrCode => True
  | .pnCallBiosInternal => True
  | .scOnExceptRetReenterCallerV86 =>
    ∃ k, 18 ≤ k ∧ k < 2 ^ 27 ∧ m.tss.esp0 = m.gpr .esp + BitVec.ofNat 32 (4 * k)

/-- A call of one of the routines, with the machine at its first instruction. -/
structure AsmCall where
  routine : AsmRoutine
  layout : Layout
  wfpEntryPoint : PTR
  afterBios : PTR
  bios : PnpBios
  m : Machine
  valid : routine.Valid wfpEntryPoint m

/-- The machine after the routine's `ret`. -/
def AsmCall.Returns (x : AsmCall) (d : Machine) : Prop :=
  match x.routine with
  | .appendAddress => d = (appendAddress x.m).ret
  | .pnInsertEntryPoint => d = (pnInsertEntryPoint x.wfpEntryPoint x.m).ret
  | .getErrCode => d = (getErrCode x.m).ret
  | .pnCallBiosInternal => ∃ rounds e,
      pnCallBiosInternal x.wfpEntryPoint x.afterBios x.bios rounds x.m = some e ∧ d = e.ret
  | .scOnExceptRetReenterCallerV86 => d = (scOnExceptRetReenterCallerV86 x.layout x.m).ret

/-- Back in the caller, with its registers and flag as they were. -/
structure ComesBack (c d : Machine) : Prop where
  ebx : d.gpr .ebx = c.gpr .ebx
  esi : d.gpr .esi = c.gpr .esi
  edi : d.gpr .edi = c.gpr .edi
  ebp : d.gpr .ebp = c.gpr .ebp
  df : d.df = c.df
  esp : d.gpr .esp = c.gpr .esp + 4#32
  eip : d.eip = c.stack 0

/-- Only the one that waits for the BIOS may fail to return. -/
def ConventionLaw (x : AsmCall) : Prop :=
  (x.routine ≠ .pnCallBiosInternal → ∃ d, x.Returns d) ∧ ∀ d, x.Returns d → ComesBack x.m d

/-- What has to be so on entry. -/
def AsmCall.Harmless (x : AsmCall) : Prop :=
  match x.routine with
  | .appendAddress => x.m.gpr .ebx = x.m.stack 1
  | .pnInsertEntryPoint => True
  | .getErrCode => True
  | .pnCallBiosInternal =>
    x.m.gpr .eax ≠ 0#32 ∨ 2 ^ 16 ≤ x.afterBios.toNat ∨ x.m.df = false
  | .scOnExceptRetReenterCallerV86 => x.m.gpr .esi = x.m.mem.read32 (x.m.tss.esp0 - 4#32)

/-! ## Each of the routines -/

section Routines

variable (m : Machine)

/-- A routine that comes to its `ret` with the stack as it was has its registers and flag to
answer for. -/
theorem comesBack_ret_iff {e : Machine} (hesp : e.gpr .esp = m.gpr .esp)
    (hret : e.stack 0 = m.stack 0) :
    ComesBack m e.ret ↔ (e.gpr .ebx = m.gpr .ebx ∧ e.gpr .esi = m.gpr .esi ∧
      e.gpr .edi = m.gpr .edi ∧ e.gpr .ebp = m.gpr .ebp ∧ e.df = m.df) := by
  have hgpr : ∀ r, r ≠ .esp → e.ret.gpr r = e.gpr r := fun r hr => ret_of_ne e r hr
  constructor
  · intro h
    rw [← hgpr .ebx (by decide), ← hgpr .esi (by decide), ← hgpr .edi (by decide),
      ← hgpr .ebp (by decide)]
    exact ⟨h.ebx, h.esi, h.edi, h.ebp, h.df⟩
  · rintro ⟨hebx, hesi, hedi, hebp, hdf⟩
    exact
      { ebx := (hgpr .ebx (by decide)).trans hebx
        esi := (hgpr .esi (by decide)).trans hesi
        edi := (hgpr .edi (by decide)).trans hedi
        ebp := (hgpr .ebp (by decide)).trans hebp
        df := hdf
        esp := (ret_esp e).trans (congrArg (· + 4#32) hesp)
        eip := hret }

/-- `AppendAddress` leaves with its argument in EBX, and so keeps the convention only if the caller
had that there already. -/
theorem appendAddress_back_iff (hvalid : Mem.Apart (m.stack 1) 8 (m.gpr .esp - 4#32) 16) :
    ComesBack m (appendAddress m).ret ↔ m.gpr .ebx = m.stack 1 := by
  have hback := comesBack_ret_iff m appendAddress_esp (appendAddress_ret hvalid)
  rw [appendAddress_ebx] at hback
  constructor
  · intro h
    exact (hback.mp h).1.symm
  · intro hebx
    exact hback.mpr ⟨hebx.symm, appendAddress_of_not_mem (by decide),
      appendAddress_of_not_mem (by decide), appendAddress_ebp hvalid, rfl⟩

/-- A routine that uses nothing but EAX and leaves the return address alone keeps the convention. -/
theorem comesBack_of_eax {e : Machine} (hgpr : ∀ r, r ≠ .eax → e.gpr r = m.gpr r)
    (hdf : e.df = m.df) (hret : e.stack 0 = m.stack 0) : ComesBack m e.ret := by
  refine (comesBack_ret_iff m (hgpr .esp (by decide)) hret).mpr ?_
  exact ⟨hgpr .ebx (by decide), hgpr .esi (by decide), hgpr .edi (by decide),
    hgpr .ebp (by decide), hdf⟩

/-- The store of the entry point spares the return address when the two are apart, and then the
routine keeps the convention. -/
theorem pnInsertEntryPoint_back {wfpEntryPoint : PTR}
    (hvalid : Mem.Apart (m.gpr .esp) 4 wfpEntryPoint 4) :
    ComesBack m (pnInsertEntryPoint wfpEntryPoint m).ret := by
  have hgpr : ∀ r, r ≠ .eax → (pnInsertEntryPoint wfpEntryPoint m).gpr r = m.gpr r := by
    intro r hr
    simp [pnInsertEntryPoint, hr]
  refine comesBack_of_eax m hgpr rfl ?_
  have hwrite := (Mem.write32_within m.mem wfpEntryPoint
    (m.mem.read32 (m.gpr .esp + 4#32))).read32_apart hvalid (e := 0) (by decide)
  unfold stack
  rw [hgpr .esp (by decide)]
  refine Eq.trans ?_ hwrite
  simp [pnInsertEntryPoint, store_mem]

/-- The routine only loads EAX, which the convention leaves to it. -/
theorem getErrCode_back : ComesBack m (getErrCode m).ret := by
  have hgpr : ∀ r, r ≠ .eax → (getErrCode m).gpr r = m.gpr r := by
    intro r hr
    simp [getErrCode, hr]
  exact comesBack_of_eax m hgpr rfl (stack_set_of_ne m _ (by decide) 0)

/-- `ScOnExceptRetReenterCallerV86` leaves with the dword below ESP0 in ESI, and so keeps the
convention only if that was there already. -/
theorem scOnExcept_back_iff {layout : Layout} {k : Nat} (hk : 18 ≤ k) (hk' : k < 2 ^ 27)
    (hesp0 : m.tss.esp0 = m.gpr .esp + BitVec.ofNat 32 (4 * k)) :
    ComesBack m (scOnExceptRetReenterCallerV86 layout m).ret ↔
      m.gpr .esi = m.mem.read32 (m.tss.esp0 - 4#32) := by
  have hret : (scOnExceptRetReenterCallerV86 layout m).stack 0 = m.stack 0 :=
    scOnExcept_stack hesp0 hk hk' (by decide) (by omega) (by omega)
  have hback := comesBack_ret_iff m scOnExcept_esp hret
  rw [scOnExcept_esi hesp0 hk hk'] at hback
  constructor
  · intro h
    exact (hback.mp h).2.1.symm
  · intro hesi
    exact hback.mpr ⟨scOnExcept_of_not_mem (by decide), hesi.symm,
      scOnExcept_of_not_mem (by decide), scOnExcept_of_not_mem (by decide), rfl⟩

/-- `PnCallBiosInternal` leaves with the direction flag clear, which only a caller that had it clear
finds kept. -/
theorem pnCallBios_back_iff (wfpEntryPoint afterBios : PTR) (bios : PnpBios) :
    ComesBack m (pnCallBiosLeave (biosReturns wfpEntryPoint afterBios bios m)).ret ↔
      m.df = false := by
  have hstack := fun i hi => biosReturns_stack wfpEntryPoint afterBios bios m (i := i) hi
  have hesp : (pnCallBiosLeave (biosReturns wfpEntryPoint afterBios bios m)).gpr .esp =
      m.gpr .esp := by
    rw [pnCallBiosLeave_esp, biosReturns_esp]
    bv_omega
  have hret : (pnCallBiosLeave (biosReturns wfpEntryPoint afterBios bios m)).stack 0 =
      m.stack 0 := by
    rw [pnCallBiosLeave_stack, hstack 2 (by decide), pnCallBiosEnter_stack]
    exact (stack_push_succ _ _ (i := 1) (by decide)).trans
      (stack_push_succ m _ (i := 0) (by decide))
  have hesi : (pnCallBiosLeave (biosReturns wfpEntryPoint afterBios bios m)).gpr .esi =
      m.gpr .esi := by
    rw [pnCallBiosLeave_esi, hstack 1 (by decide), pnCallBiosEnter_stack]
    exact (stack_push_succ _ _ (i := 0) (by decide)).trans (stack_push_zero m _)
  have hgpr : ∀ r ∉ [Reg.eax, .ecx, .esi, .esp],
      (pnCallBiosLeave (biosReturns wfpEntryPoint afterBios bios m)).gpr r = m.gpr r := by
    intro r hr
    rw [pnCallBiosLeave_of_not_mem _ fun h => hr (List.mem_of_mem_filter (p := (· ≠ .ecx)) h),
      biosReturns_of_not_mem _ _ _ _ hr]
  have hback := comesBack_ret_iff m hesp hret
  rw [pnCallBiosLeave_df] at hback
  constructor
  · intro h
    exact (hback.mp h).2.2.2.2.symm
  · intro hdf
    exact hback.mpr ⟨hgpr .ebx (by decide), hesi, hgpr .edi (by decide), hgpr .ebp (by decide),
      hdf.symm⟩

end Routines

/-! ## The five together -/

section Call

variable (x : AsmCall)

/-- `PnCallBiosInternal` returns, if at all, with a count of zero and to an address of sixteen
bits. -/
theorem pnCallBios_returns_iff (wfpEntryPoint afterBios : PTR) (bios : PnpBios) (m e : Machine) :
    (∃ rounds, pnCallBiosInternal wfpEntryPoint afterBios bios rounds m = some e) ↔
      m.gpr .eax = 0#32 ∧ afterBios.toNat < 2 ^ 16 ∧
        e = pnCallBiosLeave (biosReturns wfpEntryPoint afterBios bios m) := by
  have hword : (afterBios.setWidth 16).setWidth 32 = afterBios ↔ afterBios.toNat < 2 ^ 16 := by
    constructor
    · intro h
      have hnat := congrArg BitVec.toNat h
      rw [BitVec.toNat_setWidth, BitVec.toNat_setWidth] at hnat
      omega
    · intro h
      apply BitVec.eq_of_toNat_eq
      rw [BitVec.toNat_setWidth, BitVec.toNat_setWidth]
      omega
  constructor
  · rintro ⟨rounds, hrun⟩
    by_cases heax : m.gpr .eax = 0#32
    · cases rounds with
      | zero => cases hrun
      | succ rounds =>
        rw [pnCallBiosInternal_zero _ _ _ _ heax] at hrun
        split at hrun
        · rename_i hfits
          exact ⟨heax, hword.mp hfits, (Option.some.inj hrun).symm⟩
        · cases hrun
    · unfold pnCallBiosInternal at hrun
      rw [pnCallBiosCalls_eq_none heax] at hrun
      cases hrun
  · rintro ⟨heax, hfits, rfl⟩
    refine ⟨1, ?_⟩
    rw [pnCallBiosInternal_zero _ _ _ _ heax, if_pos (hword.mpr hfits)]

/-- For a call that comes back in one state only, the law is about that state. -/
theorem returnsOnly_iff {P : Prop} {e : Machine} (Q : Machine → Prop) :
    ((P → ∃ d, d = e) ∧ ∀ d, d = e → Q d) ↔ Q e := by
  constructor
  · intro h
    exact h.2 e rfl
  · intro h
    exact ⟨fun _ => ⟨e, rfl⟩, fun d hd => hd ▸ h⟩

/-- For every call, all registers and all memory: the routine comes back as the convention has it
exactly when what it does to EBX, ESI or the direction flag makes no difference. The premises of
each routine, `Valid`, are about where its arguments are. For a call of the BIOS it is not asked
that it comes back. -/
theorem conventionLaw_iff : ConventionLaw x ↔ x.Harmless := by
  obtain ⟨routine, layout, wfpEntryPoint, afterBios, bios, m, valid⟩ := x
  cases routine with
  | appendAddress =>
    exact (returnsOnly_iff _).trans (appendAddress_back_iff m valid)
  | pnInsertEntryPoint =>
    exact (returnsOnly_iff _).trans (iff_true_intro (pnInsertEntryPoint_back m valid))
  | getErrCode =>
    exact (returnsOnly_iff _).trans (iff_true_intro (getErrCode_back m))
  | pnCallBiosInternal =>
    have hback := pnCallBios_back_iff m wfpEntryPoint afterBios bios
    constructor
    · intro hlaw
      by_cases hreturns : m.gpr .eax = 0#32 ∧ afterBios.toNat < 2 ^ 16
      · obtain ⟨rounds, hrun⟩ := (pnCallBios_returns_iff wfpEntryPoint afterBios bios m _).mpr
          ⟨hreturns.1, hreturns.2, rfl⟩
        exact .inr (.inr (hback.mp (hlaw.2 _ ⟨rounds, _, hrun, rfl⟩)))
      · by_cases heax : m.gpr .eax = 0#32
        · exact .inr (.inl (Nat.le_of_not_lt fun hfits => hreturns ⟨heax, hfits⟩))
        · exact .inl heax
    · intro hharmless
      refine ⟨fun h => absurd rfl h, ?_⟩
      rintro _ ⟨rounds, e, hrun, rfl⟩
      obtain ⟨heax, hfits, rfl⟩ := (pnCallBios_returns_iff _ _ _ _ _).mp ⟨rounds, hrun⟩
      rcases hharmless with hcount | hwide | hdf
      · exact absurd heax hcount
      · exact absurd hfits (Nat.not_lt.mpr hwide)
      · exact hback.mpr hdf
  | scOnExceptRetReenterCallerV86 =>
    obtain ⟨k, hk, hk', hesp0⟩ := valid
    exact (returnsOnly_iff _).trans (scOnExcept_back_iff m hk hk' hesp0)

end Call

/-- A C function has a variable in EBX, and calls `AppendAddress` for a descriptor at C0000000. -/
def variableInEbx : Machine where
  gpr := fun r => if r = .ebx then 1 else Machine.idle.gpr r
  seg := Machine.idle.seg
  eip := Machine.idle.eip
  eflags := Machine.idle.eflags
  mem := fun a => if a = 0xC0080007 then 0xC0 else 0
  tss := Machine.idle.tss
  env := Machine.idle.env

/-- The example is a valid call, so that what it breaks is the convention and no premise. -/
theorem variableInEbx_valid :
    AsmRoutine.Valid 0xC0106000 variableInEbx .appendAddress := by
  have hentry : variableInEbx.stack 1 = 0xC0000000 := by decide
  show Mem.Apart (variableInEbx.stack 1) 8 _ 16
  rw [hentry]
  unfold Mem.Apart
  decide

def appendAddressCall : AsmCall where
  routine := .appendAddress
  layout := .linked
  wfpEntryPoint := 0xC0106000
  afterBios := 0xC0102000
  bios := .unsupported
  m := variableInEbx
  valid := variableInEbx_valid

/-- A variable that the compiler keeps in EBX around the call is lost. -/
theorem conventionLaw_appendAddress : ¬ ConventionLaw appendAddressCall := by
  intro hlaw
  have hback := hlaw.2 (appendAddress variableInEbx).ret rfl
  have hebx := (appendAddress_back_iff variableInEbx variableInEbx_valid).mp hback
  exact absurd hebx (by decide)

end OS90.Laws
