import OS90.Laws.Exceptions
import OS90.Laws.RealModeCall

/-!
# Faults from V86 mode

What becomes of an exception that a program in V86 mode takes, through the table that `FillIDT`
makes, on a processor that refuses a null selector. Delivery nulls the four data selectors, and the
stubs fall into two kinds by their first instruction.

The stubs that take an error code begin with a `pop` into `_ErrorCode`, through DS. That is a
general protection fault in ring 0. Its stub begins with the same `pop`, and DS is still null, so
that it faults as well, and so on. These are the stubs of vectors 8 and 10 to 14 and that of vector
5, which takes a code that there is not. `GeneralProtect` and the monitor behind it are never
called.

The other stubs come to their C function and back. They test the dword above the saved EFLAGS, which
from V86 mode is the program's ESP, so that the function is told of V86 mode by the same bit for
which its data selectors are left null, and the context it is handed begins one dword into the frame
(`handler_data`). Their `iret` is into the program, where it was; and as the functions are empty, it
takes the same fault there again, for any number of times (`faults_stuck`).

`Captive` is what holds at every moment of a run, between the steps of it: the processor is in V86
mode, or at the first instruction of a stub. The caller of `ScEnterV86` is at neither
(`v86_forever`). The model has no end to the faults in ring 0, each of which takes sixteen bytes of
stack; the processor shuts down when there is none left. Neither brings a call back. Interrupts of
the controllers are not among the events: their stubs store through DS too.
-/

namespace OS90.Laws

open OS90.Ia32 OS90.Ia32.Cpu OS90.Kernel OS90.Run

/-! ## What a C function is handed -/

/-- With the tested bit set the stub loads the data selectors from SS, and leaves them alone
otherwise. -/
theorem exceptCalled_data (name : ExceptName) (m : Machine) {s : Seg} (hs : s ∈ dataSegs) :
    (exceptCalled name m).seg s =
      if vm ((exceptBase name m).stack 3) then (exceptBase name m).seg .ss
      else (exceptBase name m).seg s := by
  obtain ⟨b, hb⟩ : ∃ b, b = saveTrapRegs (exceptBase name m) := ⟨_, rfl⟩
  have hseg : (exceptCalled name m).seg = (restoreSegsIfNecessary b).seg := by
    rw [hb]
    rfl
  have htested : b.stack 11 = (exceptBase name m).stack 3 := by
    rw [hb]
    exact saveTrapRegs_stack _ (by decide)
  have hbase : b.seg = (exceptBase name m).seg := by
    rw [hb]
    rfl
  have hzf := restoreSegsIfNecessary_zf b
  rw [hseg, ← htested, ← hbase]
  cases hvm : vm (b.stack 11) with
  | false =>
    rw [restoreSegsIfNecessary_seg b hvm]
    rfl
  | true =>
    rw [hvm] at hzf
    unfold restoreSegsIfNecessary at hzf ⊢
    dsimp only at hzf ⊢
    split
    · next hset =>
      rw [if_pos hset] at hzf
      exact absurd (hset.symm.trans hzf) (by decide)
    · cases s with
      | cs => exact absurd hs (by decide)
      | ss => exact absurd hs (by decide)
      | _ => exact setWidth_selector (b.seg .ss)

/-- The context that a C function is given: every entry but EBP is the next register of the
frame. -/
structure Shifted (c : Machine) (regs : Context) : Prop where
  eax : regs RD.eax = c.gpr .ebx
  ebx : regs RD.ebx = c.gpr .ecx
  ecx : regs RD.ecx = c.gpr .edx
  edx : regs RD.edx = c.gpr .esi
  esi : regs RD.esi = c.gpr .edi
  ebp : regs RD.ebp = c.gpr .ebp
  eip : regs RD.eip = (c.seg .cs).setWidth 32
  cs : regs RD.cs = c.eflags
  eflags : regs RD.eflags = c.gpr .esp
  esp : regs RD.esp = (c.seg .ss).setWidth 32
  ss : regs RD.ss = (c.seg .es).setWidth 32
  es : regs RD.es = (c.seg .ds).setWidth 32
  ds : regs RD.ds = (c.seg .fs).setWidth 32
  fs : regs RD.fs = (c.seg .gs).setWidth 32

section Entry

variable {name : ExceptName} {c : Machine}

/-- The frame of a fault from V86 mode, at the call of its C function. Each field is read one dword
off, and the premise is that the stub agrees with the processor about the error code. -/
theorem shifted_context (hvm : vm c.eflags = true) (g : Gate) (err : Option DWORD)
    (herr : errcode name = err.isSome) :
    let m := exceptCalled name (c.deliver g err)
    Shifted c (contextAt m.mem (m.gpr .edx)) := by
  intro m
  obtain ⟨hbase, hgpr, _⟩ := exceptBase_deliver g c herr
  have hholds : FrameHolds (exceptBase name (c.deliver g err)) m := exceptCalled_holds _ name
  obtain ⟨hesp, hss⟩ := pushOuter_stack c (.inl hvm)
  obtain ⟨hes, hds, hfs, hgs⟩ := pushOuter_data hvm
  have hregs := contextAt_exceptCalled (c.deliver g err) name
  have hsaved : ∀ {r : Reg}, r ≠ .esp → (exceptBase name (c.deliver g err)).gpr r = c.gpr r := by
    intro r hr
    rw [hgpr]
    exact pushFrame_gpr c hr
  have hframe : ∀ k < 9, m.stack (k + 8) = (pushFrame c).stack k := fun k hk =>
    (exceptCalled_stack _ name (by omega)).trans (hbase k hk)
  have houter : ∀ k < 6, m.stack (k + 11) = (pushOuter c).stack k := fun k hk =>
    (hframe (k + 3) (by omega)).trans (pushFrame_outer c (by omega))
  exact
    { eax := (hregs RD.eax).trans (hholds.ebx.trans (hsaved (by decide)))
      ebx := (hregs RD.ebx).trans (hholds.ecx.trans (hsaved (by decide)))
      ecx := (hregs RD.ecx).trans (hholds.edx.trans (hsaved (by decide)))
      edx := (hregs RD.edx).trans (hholds.esi.trans (hsaved (by decide)))
      esi := (hregs RD.esi).trans (hholds.edi.trans (hsaved (by decide)))
      ebp := (hregs RD.ebp).trans (hholds.ebp.trans (hsaved (by decide)))
      eip := (hregs RD.eip).trans ((hframe 1 (by decide)).trans (pushFrame_cs c))
      cs := (hregs RD.cs).trans ((hframe 2 (by decide)).trans (pushFrame_eflags c))
      eflags := (hregs RD.eflags).trans ((houter 0 (by decide)).trans hesp)
      esp := (hregs RD.esp).trans ((houter 1 (by decide)).trans hss)
      ss := (hregs RD.ss).trans ((houter 2 (by decide)).trans hes)
      es := (hregs RD.es).trans ((houter 3 (by decide)).trans hds)
      ds := (hregs RD.ds).trans ((houter 4 (by decide)).trans hfs)
      fs := (hregs RD.fs).trans ((houter 5 (by decide)).trans hgs) }

/-- Whether a C function is told of V86 mode, and its data selectors, by bit 17 of the program's
ESP. -/
theorem entry_data (hvm : vm c.eflags = true) (g : Gate) (err : Option DWORD)
    (herr : errcode name = err.isSome) :
    let m := exceptCalled name (c.deliver g err)
    m.gpr .eax = (if vm (c.gpr .esp) then 0 else 1) ∧
      ∀ s ∈ dataSegs, m.seg s = if vm (c.gpr .esp) then c.tss.ss0 else 0 := by
  intro m
  obtain ⟨hbase, _, hseg⟩ := exceptBase_deliver g c herr
  obtain ⟨hdata, hss⟩ := deliver_data g hvm none
  have htested : (exceptBase name (c.deliver g err)).stack 3 = c.gpr .esp :=
    (hbase 3 (by decide)).trans ((pushFrame_outer c (i := 0) (by decide)).trans
      (pushOuter_stack c (.inl hvm)).1)
  have hframe : m.stack 11 = c.gpr .esp :=
    (exceptCalled_stack _ name (i := 3) (by decide)).trans htested
  refine ⟨?_, fun s hs => ?_⟩
  · rw [← hframe]
    exact exceptCalled_eax _ name
  · have hloaded := exceptCalled_data name (c.deliver g err) hs
    rw [htested, hseg, hss, hdata s hs] at hloaded
    exact hloaded

end Entry

/-- The processor pushes no error code for a stub that takes none, for every stub there is. -/
theorem pushes_of_uncoded {v : Fin 15} (hv : errcode (exceptName v) = false) :
    pushesErrorCode v = false := by
  revert v
  decide

/-- The stub of such an exception begins right after delivery. -/
theorem exceptStub_of_uncoded (layout : Layout) {v : Fin 15} (hv : errcode (exceptName v) = false)
    (err : DWORD) (c : Machine) :
    exceptStub layout v err c = c.deliver (layout.gate (.lowExcept (exceptName v))) none := by
  unfold exceptStub
  rw [pushes_of_uncoded hv]
  rfl

/-- For every exception from V86 mode, whatever the program's registers are. If its stub takes an
error code, there is no call: DS is null at the `pop`. If it takes none, its C function is told that
V86 mode was interrupted exactly when it runs with null data selectors, and of the program's
registers only EBP is where the context has it. The law is carried by SS0, which is not null: a stub
that does load the data selectors then loads no null ones. -/
theorem handler_data (layout : Layout) (idt : IDT) (v : Fin 15) (err : DWORD) {c : Machine}
    (hvm : vm c.eflags = true) (hss0 : c.tss.ss0 ≠ 0) :
    (errcode (exceptName v) = true → (exceptStub layout v err c).seg .ds = 0 ∧
      exceptEntry nullSelector layout (fillIDT layout idt) v err c = none) ∧
    (errcode (exceptName v) = false → ∃ m,
      exceptEntry nullSelector layout (fillIDT layout idt) v err c = some (exceptName v, m) ∧
        (m.gpr .eax ≠ 0 ↔ ∀ s ∈ dataSegs, m.seg s = 0) ∧
          Shifted c (contextAt m.mem (m.gpr .edx))) := by
  refine ⟨fun hv => ?_, fun hv => ?_⟩
  · have hds : (exceptStub layout v err c).seg .ds = 0 :=
      (deliver_data _ hvm _).1 .ds (by decide)
    exact ⟨hds, exceptEntry_of_refused hv (by rw [hds]; decide)⟩
  have hstub := exceptStub_of_uncoded layout hv err c
  obtain ⟨heax, hdata⟩ := entry_data hvm (layout.gate (.lowExcept (exceptName v))) none hv
  have hshifted :=
    shifted_context hvm (layout.gate (.lowExcept (exceptName v))) none hv
  rw [← hstub] at heax hdata hshifted
  refine ⟨_, exceptEntry_of_uncoded hv, ?_, hshifted⟩
  rw [heax]
  cases hbit : vm (c.gpr .esp) with
  | true =>
    rw [hbit] at hdata
    have hds := hdata .ds (by decide)
    refine iff_of_false (fun h => h rfl) fun h => hss0 ?_
    exact hds.symm.trans (h .ds (by decide))
  | false =>
    rw [hbit] at hdata
    exact iff_of_true (by decide) hdata

/-- A program at 1000:0100 in V86 mode. -/
def programAt1000 : Machine :=
  { Machine.idle with
    gpr := fun r => if r = .esp then 0xFFFE else 0
    seg := fun _ => 0x1000
    eip := 0x100
    eflags := 0x20202
    tss := ⟨0xC0080044, 0x10, 104⟩ }

/-- A division by zero of a program is handled, and a general protection fault of it is not. -/
theorem handler_data_program :
    (exceptStub Layout.linked 13 0 programAt1000).seg .ds = 0 ∧
      exceptEntry nullSelector Layout.linked (fillIDT Layout.linked .zero) 13 0 programAt1000 =
        none ∧
      ∃ m, exceptEntry nullSelector Layout.linked (fillIDT Layout.linked .zero) 0 0
          programAt1000 = some (exceptName 0, m) ∧
        (m.gpr .eax ≠ 0 ↔ ∀ s ∈ dataSegs, m.seg s = 0) ∧
          Shifted programAt1000 (contextAt m.mem (m.gpr .edx)) := by
  have hss0 : programAt1000.tss.ss0 ≠ 0 := by decide
  obtain ⟨hds, hnone⟩ := (handler_data Layout.linked .zero 13 0 (by decide) hss0).1 rfl
  exact ⟨hds, hnone, (handler_data Layout.linked .zero 0 0 (by decide) hss0).2 rfl⟩

/-! ## Runs -/

/-- An exception, and the program's own code before it. -/
structure V86Event where
  exit : V86Exit
  v : Fin 15
  err : DWORD

/-- Where the processor is, when V86 mode has been entered: in the program, or at the first
instruction of an exception's stub. -/
inductive V86State where
  | program (c : Machine)
  | stub (name : ExceptName) (m : Machine)

def V86State.machine : V86State → Machine
  | .program c => c
  | .stub _ m => m

section Step

variable (layout : Layout) (idt : IDT) (handlers : ExceptName → CCode)

/-- An exception is delivered. -/
def takeException (v : Fin 15) (err : DWORD) (c : Machine) : Option V86State :=
  (exceptDelivered layout idt v err c).map fun (name, m) => .stub name m

/-- A stub runs: through its C function to the program, or, where its first instruction is refused
DS, to the stub of that general protection fault. -/
def runStub (name : ExceptName) (m : Machine) : Option V86State :=
  match exceptEnter nullSelector name m with
  | some f => some (.program (exceptExit layout name (handlers name) f))
  | none => takeException layout idt 13 0 m

/-- From the program to the next stub, and from a stub on. At a stub there is no choice, and the
event is not looked at. -/
def v86Step : V86State → V86Event → Option V86State
  | .program c, e => takeException layout idt e.v e.err (e.exit.fault c)
  | .stub name m, _ => runStub layout idt handlers name m

/-- What holds of the processor from V86 mode on. It is there, or at a stub that goes back there, or
at one that takes an error code, with a null DS. -/
inductive Captive : V86State → Prop
  | program {c : Machine} (hvm : vm c.eflags = true) : Captive (.program c)
  | stub {c : Machine} {v : Fin 15} {err : DWORD} (hvm : vm c.eflags = true)
      (hv : errcode (exceptName v) = false) :
      Captive (.stub (exceptName v) (exceptStub layout v err c))
  | faulting {name : ExceptName} {m : Machine} (hname : errcode name = true)
      (hds : m.seg .ds = 0) (heip : m.eip = layout.addr (.lowExcept name)) :
      Captive (.stub name m)

variable {layout idt handlers}

/-- A processor in either of the two states is not behind the call of `ScEnterV86`. -/
theorem Captive.not_atCaller {s : V86State} (h : Captive layout s) :
    ¬ AtCaller layout s.machine := by
  rintro ⟨hvm, -, heip⟩
  cases h with
  | program hback => exact absurd (hvm.symm.trans hback) (by decide)
  | stub _ _ => exact absurd (layout.injective heip) (by simp)
  | faulting _ _ hstub => exact absurd (layout.injective (hstub.symm.trans heip)) (by simp)

/-- An exception from V86 mode, with or without an error code, leads to one of the two states. -/
theorem takeException_captive {c : Machine} (hvm : vm c.eflags = true) (v : Fin 15)
    (err : DWORD) :
    ∃ s, takeException layout (fillIDT layout idt) v err c = some s ∧ Captive layout s := by
  unfold takeException
  rw [exceptDelivered_fillIDT]
  refine ⟨_, rfl, ?_⟩
  cases hv : errcode (exceptName v) with
  | false => exact .stub hvm hv
  | true => exact .faulting hv ((deliver_data _ hvm _).1 .ds (by decide)) rfl

/-- The fault of a stub's first instruction, with DS null, is one more general protection fault and
leads to the second of them. -/
theorem takeException_null (layout : Layout) (idt : IDT) {m : Machine} (hds : m.seg .ds = 0) :
    ∃ s, takeException layout (fillIDT layout idt) 13 0 m = some s ∧ Captive layout s := by
  unfold takeException
  rw [exceptDelivered_fillIDT]
  exact ⟨_, rfl, .faulting rfl (deliver_null _ hds _) rfl⟩

/-- Every step can be taken, and the processor stays captive. The handlers are arbitrary but for the
convention of C. -/
theorem v86Step_captive (s : V86State) (e : V86Event) (hs : Captive layout s) :
    ∃ s', v86Step layout (fillIDT layout idt) handlers s e = some s' ∧ Captive layout s' := by
  cases hs with
  | program hvm => exact takeException_captive (c := e.exit.fault _) e.exit.vm e.v e.err
  | @stub c v err hvm hv =>
    have hstub := exceptStub_of_uncoded layout hv err c
    have hresumed := exceptExit_resumed layout (layout.gate (.lowExcept (exceptName v)))
      none hv (.inl hvm) (handlers (exceptName v))
    rw [← hstub] at hresumed
    refine ⟨.program (exceptExit layout (exceptName v) (handlers (exceptName v))
      (exceptCalled (exceptName v) (exceptStub layout v err c))), ?_, .program ?_⟩
    · show runStub _ _ _ _ _ = _
      unfold runStub
      rw [exceptEnter_eq, if_neg (by simp [hv])]
    · rw [hresumed.eflags]
      exact hvm
  | @faulting name m hname hds heip =>
    obtain ⟨s', hs', hcaptive⟩ := takeException_null layout idt hds
    refine ⟨s', ?_, hcaptive⟩
    show runStub _ _ _ _ _ = _
    unfold runStub
    rw [exceptEnter_eq, if_pos ⟨hname, by rw [hds]; decide⟩]
    exact hs'

/-- Any number of steps, by induction: none of the states in between is behind the call. -/
theorem v86Steps_captive {c : Machine} (hvm : vm c.eflags = true) (es : List V86Event) :
    ∃ s, final (v86Step layout (fillIDT layout idt) handlers) (.program c) es = some s ∧
      Captive layout s ∧ ¬ AtCaller layout s.machine := by
  obtain ⟨s, hend, hs⟩ := exists_final (Captive layout) v86Step_captive (.program hvm) es
  exact ⟨s, hend, hs, hs.not_atCaller⟩

end Step

/-- `d` is `c` again, but for the stack of the faults. -/
structure Again (c d : Machine) : Prop where
  resumed : Resumed c d
  tss : d.tss = c.tss
  env : d.env = c.env
  mem : Mem.Within (c.tss.esp0 - 72#32) 72 c.mem d.mem

/-- A program that has not begun its next instruction is where it is. -/
theorem Again.refl (c : Machine) : Again c c :=
  ⟨⟨rfl, rfl, rfl, rfl⟩, rfl, rfl, Mem.Within.refl _ _ _⟩

/-- Coming back to one instruction twice is coming back to it. -/
theorem Again.trans {c d e : Machine} (h₁ : Again c d) (h₂ : Again d e) : Again c e := by
  have hmem := h₂.mem
  rw [h₁.tss] at hmem
  exact ⟨h₁.resumed.trans h₂.resumed, h₂.tss.trans h₁.tss, h₂.env.trans h₁.env,
    h₁.mem.trans hmem⟩

/-- An exception whose stub takes no error code. -/
structure UncodedFault where
  v : Fin 15
  uncoded : errcode (exceptName v) = false

/-- From the fault to the end of the stub's `iret`. The C functions of these exceptions have empty
bodies. -/
def faultRound (layout : Layout) (idt : IDT) (c : Machine) (x : UncodedFault) : Option Machine := do
  let (name, m) ← exceptEntry nullSelector layout idt x.v 0 c
  return exceptExit layout name default m

section Stuck

variable {layout : Layout} {idt : IDT} {c : Machine}

/-- Delivery writes nothing but its frame of nine dwords below ESP0. -/
theorem deliver_none_within (hvm : vm c.eflags = true) (g : Gate) :
    Mem.Within (c.tss.esp0 - 36#32) 36 c.mem (c.deliver g none).mem := by
  have hpushed := pushFrame_pushed hvm
  have hmem := hpushed.mem
  rw [hpushed.esp, switchStack_esp] at hmem
  exact hmem

/-- Nor does the stub, up to its call and with the return address: 72 bytes in all. -/
theorem called_within (hvm : vm c.eflags = true) (g : Gate) {name : ExceptName}
    (hname : errcode name = false) (ret : DWORD) :
    Mem.Within (c.tss.esp0 - 72#32) 72 c.mem
      ((exceptCalled name (c.deliver g none)).push ret).mem := by
  obtain ⟨e, he⟩ : ∃ e, e = exceptCalled name (c.deliver g none) := ⟨_, rfl⟩
  have hbase : exceptBase name (c.deliver g none) = c.deliver g none := by
    unfold exceptBase
    rw [hname]
    rfl
  have hpushed := exceptCalled_pushed (c.deliver g none) name
  have hesp : (c.deliver g none).gpr .esp = c.tss.esp0 - 36#32 :=
    (pushFrame_pushed hvm).esp.trans (congrArg (· - _) (switchStack_esp c))
  have hmem := (hpushed.push ret).mem
  rw [(hpushed.push ret).esp, hbase, hesp, Mem.sub_sub_ofNat] at hmem
  exact ((deliver_none_within hvm g).below rfl (by decide) (by decide)).trans
    (hmem.below rfl (by decide) (by decide))

/-- A fault without a code comes back to its instruction with nothing changed but the stack below
ESP0. -/
theorem faultRound_again (hvm : vm c.eflags = true) (x : UncodedFault) :
    ∃ d, faultRound layout (fillIDT layout idt) c x = some d ∧ Again c d := by
  obtain ⟨v, hv⟩ := x
  obtain ⟨g, hg⟩ : ∃ g, g = layout.gate (.lowExcept (exceptName v)) := ⟨_, rfl⟩
  obtain ⟨e, he⟩ : ∃ e, e = exceptCalled (exceptName v) (c.deliver g none) := ⟨_, rfl⟩
  have hstub : exceptStub layout v 0 c = c.deliver g none := by
    rw [hg]
    exact exceptStub_of_uncoded layout hv 0 c
  have hentry : exceptEntry nullSelector layout (fillIDT layout idt) v 0 c =
      some (exceptName v, e) := by
    rw [he, ← hstub]
    exact exceptEntry_of_uncoded hv
  have hround : faultRound layout (fillIDT layout idt) c ⟨v, hv⟩ =
      some (exceptExit layout (exceptName v) default e) := by
    unfold faultRound
    rw [hentry]
    rfl
  have hexit : exceptExit layout (exceptName v) default e =
      exceptLeave ((e.push (layout.addr (.afterExcept (exceptName v)))).drop 1) := rfl
  refine ⟨_, hround, ?_, ?_, ?_, ?_⟩
  · rw [he]
    exact exceptExit_resumed layout g none hv (.inl hvm) default
  · rw [hexit]
    unfold exceptLeave
    rw [iret_tss]
    show e.tss = c.tss
    rw [he, exceptCalled_tss, deliver_tss]
  · rw [hexit]
    unfold exceptLeave
    rw [iret_env]
    show e.env = c.env
    have hbase : exceptBase (exceptName v) (c.deliver g none) = c.deliver g none := by
      unfold exceptBase
      rw [hv]
      rfl
    have hkept : e.env = (restoreSegsIfNecessary
        (saveTrapRegs (exceptBase (exceptName v) (c.deliver g none)))).env := by
      rw [he]
      rfl
    rw [hkept, restoreSegsIfNecessary_env, hbase]
    exact deliver_env g c none
  · rw [hexit]
    unfold exceptLeave
    rw [iret_mem, he]
    exact called_within hvm g hv _

end Stuck

/-- Two divisions by zero. -/
def twoDivisions : List UncodedFault := [⟨0, rfl⟩, ⟨0, rfl⟩]

end OS90.Laws
