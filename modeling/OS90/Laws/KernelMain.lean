import OS90.Kernel.Main
import OS90.Kernel.StartK
import OS90.Laws.V86Fault

/-!
# From the kernel's `lgdt` to the first BIOS call

What the kernel does from the image in memory on. `Begin` loads the two table registers and the
segment registers through them, and calls `KernelMain`; `InitIA32` completes the tables, and
`ScVirtual86_Int` enters the BIOS with the letter in AX, at the entry point that is in memory for
vector 10h. The law is of the three as they run one after the other, over one memory
(`StartMain.loaded`). None of the loads is a fault: the descriptors that are read are those of the
initialised structure, and the segments that the code runs with afterwards are flat, which is what
the model of everything after relies on (`MainBegun.flat`). Of the registers the BIOS is entered
with, four and the entry point are the kernel's, and the others are what was on the stack.

That is all of it. Whatever the BIOS does then, and whichever exceptions it takes through the table
that has been built, the call does not return (`kernelMain_run`). The first exception whose stub
takes an error code, such as the general protection fault of a CLI, is the last that anything but a
stub is run for.
-/

namespace OS90.Laws

open OS90.Ia32 OS90.Ia32.Cpu OS90.Kernel OS90.Run

/-! ## The tables are loaded -/

/-- The kernel's memory when `Begin` comes to its `lgdt`: besides that of `KernelMain`, the operands
of `lgdt` and `lidt`, and the return address on the first stack. -/
structure StartMain extends MainSite where
  start : StartSite
  gdtr_idtr : Mem.Apart start.gdtr 6 start.idtr 6
  gdtr_tables : Mem.Apart start.gdtr 6 tables.base sizeofIa32Struct
  idtr_tables : Mem.Apart start.idtr 6 tables.base sizeofIa32Struct
  tables_ret : Mem.Apart tables.base sizeofIa32Struct (start.initStack - 4#32) 4

/-- The machine with the kernel's image in memory. -/
def StartMain.loaded (s : StartMain) (m : Machine) : Machine :=
  s.tables.loaded { m with
    mem := (m.mem.storeRegister s.start.idtr (idtrInit s.tables.base)).storeRegister
      s.start.gdtr (gdtrInit s.tables.base) }

/-- What `KernelMain` is called with, when the image is in the memory of `m`. -/
structure MainBegun (s : StartMain) (m : Machine) (k : Started Statics) : Prop where
  called : AtMain s.start (s.loaded m) k
  gdtr : k.gdtr = gdtrInit s.tables.base
  idtr : k.idtr = idtrInit s.tables.base
  flat : ∀ r ∈ [Seg.cs, Seg.ds, Seg.es, Seg.ss],
    ∃ d, k.gdtr.descriptor k.machine.mem (k.machine.seg r) = some d ∧ d.Flat
  /-- The structure is as it was initialised. -/
  tables : s.tables.loaded k.machine = k.machine

section Start

variable (s : StartMain) (m : Machine)

/-- The operand of `lgdt` as it is assembled into the start of the kernel. -/
theorem StartMain.loaded_gdtr :
    (s.loaded m).mem.tableRegister s.start.gdtr = gdtrInit s.tables.base := by
  have hstored := Mem.tableRegister_storeRegister
    (m.mem.storeRegister s.start.idtr (idtrInit s.tables.base)) s.start.gdtr
    (gdtrInit s.tables.base)
  rw [← hstored]
  exact Mem.tableRegister_congr fun i hi =>
    (Mem.splice_within _ _ _ _).byte s.gdtr_tables hi

/-- And that of `lidt`. -/
theorem StartMain.loaded_idtr :
    (s.loaded m).mem.tableRegister s.start.idtr = idtrInit s.tables.base := by
  have hstored := Mem.tableRegister_storeRegister m.mem s.start.idtr (idtrInit s.tables.base)
  rw [← hstored]
  exact Mem.tableRegister_congr fun i hi =>
    ((Mem.splice_within _ _ _ _).byte s.idtr_tables hi).trans
      ((Mem.storeRegister_within _ _ _).byte s.gdtr_idtr.symm hi)

/-- A descriptor of the structure, found through the register by its selector. The premise is that
the structure is in memory as it was loaded. -/
theorem descriptor_static {c : Machine} (hc : s.tables.loaded c = c) (g : GdtEntry)
    (sel : Selector) (hsel : (sel &&& 0xFFF8#16).toNat = 8 * g.val) :
    (gdtrInit s.tables.base).descriptor c.mem sel = some (gdtStatic g) := by
  have hg := g.val_lt
  have hlimit : (gdtrInit s.tables.base).limit.toNat = 79 := rfl
  have hplace : selected s.tables.base sel = gdtEntry s.tables.base g := by
    unfold selected gdtEntry
    refine congrArg (s.tables.base + ·) (BitVec.eq_of_toNat_eq ?_)
    rw [BitVec.toNat_setWidth, hsel, BitVec.toNat_ofNat]
  have hstatic := loaded_descriptor s.tables c g
  rw [hc] at hstatic
  unfold TableRegister.descriptor
  rw [if_pos (by rw [hsel, hlimit]; omega)]
  exact congrArg some ((congrArg c.mem.descriptor hplace).trans hstatic)

/-- The structure that is in memory stays there, whatever is written apart from it. -/
theorem loaded_of_within {c : Machine} {lo : PTR} {n : Nat}
    (hwithin : Mem.Within lo n (s.loaded m).mem c.mem)
    (hapart : Mem.Apart s.tables.base sizeofIa32Struct lo n) : s.tables.loaded c = c := by
  have hbytes : ∀ k < sizeofIa32Struct, c.mem.byte s.tables.base k = staticImage k :=
    fun k hk => (hwithin.byte hapart hk).trans (loaded_byte s.tables _ hk)
  unfold StructSite.loaded loadStruct
  rw [Mem.splice_self hbytes]

/-- From `lgdt` to the call of `KernelMain`, without a fault: each of the loads finds a descriptor
of the kind it needs. -/
theorem start_enters : ∃ k, beginMain s.start (s.loaded m) = some k ∧ MainBegun s m k := by
  have hgdtr := s.loaded_gdtr m
  have hloaded := loaded_of_within s m (Mem.Within.refl s.start.gdtr 0 _)
    (fun _ _ => Nat.zero_le _)
  have hcode := descriptor_static s hloaded .kcode 8 rfl
  have hdata := descriptor_static s hloaded .kdata 0x10 rfl
  rw [← hgdtr] at hcode hdata
  have hlimit : s.start.cont.toNat ≤ (gdtStatic .kcode).limit := by
    have hflat : (gdtStatic .kcode).limit = 2 ^ 32 - 1 := by decide
    have hcont := s.start.cont.isLt
    omega
  obtain ⟨k, hk, hcalled⟩ := beginMain_run s.start hcode hdata (by decide) hlimit (by decide)
    (by decide)
  have htables : s.tables.loaded k.machine = k.machine := by
    refine loaded_of_within s m ?_ s.tables_ret
    rw [hcalled.mem]
    exact Mem.write32_within _ _ _
  have hreg : k.gdtr = gdtrInit s.tables.base := hcalled.gdtr.trans hgdtr
  refine ⟨k, hk, ⟨hcalled, hreg, hcalled.idtr.trans (s.loaded_idtr m), fun r hr => ?_, htables⟩⟩
  rw [hreg, hcalled.seg]
  simp only [List.mem_cons, List.not_mem_nil, or_false] at hr
  rcases hr with rfl | rfl | rfl | rfl
  · exact ⟨_, descriptor_static s htables .kcode 8 rfl, by decide⟩
  · exact ⟨_, descriptor_static s htables .kdata 0x10 rfl, by decide⟩
  · exact ⟨_, descriptor_static s htables .kdata 0x10 rfl, by decide⟩
  · exact ⟨_, descriptor_static s htables .kdata 0x10 rfl, by decide⟩

end Start

/-! ## KernelMain -/

section Main

variable (layout : Layout) (afterTss afterLdt : PTR) (s : MainSite) (m : Machine)

/-- The machine `e` in which the BIOS starts, when `KernelMain` has started in `m`. -/
structure MainEntered (e : Machine) : Prop where
  tables : ∃ tr ldtr, InitSpec layout s.tables.base ⟨e, tr, ldtr⟩
  loads : Loaded (vectorContext (mainContext (contextAt m.mem s.regparm)) (realModeIvt m 0x10)) e
  /-- Where an exception finds its stack. -/
  stack : e.tss = ⟨s.call.callEsp - 32#32, 0x10, TSS_ALLOW_OFFSET⟩

variable {m}

/-- What `InitIA32` leaves alone, by the place of its stack and of the structure. -/
theorem initIA32_left {i : Initialised}
    (hi : initIA32 layout afterTss afterLdt s.tables (s.tables.loaded m) = some i) {x : PTR}
    (hargs : 16 ≤ (x - (s.tables.esp - 16#32)).toNat)
    (htables : sizeofIa32Struct ≤ (x - s.tables.base).toNat) : i.machine.mem x = m.mem x := by
  rw [initIA32_elsewhere layout afterTss afterLdt s.tables _ hi hargs htables]
  exact Mem.splice_within _ _ _ _ x htables

/-- `KernelMain` comes to the BIOS, for every state it is called in. Up to there only the tables,
the context and the stack are written. -/
theorem kernelMain_enters : ∃ e, kernelMain layout afterTss afterLdt s.toMainFrame
    (s.tables.loaded m) = some e ∧ MainEntered layout s m e := by
  obtain ⟨i, hi, hspec⟩ := initIA32_spec layout afterTss afterLdt s.tables m
  obtain ⟨start, hstart⟩ : ∃ start : Machine,
    start = { i.machine with tss := tssFields s.tables.base i.machine.mem } := ⟨_, rfl⟩
  obtain ⟨c, hc⟩ : ∃ c, c = mainRegparm s.regparm start := ⟨_, rfl⟩
  obtain ⟨e, he⟩ : ∃ e, e = virtual86Entered layout s.call s.regparm 0x10 c := ⟨_, rfl⟩
  have hrun : kernelMain layout afterTss afterLdt s.toMainFrame (s.tables.loaded m) = some e := by
    unfold kernelMain mainCalls
    rw [hi, he, hc, hstart]
    rfl
  have hstored : Mem.Within s.regparm 68 i.machine.mem c.mem := by
    have hwithin := mainRegparm_within s.regparm start
    rw [← hc, hstart] at hwithin
    exact hwithin
  have hleft := fun {x} => initIA32_left layout afterTss afterLdt s hi (x := x)
  -- the entry point and the context, from what was there
  have hlow : ∀ x : PTR, x.toNat < realModeLimit → c.mem x = m.mem x := fun x hx =>
    (hstored x (s.regparm_high.outside hx)).trans
      (hleft (s.args_high.outside hx) (s.tables_high.outside hx))
  have hivt : realModeIvt c 0x10 = realModeIvt m 0x10 := by
    unfold realModeIvt Mem.read32
    rw [hlow _ (by decide), hlow _ (by decide), hlow _ (by decide), hlow _ (by decide)]
  have hfound : contextAt start.mem s.regparm = contextAt m.mem s.regparm := by
    rw [hstart]
    exact contextAt_congr fun k hk => hleft (s.regparm_args k hk) (s.tables_regparm.symm k hk)
  have hcontext : contextAt c.mem s.regparm = mainContext (contextAt m.mem s.regparm) := by
    rw [hc, contextAt_mainRegparm, hfound]
  have hentry : contextAt (virtual86IntBegin s.call.newContext s.regparm 0x10 c).mem
      s.call.newContext = vectorContext (contextAt c.mem s.regparm) (realModeIvt c 0x10) :=
    funext fun r => virtual86IntBegin_context c 0x10
      (Frame.apart_newContext (by decide) s.regparm_stack)
      (Frame.apart_newContext (by decide) s.stack_high.ivt) r
  have hloads := virtual86Entered_loads layout s.call s.regparm 0x10 c
  rw [hentry, hcontext, hivt, ← he] at hloads
  -- the task state segment
  have hss0 : e.tss.ss0 = 0x10 := by
    rw [he]
    refine (virtual86Entered_ss0 layout s.call s.regparm 0x10 c).trans ?_
    rw [hc, hstart]
    exact hspec.ss0
  have hfields : ∀ t : Tss, t = ⟨t.esp0, t.ss0, t.iobpOff⟩ := fun _ => rfl
  -- the tables, under the stores of the context and of the call
  have hbytes : ∀ k < sizeofIa32Struct,
      e.mem.byte s.tables.base k = i.machine.mem.byte s.tables.base k := by
    intro k hk
    rw [he]
    exact ((virtual86Entered_below layout s.call s.regparm 0x10 c (by decide) (by decide)).byte
      s.tables_stack hk).trans (hstored.byte s.tables_regparm hk)
  refine ⟨e, hrun, ⟨i.tr, i.ldtr, hspec.congr hbytes⟩, hloads, ?_⟩
  rw [hfields e.tss, hss0, he, virtual86Entered_esp0, virtual86Entered_iobpOff]

/-- For every layout of the kernel, every memory with the kernel's image in it, every BIOS, every
run of exceptions in it and every C code behind them: `Begin` loads its tables and calls
`KernelMain` with flat segments, and `KernelMain` enters the BIOS at the entry point of vector 10h
with the letter, page 0 and a real-mode stack at 9000:FFFE. From there on the processor is in V86
mode or at the first instruction of an exception's stub, and `KernelMain` is not gone on with. The
places of the tables, the context and the stack, each apart from the others, are what `StartMain`
asks for; that the image comes there is the boot program's part, and is not established here. -/
theorem kernelMain_run (s : StartMain) (handlers : ExceptName → CCode) (m : Machine)
    (es : List V86Event) :
    ∃ k, beginMain s.start (s.loaded m) = some k ∧ MainBegun s m k ∧
      ∃ e, kernelMain layout afterTss afterLdt s.toMainFrame k.machine = some e ∧
        MainEntered layout s.toMainSite k.machine e ∧
          ∃ d, final (v86Step layout (idtTable s.tables.base e.mem) handlers) (.program e) es =
              some d ∧ Captive layout d ∧ ¬ AtCaller layout d.machine := by
  obtain ⟨k, hk, hbegun⟩ := start_enters s m
  obtain ⟨e, he, hentered⟩ := kernelMain_enters layout afterTss afterLdt s.toMainSite
    (m := k.machine)
  rw [hbegun.tables] at he
  obtain ⟨tr, ldtr, hspec⟩ := hentered.tables
  refine ⟨k, hk, hbegun, e, he, hentered, ?_⟩
  rw [hspec.idt]
  exact v86Steps_captive hentered.loads.vm es

end Main

/-- The kernel's memory with the tables in its second megabyte, the stack above them, and the two
operands at the end. -/
instance : Inhabited StartMain where
  default.tables := .linked
  default.call := ⟨0xC017FF00#32, 0x120, by decide, 0x18, by decide⟩
  default.regparm := 0xC0180040#32
  default.tables_high := ⟨by decide, by decide⟩
  default.args_high := ⟨by decide, by decide⟩
  default.regparm_high := ⟨by decide, by decide⟩
  default.stack_high := ⟨by decide, by decide⟩
  default.tables_stack := Mem.apart_of_le (by decide) (by decide) (by decide)
  default.tables_regparm := Mem.apart_of_le (by decide) (by decide) (by decide)
  default.regparm_stack := Mem.apart_of_le (by decide) (by decide) (by decide)
  default.regparm_args := Mem.apart_of_le (by decide) (by decide) (by decide)
  default.start := ⟨0xC01F0000#32, 0xC01F0008#32, 0xC0001003#32, 0xC0180200#32, 0xC0001010#32⟩
  default.gdtr_idtr := Mem.apart_of_le (by decide) (by decide) (by decide)
  default.gdtr_tables := Mem.apart_of_le (by decide) (by decide) (by decide)
  default.idtr_tables := Mem.apart_of_le (by decide) (by decide) (by decide)
  default.tables_ret := Mem.apart_of_le (by decide) (by decide) (by decide)

end OS90.Laws
