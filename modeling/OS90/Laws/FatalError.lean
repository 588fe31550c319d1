import OS90.Kernel.FatalError
import OS90.Laws.V86Fault

/-!
# A fatal error

`Panicked` is what `FatalError` leaves behind when it has called the BIOS: no driver's link on any
trap chain, and the BIOS entered with AX=3 and every other register zero, the real-mode stack
included. No run comes back to `FatalError` from there, so that the screen is never reached: the
processor stays in V86 mode or in the stubs of its exceptions (`v86Steps_captive`).

`Painted` is what the rest of the function would do. The message is not printed, since `KeLogf`
gives up before it has handed on a character, and it is the character of every cell that becomes
17h, not its attribute. Both hold for every BIOS, every error code and every state of the chains and
of the machine (`fatalError_run`).
-/

namespace OS90.Laws

open OS90.Ia32 OS90.Ia32.Cpu OS90.Kernel OS90.Run

/-- A call of `FatalError`: its local array and the frame of its BIOS call, away from the interrupt
vector table. -/
structure PanicSite extends CallSite where
  ivt : Mem.Apart 0#32 1024 frame.newContext 68

/-- A context of the kernel's is out of reach of real mode, and of its vector table. -/
theorem ivt_apart_context (site : CallSite) : Mem.Apart 0#32 1024 site.context 68 := by
  intro i hi
  by_contra hin
  obtain ⟨k, hk⟩ : ∃ k, k = (0#32 + BitVec.ofNat 32 i - site.context).toNat := ⟨_, rfl⟩
  have hplace : site.context + BitVec.ofNat 32 k = BitVec.ofNat 32 i := by
    rw [hk, BitVec.ofNat_toNat, BitVec.setWidth_eq]
    grind
  have hclear := (site.clear k (by omega)).2
  rw [hplace, BitVec.toNat_ofNat] at hclear
  unfold realModeLimit at hclear
  omega

/-- The chains, and the machine in which the BIOS starts. -/
structure Panicked (m : Machine) (r : Chains × Machine) : Prop where
  detached : ∀ v, (r.1.head v).next = none
  entered : Loaded (vectorContext (eaxContext 3) (realModeIvt m 0x10)) r.2

/-- The machine behind the last loop: of all that was, the characters are changed. -/
structure Painted (m m' : Machine) : Prop where
  gpr : m'.gpr = m.gpr
  characters : ∀ k < 2000, m'.mem (textAttrib + BitVec.ofNat 32 (2 * k)) = 0x17
  attributes : ∀ k < 2000, m'.mem (textAttrib + BitVec.ofNat 32 (2 * k + 1)) =
    m.mem (textAttrib + BitVec.ofNat 32 (2 * k + 1))
  elsewhere : Mem.Within textAttrib 4000 m.mem m'.mem

/-- The offsets of the cells in the frame buffer do not wrap. -/
theorem screen_distance {k : Nat} (hk : k < 2 ^ 32) :
    (textAttrib + BitVec.ofNat 32 k - textAttrib).toNat = k := by
  have hdist : textAttrib + BitVec.ofNat 32 k - textAttrib = BitVec.ofNat 32 k := by grind
  rw [hdist, BitVec.toNat_ofNat, Nat.mod_eq_of_lt hk]

section Panic

variable (layout : Layout)

/-- Up to the switch of the video mode the panic has only printed, and what it needs to go on is
still there. -/
theorem fatalErrorBegin_panicked (site : PanicSite) (c : Chains) (m : Machine) :
    Panicked m (fatalErrorBegin layout site.toCallSite c m) := by
  refine ⟨fun _ => rfl, ?_⟩
  have hloads := site.entered_loads layout site.ivt 0x10 (initRegparm site.context 3 m)
  have hivt : realModeIvt (initRegparm site.context 3 m) 0x10 = realModeIvt m 0x10 :=
    realModeIvt_of_within 0x10 (initRegparm_within site.context 3 m)
      (ivt_apart_context site.toCallSite)
  rw [hivt, contextAt_initRegparm] at hloads
  exact hloads

theorem fatalErrorEnd_painted (idt : IDT) (rm : RealMode) (h : QuietPath) (err : DWORD)
    (put : CallSite) (around : Format) (errorCode : DWORD) (m : Machine) :
    ∃ rounds m', fatalErrorEnd nullSelector layout idt rm h err put around rounds errorCode m =
      some m' ∧ Painted m m' := by
  obtain ⟨log, ⟨logRounds, hlog⟩, houtput⟩ := fatalMessage_silent around
  obtain ⟨mem, ⟨blueRounds, hblue⟩, hscreen⟩ := blue_leaves m.mem
  have hlog' : keLogf (formatOf fatalMessage around) (max logRounds blueRounds) = some log :=
    Loop.run_mono hlog (Nat.le_max_left _ _)
  have hblue' := Loop.run_mono hblue (Nat.le_max_right logRounds blueRounds)
  refine ⟨max logRounds blueRounds, { m with mem := mem }, ?_, rfl, fun k hk => ?_,
    fun k hk => ?_, fun x hx => ?_⟩
  · unfold fatalErrorEnd
    simp only [Option.bind_eq_bind, Option.bind_some, hlog', houtput, List.foldlM_nil,
      Option.pure_def, hblue']
  · have hdist := screen_distance (k := 2 * k) (by omega)
    show mem _ = _
    rw [hscreen, hdist, if_pos ⟨by omega, by omega⟩]
    rfl
  · have hdist := screen_distance (k := 2 * k + 1) (by omega)
    show mem _ = _
    rw [hscreen, hdist, if_neg (by omega)]
  · show mem x = _
    rw [hscreen, if_neg (by omega)]

end Panic

/-- The array above the frame, both in the kernel's memory. -/
instance : Inhabited PanicSite where
  default.toCallSite := kernelCall
  default.ivt := by
    intro i hi
    have hdist : 0#32 + BitVec.ofNat 32 i - 0xC007FF10#32 =
        0x3FF800F0#32 + BitVec.ofNat 32 i := by grind
    have hplace : kernelCall.frame.newContext = 0xC007FF10#32 := rfl
    rw [hplace, hdist, BitVec.toNat_add, BitVec.toNat_ofNat, BitVec.toNat_ofNat]
    omega

end OS90.Laws
