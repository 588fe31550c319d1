import OS90.Kernel.RealModeCall

/-!
# The machine a real-mode call enters

What `ScVirtual86_Int` and `ScEnterV86` together load the processor with. The local array gets the
caller's context and the entry point of the vector (`virtual86IntBegin_context`). `ScEnterV86` reads
it through EBX, while it pushes its frame below, and the pushes and the array are apart; so each
register is loaded with the entry that is its own (`scEnterV86_loads`).

`Frame` is the stack frame of the call in C, with the array in it, and `CallSite` adds the context
of the caller, which lies elsewhere. Both are structures whose fields say what is apart from what. A
compiler's frame is as large as it likes, up to a bound that leaves room below it.

What the processor is loaded with is `Loaded`: each register has the entry that is its own, and the
flags are those of the kernel with V86 mode on. Nothing here says that the program returns.
-/

namespace OS90.Kernel

open OS90.Ia32 OS90.Ia32.Cpu

/-! ## The local array -/

/-- The context of the caller is not in the local array, by the fields of a call site. -/
theorem CallSite.context_apart (site : CallSite) :
    Mem.Apart site.context 68 site.frame.newContext 68 := by
  intro k hk
  have hclear := (site.clear k hk).1
  have hplace := site.frame.place_le
  have hsize := site.frame.size_lt
  have hdist : site.context + BitVec.ofNat 32 k - site.frame.newContext =
      (site.context + BitVec.ofNat 32 k - site.frame.low) -
        BitVec.ofNat 32 (0x1000000 + site.frame.place) := by
    unfold Frame.low Frame.newContext
    rw [BitVec.ofNat_add]
    grind
  unfold Frame.span at hclear
  rw [hdist, BitVec.toNat_sub, BitVec.toNat_ofNat]
  omega

/-- The local array is above the part of the stack that is in use below the frame. -/
theorem Frame.newContext_apart (f : Frame) {c n : Nat} (hn : n ≤ c) (hc : c < 2 ^ 24) :
    Mem.Apart f.newContext 68 (f.callEsp - BitVec.ofNat 32 c) n := by
  intro k hk
  have hplace := f.place_le
  have hsize := f.size_lt
  have hdist : f.newContext + BitVec.ofNat 32 k - (f.callEsp - BitVec.ofNat 32 c) =
      BitVec.ofNat 32 (f.place + k + c) := by
    unfold Frame.newContext
    rw [BitVec.ofNat_add, BitVec.ofNat_add]
    grind
  rw [hdist, BitVec.toNat_ofNat]
  omega

section Begin

variable {newContext context : PTR} (m : Machine)

/-- A copy of some of the entries: those are the ones of the source, and the others are as before.
The whole copy is the list of all. -/
theorem contextAt_copyContext_foldl (hapart : Mem.Apart context 68 newContext 68)
    (l : List (Fin 17)) (i : Fin 17) :
    contextAt (l.foldl (fun m i => m.store (newContext + tf i) (m.mem.read32 (context + tf i)))
        m).mem newContext i =
      if i ∈ l then contextAt m.mem context i else contextAt m.mem newContext i := by
  induction l generalizing m with
  | nil => rw [List.foldl_nil, if_neg List.not_mem_nil]
  | cons j l ih =>
    have hsource : contextAt (m.store (newContext + tf j) (m.mem.read32 (context + tf j))).mem
        context = contextAt m.mem context :=
      contextAt_of_within (store_tf_within newContext j _) hapart
    rw [List.foldl_cons, ih, hsource, contextAt_store]
    by_cases hl : i ∈ l
    · rw [if_pos hl, if_pos (List.mem_cons_of_mem j hl)]
    · by_cases hij : i = j
      · rw [if_neg hl, if_pos hij, if_pos (hij ▸ List.mem_cons_self), hij]
        rfl
      · rw [if_neg hl, if_neg hij, if_neg (fun h => (List.mem_cons.mp h).elim hij hl)]

/-- The copy of a context is read back if the two lie apart. -/
theorem contextAt_copyContext (hapart : Mem.Apart context 68 newContext 68) (i : Fin 17) :
    contextAt (copyContext newContext context m).mem newContext i = contextAt m.mem context i := by
  unfold copyContext
  rw [contextAt_copyContext_foldl m hapart, if_pos (List.mem_finRange i)]

/-- A vector's entry is not disturbed by a change to the array. -/
theorem realModeIvt_of_within {m m' : Machine} (vector : BYTE)
    (h : Mem.Within newContext 68 m.mem m'.mem) (hivt : Mem.Apart 0#32 1024 newContext 68) :
    realModeIvt m' vector = realModeIvt m vector := by
  have hvector := vector.isLt
  have hplace : vector.setWidth 32 * 4#32 = 0#32 + BitVec.ofNat 32 (4 * vector.toNat) := by
    apply BitVec.eq_of_toNat_eq
    rw [BitVec.toNat_mul, BitVec.toNat_setWidth, BitVec.toNat_add, BitVec.toNat_ofNat,
      BitVec.toNat_ofNat, BitVec.toNat_ofNat]
    omega
  unfold realModeIvt
  rw [hplace]
  exact h.read32_apart hivt (by omega)

/-- The array has the vector's entry point, and the caller's entries beside it. -/
theorem virtual86IntBegin_context (vector : BYTE) (hapart : Mem.Apart context 68 newContext 68)
    (hivt : Mem.Apart 0#32 1024 newContext 68) (i : Fin 17) :
    contextAt (virtual86IntBegin newContext context vector m).mem newContext i =
      if i = RD.eip then realModeIvt m vector &&& 0xFFFF#32
      else if i = RD.cs then realModeIvt m vector >>> 16
      else contextAt m.mem context i := by
  let begun : Machine := { m with env := { m.env with supervisorCall := 1 } }
  obtain ⟨copied, hcopied⟩ : ∃ copied, copied = copyContext newContext context begun := ⟨_, rfl⟩
  have hwithin : Mem.Within newContext 68 m.mem copied.mem := by
    rw [hcopied]
    exact copyContext_within (m := begun) newContext context
  have hcopy : contextAt copied.mem newContext i = contextAt m.mem context i := by
    rw [hcopied]
    exact contextAt_copyContext begun hapart i
  have hcs : realModeIvt copied vector = realModeIvt m vector :=
    realModeIvt_of_within vector hwithin hivt
  have heip : realModeIvt (copied.store (newContext + tf RD.cs) (realModeIvt copied vector >>> 16))
      vector = realModeIvt m vector :=
    realModeIvt_of_within vector (hwithin.trans (store_tf_within newContext RD.cs _)) hivt
  unfold virtual86IntBegin
  dsimp only
  rw [iaIOPB_Allow_mem, ← hcopied, contextAt_store, contextAt_store, heip, hcs, hcopy]

end Begin

/-! ## ScEnterV86 -/

/-- A V86 machine with the registers of a context. -/
structure Loaded (regs : Context) (c : Machine) : Prop where
  vm : vm c.eflags = true
  cs : c.seg .cs = (regs RD.cs).setWidth 16
  eip : c.eip = regs RD.eip
  eax : c.gpr .eax = regs RD.eax
  ebx : c.gpr .ebx = regs RD.ebx
  ecx : c.gpr .ecx = regs RD.ecx
  edx : c.gpr .edx = regs RD.edx
  esi : c.gpr .esi = regs RD.esi
  edi : c.gpr .edi = regs RD.edi
  ebp : c.gpr .ebp = regs RD.ebp
  ss : c.seg .ss = (regs RD.ss).setWidth 16
  esp : c.gpr .esp = regs RD.esp
  es : c.seg .es = (regs RD.es).setWidth 16
  ds : c.seg .ds = (regs RD.ds).setWidth 16
  fs : c.seg .fs = (regs RD.fs).setWidth 16
  gs : c.seg .gs = (regs RD.gs).setWidth 16

section Enter

variable (layout : Layout) {m : Machine} {a : PTR}

/-- EBX points to the context from here on, as the argument of the routine says. -/
theorem enterSave_ebx (harg : m.stack 1 = a) : (enterSave layout m).gpr .ebx = a := by
  let p := pushSaved m
  have hload : (enterSave layout m).gpr .ebx = p.stack 6 := rfl
  rw [hload, ← harg]
  show (pushSaved m).stack (5 + 1) = m.stack 1
  unfold pushSaved pushReg pushf
  rw [stack_push_succ _ _ (i := 5) (by decide), stack_push_succ _ _ (i := 4) (by decide),
    stack_push_succ _ _ (i := 3) (by decide), stack_push_succ _ _ (i := 2) (by decide),
    stack_push_succ _ _ (i := 1) (by decide)]

/-- The registers are loaded from the context, EBX last and ESP not at all. -/
theorem enterLoad_gpr (r : Reg) : (enterLoad m).gpr r = match r with
    | .eax => contextAt m.mem (m.gpr .ebx) RD.eax
    | .ecx => contextAt m.mem (m.gpr .ebx) RD.ecx
    | .edx => contextAt m.mem (m.gpr .ebx) RD.edx
    | .esi => contextAt m.mem (m.gpr .ebx) RD.esi
    | .edi => contextAt m.mem (m.gpr .ebx) RD.edi
    | .ebp => contextAt m.mem (m.gpr .ebx) RD.ebp
    | .ebx => m.gpr .ebx
    | .esp => m.gpr .esp := by
  unfold enterLoad
  cases r <;> simp only [load_gpr, load_mem, reduceCtorEq, if_true, if_false] <;> rfl

/-- The context is above what is pushed, and is read as before while the frame is built. -/
theorem contextAt_of_pushed {regs : Context} {l d : Machine} {n : Nat} (hpushed : Pushed n l d)
    (hesp : l.gpr .esp = m.gpr .esp - 20#32) (hregs : contextAt l.mem a = regs) (hn : n ≤ 9)
    (hapart : Mem.Apart a 68 (m.gpr .esp - 56#32) 56) : contextAt d.mem a = regs := by
  have hplace : d.gpr .esp = m.gpr .esp - BitVec.ofNat 32 (20 + 4 * n) := by
    rw [hpushed.esp, hesp, Mem.sub_sub_ofNat]
  have hwithin : Mem.Within (m.gpr .esp - 56#32) 56 l.mem d.mem :=
    hpushed.mem.below hplace (by omega) (by omega)
  exact (contextAt_of_within hwithin hapart).trans hregs

/-- The frame for `iret` out of a context. -/
def frameOf (regs : Context) (l : Machine) : Machine :=
  let d := l.push (regs RD.gs) |>.push (regs RD.fs) |>.push (regs RD.ds) |>.push (regs RD.es)
    |>.push (regs RD.ss) |>.push (regs RD.esp) |>.pushf
  d.store (d.gpr .esp) (d.stack 0 ||| 1#32 <<< 17) |>.push (regs RD.cs) |>.push (regs RD.eip)

/-- The frame for the `iret` is built from the context alone, as long as that is apart from the part
of the stack the pushes go to. -/
theorem enterFrame_eq {regs : Context} {l : Machine} (hebx : l.gpr .ebx = a)
    (hesp : l.gpr .esp = m.gpr .esp - 20#32) (hregs : contextAt l.mem a = regs)
    (hapart : Mem.Apart a 68 (m.gpr .esp - 56#32) 56) : enterFrame l = frameOf regs l := by
  have hpush : ∀ {d : Machine} {n : Nat}, Pushed n l d → n ≤ 9 → ∀ i,
      pushMem (a + tf i) d = d.push (regs i) := by
    intro d n hd hn i
    rw [← contextAt_of_pushed hd hesp hregs hn hapart]
    rfl
  have h₁ := (Pushed.refl l).push (regs RD.gs)
  have h₂ := h₁.push (regs RD.fs)
  have h₃ := h₂.push (regs RD.ds)
  have h₄ := h₃.push (regs RD.es)
  have h₅ := h₄.push (regs RD.ss)
  have h₆ := (h₅.push (regs RD.esp)).push l.eflags
  unfold enterFrame frameOf
  dsimp only
  rw [hebx, hpush (Pushed.refl l) (by decide), hpush h₁ (by decide), hpush h₂ (by decide),
    hpush h₃ (by decide), hpush h₄ (by decide), hpush h₅ (by decide)]
  obtain ⟨d, hd⟩ : ∃ d, d = ((((((l.push (regs RD.gs)).push (regs RD.fs)).push
    (regs RD.ds)).push (regs RD.es)).push (regs RD.ss)).push (regs RD.esp)).pushf := ⟨_, rfl⟩
  have h₇ : Pushed 7 l d := by
    rw [hd]
    exact h₆
  rw [← hd, hpush (h₇.store_top _) (by decide), hpush ((h₇.store_top _).push _) (by decide)]

/-- The nine words of the frame in the order in which `iret` pops them. -/
theorem frameOf_stack (regs : Context) (l : Machine) (n : Nat) (hn : n < 9) :
    (frameOf regs l).stack n = match n with
      | 0 => regs RD.eip
      | 1 => regs RD.cs
      | 2 => l.eflags ||| 1#32 <<< 17
      | 3 => regs RD.esp
      | 4 => regs RD.ss
      | 5 => regs RD.es
      | 6 => regs RD.ds
      | 7 => regs RD.fs
      | _ => regs RD.gs := by
  have houter : ∀ k < 6, ((((((l.push (regs RD.gs)).push (regs RD.fs)).push (regs RD.ds)).push
      (regs RD.es)).push (regs RD.ss)).push (regs RD.esp)).stack k = match k with
        | 0 => regs RD.esp
        | 1 => regs RD.ss
        | 2 => regs RD.es
        | 3 => regs RD.ds
        | 4 => regs RD.fs
        | _ => regs RD.gs := by
    intro k hk
    rcases k with _ | _ | _ | _ | _ | _ | k
    · exact stack_push_zero _ _
    all_goals
      first
        | omega
        | simp (disch := decide) only [stack_push_succ, stack_push_zero]
  unfold frameOf pushf
  dsimp only
  rcases n with _ | _ | _ | n
  · exact stack_push_zero _ _
  · rw [stack_push_succ _ _ (i := 0) (by decide), stack_push_zero]
    rfl
  · rw [stack_push_succ _ _ (i := 1) (by decide), stack_push_succ _ _ (i := 0) (by decide),
      stack_store_top, stack_push_zero]
    rfl
  · rw [stack_push_succ _ _ (i := n + 2) (by omega), stack_push_succ _ _ (i := n + 1) (by omega),
      stack_store_top_succ _ _ (by omega), stack_push_succ _ _ (i := n) (by omega),
      houter n (by omega)]
    rcases n with _ | _ | _ | _ | _ | n <;> rfl

/-- To push the frame changes ESP only. -/
theorem frameOf_gpr (regs : Context) (l : Machine) {r : Reg} (hr : r ≠ .esp) :
    (frameOf regs l).gpr r = l.gpr r := by
  unfold frameOf pushf
  simp only [push_gpr, store_gpr, if_neg hr]

/-- A general register's entry of a context. -/
def gprEntry (regs : Context) : Reg → DWORD
  | .eax => regs RD.eax
  | .ebx => regs RD.ebx
  | .ecx => regs RD.ecx
  | .edx => regs RD.edx
  | .esi => regs RD.esi
  | .edi => regs RD.edi
  | .ebp => regs RD.ebp
  | .esp => regs RD.esp

/-- Up to its `iret` the routine has loaded the general registers and pushed the frame. EBX is
loaded last, and its value found through itself. -/
theorem scEnterV86_eq_iret (harg : m.stack 1 = a)
    (hapart : Mem.Apart a 68 (m.gpr .esp - 56#32) 56) :
    ∃ c l, scEnterV86 layout m = iret c ∧
      (∀ n < 9, c.stack n = (frameOf (contextAt m.mem a) l).stack n) ∧
        ∀ r, r ≠ .esp → c.gpr r = gprEntry (contextAt m.mem a) r := by
  obtain ⟨regs, hregs⟩ : ∃ regs, regs = contextAt m.mem a := ⟨_, rfl⟩
  obtain ⟨s, hs⟩ : ∃ s, s = enterSave layout m := ⟨_, rfl⟩
  have hsaved : contextAt s.mem a = regs := by
    rw [hregs, hs]
    refine contextAt_of_within ((enterSave_within layout m).below (c := 24) rfl ?_ ?_) hapart
    · decide
    · decide
  have hebx : s.gpr .ebx = a := by
    rw [hs]
    exact enterSave_ebx layout harg
  have hesp : s.gpr .esp = m.gpr .esp - 20#32 := by
    rw [hs]
    exact enterSave_esp layout m
  obtain ⟨l, hl⟩ : ∃ l, l = enterLoad s := ⟨_, rfl⟩
  have hload := fun r => (congrFun (congrArg Cpu.gpr hl) r).trans (enterLoad_gpr (m := s) r)
  rw [hebx, hsaved] at hload
  have hcontext : contextAt l.mem a = regs := by
    rw [hl]
    exact hsaved
  have hframe : enterFrame l = frameOf regs l :=
    enterFrame_eq (hload .ebx) ((hload .esp).trans hesp) hcontext hapart
  have hlast : contextAt (frameOf regs l).mem a = regs := by
    rw [← hframe]
    exact contextAt_of_pushed (enterFrame_pushed l) ((hload .esp).trans hesp) hcontext
      (by decide) hapart
  rw [← hregs]
  refine ⟨(frameOf regs l).load .ebx ((frameOf regs l).gpr .ebx + tf RD.ebx), l, ?_, ?_, ?_⟩
  · rw [← hframe, hl, hs]
    rfl
  · intro n _
    exact stack_load_of_ne _ (by decide) _ n
  · intro r hr
    rw [load_gpr]
    by_cases hbx : r = .ebx
    · rw [if_pos hbx, hbx, frameOf_gpr regs l (by decide), hload .ebx]
      exact congrFun hlast RD.ebx
    · rw [if_neg hbx, frameOf_gpr regs l hr, hload r]
      cases r with
      | ebx => exact absurd rfl hbx
      | esp => exact absurd rfl hr
      | _ => rfl

/-- The routine loads every register with the entry of the context that is its own. -/
theorem scEnterV86_loads (harg : m.stack 1 = a)
    (hapart : Mem.Apart a 68 (m.gpr .esp - 56#32) 56) :
    Loaded (contextAt m.mem a) (scEnterV86 layout m) := by
  obtain ⟨c, l, henter, hframe, hgpr⟩ := scEnterV86_eq_iret layout harg hapart
  obtain ⟨regs, hregs⟩ : ∃ regs, regs = contextAt m.mem a := ⟨_, rfl⟩
  rw [← hregs] at hframe hgpr
  have hvm : vm (c.stack 2) = true := by
    have hflags := scEnterV86_vm layout m
    rw [henter, iret_eflags] at hflags
    exact hflags
  obtain ⟨hback, hseg⟩ := iret_vm hvm
  have hstack := fun n hn => (hframe n hn).trans (frameOf_stack regs l n hn)
  have hloaded : ∀ r, r ≠ .esp → (iret c).gpr r = gprEntry regs r :=
    fun r hr => (iret_gpr c hr).trans (hgpr r hr)
  rw [← hregs, henter]
  exact
    { vm := (congrArg vm (iret_eflags c)).trans hvm
      cs := (hseg .cs).trans (congrArg (BitVec.setWidth 16) (hstack 1 (by decide)))
      eip := (iret_eip c).trans (hstack 0 (by decide))
      eax := hloaded .eax (by decide)
      ebx := hloaded .ebx (by decide)
      ecx := hloaded .ecx (by decide)
      edx := hloaded .edx (by decide)
      esi := hloaded .esi (by decide)
      edi := hloaded .edi (by decide)
      ebp := hloaded .ebp (by decide)
      ss := (hseg .ss).trans (congrArg (BitVec.setWidth 16) (hstack 4 (by decide)))
      esp := hback.trans (hstack 3 (by decide))
      es := (hseg .es).trans (congrArg (BitVec.setWidth 16) (hstack 5 (by decide)))
      ds := (hseg .ds).trans (congrArg (BitVec.setWidth 16) (hstack 6 (by decide)))
      fs := (hseg .fs).trans (congrArg (BitVec.setWidth 16) (hstack 7 (by decide)))
      gs := (hseg .gs).trans (congrArg (BitVec.setWidth 16) (hstack 8 (by decide))) }

end Enter

/-- A call of `ScVirtual86_Int` enters V86 mode with the registers of its local array. -/
theorem virtual86Entered_loads (layout : Layout) (f : Frame) (context : PTR) (vector : BYTE)
    (m : Machine) :
    Loaded (contextAt (virtual86IntBegin f.newContext context vector m).mem f.newContext)
      (virtual86Entered layout f context vector m) := by
  obtain ⟨begun, hbegun⟩ : ∃ begun, begun = virtual86IntBegin f.newContext context vector m :=
    ⟨_, rfl⟩
  have hesp := f.enter_esp layout begun
  have harg : (f.enter layout begun).stack 1 = f.newContext := by
    unfold Frame.enter
    rw [stack_push_succ _ _ (i := 0) (by decide), stack_push_zero]
  have hcall : contextAt (f.enter layout begun).mem f.newContext =
      contextAt begun.mem f.newContext := by
    have hmem := (f.enter_pushed layout begun).mem
    rw [hesp] at hmem
    exact contextAt_of_within hmem (f.newContext_apart (Nat.le_refl 8) (by decide))
  have hapart : Mem.Apart f.newContext 68 ((f.enter layout begun).gpr .esp - 56#32) 56 := by
    rw [hesp, Mem.sub_sub_ofNat]
    exact f.newContext_apart (by decide) (by decide)
  have hloads := scEnterV86_loads layout harg hapart
  rw [hcall, hbegun] at hloads
  exact hloads

/-- A context with the entry point of a vector, as `ScVirtual86_Int` makes it. -/
def vectorContext (regs : Context) (entry : DWORD) : Context := fun i =>
  if i = RD.eip then entry &&& 0xFFFF#32 else if i = RD.cs then entry >>> 16 else regs i

/-- And so with the caller's context and the entry point of the vector. -/
theorem CallSite.entered_loads (layout : Layout) (site : CallSite)
    (hivt : Mem.Apart 0#32 1024 site.frame.newContext 68) (vector : BYTE) (m : Machine) :
    Loaded (vectorContext (contextAt m.mem site.context) (realModeIvt m vector))
      (virtual86Entered layout site.frame site.context vector m) := by
  have hloads := virtual86Entered_loads layout site.frame site.context vector m
  have hcontext : contextAt (virtual86IntBegin site.frame.newContext site.context vector m).mem
      site.frame.newContext =
      vectorContext (contextAt m.mem site.context) (realModeIvt m vector) :=
    funext fun i => virtual86IntBegin_context m vector site.context_apart hivt i
  rw [hcontext] at hloads
  exact hloads

/-! ## Contexts the kernel makes -/

/-- `DWORD regparm[RD_NUM_DWORDS] = { [RD_EAX] = eax }`: the entries not named are zero. -/
def initRegparm (regparm : PTR) (eax : DWORD) (m : Machine) : Machine :=
  (List.finRange 17).foldl
    (fun m i => m.store (regparm + tf i) (if i = RD.eax then eax else 0)) m

/-- A context with one register. -/
def eaxContext (eax : DWORD) : Context := fun i => if i = RD.eax then eax else 0

/-- The structure that is made for the call holds EAX, and zeros for the rest. -/
theorem contextAt_initRegparm (regparm : PTR) (eax : DWORD) (m : Machine) :
    contextAt (initRegparm regparm eax m).mem regparm = eaxContext eax := by
  have hfold : ∀ (l : List (Fin 17)) (m : Machine) (i : Fin 17),
      contextAt (l.foldl (fun m i => m.store (regparm + tf i) (if i = RD.eax then eax else 0))
        m).mem regparm i = if i ∈ l then eaxContext eax i else contextAt m.mem regparm i := by
    intro l
    induction l with
    | nil => exact fun m i => (if_neg List.not_mem_nil).symm
    | cons j l ih =>
      intro m i
      rw [List.foldl_cons, ih, contextAt_store]
      by_cases hl : i ∈ l
      · rw [if_pos hl, if_pos (List.mem_cons_of_mem j hl)]
      · by_cases hij : i = j
        · have hmem : i ∈ j :: l := hij ▸ List.mem_cons_self
          rw [if_neg hl, if_pos hij, if_pos hmem, hij]
          rfl
        · rw [if_neg hl, if_neg hij, if_neg fun h => (List.mem_cons.mp h).elim hij hl]
  funext i
  exact (hfold _ m i).trans (if_pos (List.mem_finRange i))

/-- It is 68 bytes. -/
theorem initRegparm_within (regparm : PTR) (eax : DWORD) (m : Machine) :
    Mem.Within regparm 68 m.mem (initRegparm regparm eax m).mem := by
  unfold initRegparm
  induction List.finRange 17 generalizing m with
  | nil => exact Mem.Within.refl _ _ _
  | cons i l ih => exact (store_tf_within regparm i _).trans (ih _)

end OS90.Kernel
