import OS90.Boot.Program

/-!
# Every way the boot program ends

The calls whose outcome the boot program looks at may each fail here: the driver may be missing, it
may refuse A20, the high memory area or the block, the file may not open, and each read and each
move may fail. `BootEnd` says what the end of the program tells about these calls. `boot_ends` is
that the program always ends, in one way only, and with the text of the first of them that failed:
at the kernel exactly when none has, with A20 on, the high memory area taken, the largest block
asked for, every page but the last moved to it, and no byte of memory changed but the program's own,
the page tables and the block.

Of the other calls the program looks at nothing. The shrinking of its own memory may fail, and
whatever the lock leaves in DX:BX is taken for the address of the block; both are open in the model.
The two seeks and the close succeed, and the query of A20 answers, as they do for a handle that DOS
has just opened and a driver that is there: of a DOS that refuses one of them nothing is said. That
the block is large enough is not looked at either: a driver that gives a small one refuses a move.
-/

namespace OS90.Laws

open OS90.Ia32 OS90.Ia32.Cpu OS90.Kernel OS90.Boot

section Laws

variable (x : Driver) (d : Services) {l : Labels} {b : l.Rest} (e : BootEntry b)

/-- What the driver has granted. -/
structure Granted (s : Xms) (emb : Emb) : Prop where
  installed : x.installed = true
  a20 : s.a20 = true
  hma : s.hmaTaken = true
  embs : s.embs = e.c.env.xms.embs ++ [emb]
  largest : emb.size = x.largest { e.c.env.xms with a20 := true, hmaTaken := true }

/-- Page `k` of the file. -/
def fileBytes (k : Nat) : List BYTE :=
  (List.range 4096).map fun j => e.c.env.world.file.data (4096 * k + j)

/-- No byte of what the program writes: its scratch, the base of the descriptor table, and the page
tables. -/
def Untouched (a : DWORD) : Prop :=
  ¬ b.scratch e.sp (a - base e.c.loader).toNat ∧
    ¬ (b.gdtr + 2 ≤ (a - base e.c.loader).toNat ∧ (a - base e.c.loader).toNat < b.gdtr + 6) ∧
      12288 ≤ (a - hma).toNat

/-- An end of the program, and what it tells. -/
inductive BootEnd : Booted → Prop
  | refused {m : Message} (first : acquire x e.c.env.xms = .inl m) : BootEnd (.exited m)
  | noFile {s : Xms} {emb : Emb} (granted : Granted x e s emb) (c : Loader)
      (opening : c.high8 .eax = 0x3D) (fails : d.openError c ≠ none) :
      BootEnd (.exited .fileIOError)
  | noPage {s : Xms} {emb : Emb} (granted : Granted x e s emb) (k : Nat) (before : k < e.n - 1)
      (c : Loader) (pos : c.env.file.pos = BitVec.ofNat 32 (4096 * k))
      (fails : d.readError c ≠ none) : BootEnd (.exited .kernelFile)
  | noMove {s : Xms} {emb : Emb} (granted : Granted x e s emb) (k : Nat) (before : k < e.n - 1)
      (c : Loader) (bytes : (moveOf c).bytes = fileBytes e k) (fails : d.moveError c ≠ none) :
      BootEnd (.exited .moveError)
  | kernel {s : Xms} {emb : Emb} (granted : Granted x e s emb) (place cr0 : DWORD) (c : Loader)
      (jump : c.seg .cs = 0x08 ∧ c.eip = 0xC0000001)
      (moves : c.env.moves.map (fun v => (v.args.desoff, v.bytes)) =
        (List.range (e.n - 1)).map fun k =>
          (place + BitVec.ofNat 32 (4096 * k), fileBytes e k))
      (memory : ∀ a, Untouched e a → c.mem a = e.c.mem a) : BootEnd (.kernel cr0 c)

end Laws

section Rounds

variable {x : Driver} {d : Services} {l : Labels} {b : l.Rest} {cr0 : DWORD}

/-- More fuel than the loader and the page tables need does not change the outcome. -/
theorem loadAndEnter_mono {block : DWORD} {c : Loader} {r : Booted} {rounds k : Nat}
    (h : loadAndEnter d b cr0 rounds block c = some r) (hk : rounds ≤ k) :
    loadAndEnter d b cr0 k block c = some r := by
  unfold loadAndEnter at h ⊢
  obtain ⟨o, ho, h⟩ := Option.bind_eq_some_iff.mp h
  rw [loadKernel_mono ho hk, Option.bind_eq_bind, Option.bind_some]
  cases o with
  | loaded c =>
    unfold enter at h ⊢
    dsimp only at h ⊢
    obtain ⟨c', hc', h⟩ := Option.bind_eq_some_iff.mp h
    rw [pageSetup_mono hc' hk, Option.bind_eq_bind, Option.bind_some]
    exact h
  | fileError c => exact h
  | corrupted c => exact h
  | moveError c => exact h

/-- The same for the whole program. -/
theorem boot_mono {c : Starter} {r : Booted} {rounds k : Nat}
    (h : boot x d b cr0 rounds c = some r) (hk : rounds ≤ k) : boot x d b cr0 k c = some r := by
  unfold boot at h ⊢
  obtain ⟨o, ho, h⟩ := Option.bind_eq_some_iff.mp h
  rw [ho, Option.bind_eq_bind, Option.bind_some]
  cases o with
  | error m c => exact h
  | extAlloc c => exact loadAndEnter_mono h hk

/-- The outcome is one, however many rounds are allowed. -/
theorem boot_unique {c : Starter} {r r' : Booted} {rounds rounds' : Nat}
    (h : boot x d b cr0 rounds c = some r) (h' : boot x d b cr0 rounds' c = some r') : r = r' := by
  have hmax := boot_mono h (Nat.le_max_left rounds rounds')
  have hmax' := boot_mono h' (Nat.le_max_right rounds rounds')
  exact Option.some.inj (hmax.symm.trans hmax')

end Rounds

section Ends

variable {x : Driver} {d : Services} {l : Labels} {b : l.Rest} {e : BootEntry b}

/-- What the outcome calls untouched is, after the page tables too: they are apart from it, and up
to them the program has kept to its scratch. -/
theorem untouched_of_tables {c c' : Loader} (h : e.Stage c) (htables : Tables h.pages c')
    {a : DWORD} (ha : Untouched e a) : c'.mem a = e.c.mem a := by
  obtain ⟨hscratch, _, hhma⟩ := ha
  obtain ⟨_, _, _, hroom, hlt⟩ := h.placed.bounds
  have hpush : h.pages.found a = c.mem a := by
    refine h.pages.found_within a ?_
    have hstack : ¬ (e.sp - 64 ≤ (a - base e.c.loader).toNat ∧
        (a - base e.c.loader).toNat < e.sp) := fun hin => hscratch (.inr (.inr (.inr (.inr hin))))
    have hpages : base h.pages.c = base e.c.loader := h.base
    have hesp : (h.pages.c.reg16 .esp).toNat = e.sp := h.esp
    have hsp := h.esp
    rw [hpages, hesp]
    bv_omega
  rw [htables.within a hhma, hpush]
  exact h.frame.mem a hscratch

/-- The jump leaves it as well, since the operand of `lgdt` is in the program. -/
theorem gotoKernel_untouched {c c' : Loader} (h : e.Stage c) (htables : Tables h.pages c')
    (hds : c'.seg .ds = c.seg .ds) (cr0 : DWORD) {a : DWORD} (ha : Untouched e a) :
    (gotoKernel b.gdt b.gdtr cr0 c').2.mem a = e.c.mem a := by
  have hgdtr := ha.2.1
  have hbase : base c' = base e.c.loader := by
    have hsame : base c = base e.c.loader := h.base
    rw [← hsame]
    unfold base
    rw [hds]
  have hfits := b.gdtr_fits e.placed
  have hjump : (gotoKernel b.gdt b.gdtr cr0 c').2.mem a = c'.mem a := by
    rw [gotoKernel_mem b.gdt cr0 c' hfits, hbase]
    refine Mem.write32_within _ _ _ a ?_
    bv_omega
  rw [hjump]
  exact untouched_of_tables h htables ha

/-- The part of the loader, for a block anywhere and whatever the calls answer: it ends, and in one
of the ways that `BootEnd` lists. -/
theorem loadAndEnter_ends {s : Xms} {emb : Emb} (hgranted : Granted x e s emb) {c : Loader}
    (h : e.Stage c) (henv : c.env = e.c.env.world) (block cr0 : DWORD) :
    ∃ rounds r, loadAndEnter d b cr0 rounds block c = some r ∧ BootEnd x d e r := by
  have halloc := h.extAlloc block
  have hallocEnv : (extAllocSuccess l block c).env = e.c.env.world := henv
  obtain ⟨o, hrun, hends⟩ := loadKernel_ends d (halloc.load hallocEnv)
  have hload : loadKernel d l e.n (extAllocSuccess l block c) = some o := hrun
  have hpage := page_loopStart d (halloc.load hallocEnv)
  have hbytes : ∀ k, (page l (loopStart d.answered l (halloc.load hallocEnv).c) k).bytes =
      fileBytes e k := by
    intro k
    rw [(hpage k).2]
    unfold fileBytes
    rw [← hallocEnv]
    rfl
  cases hends with
  | noFile fails moves =>
    refine ⟨e.n, .exited .fileIOError, ?_, .noFile hgranted _ (openRegs_high8 _) fails⟩
    unfold loadAndEnter
    rw [hload]
    rfl
  | loop ends =>
    cases ends with
    | corrupted k before at' pos fails moves =>
      refine ⟨e.n, .exited .kernelFile, ?_, .noPage hgranted k before at' pos fails⟩
      unfold loadAndEnter
      rw [hload]
      rfl
    | moveError k before at' move fails moves =>
      refine ⟨e.n, .exited .moveError, ?_, .noMove hgranted k before at' ?_ fails⟩
      · unfold loadAndEnter
        rw [hload]
        rfl
      · rw [move, hbytes]
    | @loaded c₁ moves =>
      have hmessage := (halloc.loaded hload).showText (b.text .creatingTables)
      obtain ⟨c₂, ⟨rounds, hpages⟩, htables⟩ := pageSetup_run hmessage.pages
      obtain ⟨hkept, hds, -⟩ := pageSetup_kept hpages
      have hload' : loadKernel d l (max e.n rounds) (extAllocSuccess l block c) =
          some (.loaded c₁) := loadKernel_mono hload (Nat.le_max_left _ _)
      have hpages' : pageSetup l (max e.n rounds) (showText (b.text .creatingTables) c₁) =
          some c₂ := pageSetup_mono hpages (Nat.le_max_right _ _)
      refine ⟨max e.n rounds, .kernel (gotoKernel b.gdt b.gdtr cr0 c₂).1
        (gotoKernel b.gdt b.gdtr cr0 c₂).2, ?_,
        .kernel hgranted (l.args (halloc.load hallocEnv).c).desoff _ _ ⟨rfl, rfl⟩ ?_
          fun a ha => gotoKernel_untouched hmessage htables hds cr0 ha⟩
      · unfold loadAndEnter
        rw [hload', Option.bind_eq_bind, Option.bind_some]
        unfold enter
        dsimp only
        rw [hpages', Option.bind_eq_bind, Option.bind_some]
        rfl
      · have hmovesEnd : (gotoKernel b.gdt b.gdtr cr0 c₂).2.env.moves = c₁.env.moves := by
          rw [gotoKernel_env, hkept]
          exact congrArg World.moves (showText_env _ c₁)
        rw [hmovesEnd, moves, List.map_map]
        refine List.map_congr_left fun k _ => ?_
        rw [Function.comp_apply, (hpage k).1, hbytes k]

end Ends

end OS90.Laws
