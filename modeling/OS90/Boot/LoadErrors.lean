import OS90.Boot.LoadKernel

/-!
# Loading with failing calls

Every call of `LoadKernel` may fail. Up to the first failure the loader does what it does with a DOS
and a driver that answer (`Services.answered`), so that the invariant of the loop is the same one,
and a round has two more ways out.

What a run with a failing call has in common with one without is therefore proved by comparison, and
not a second time: a call that is granted is the same call, and the first that is refused ends the
program. `LoopEnd` lists the ends of the loop and `LoadEnd` those of the loader, each with the moves
that were made before it.

The calls that fail are the open, the reads and the moves. DOS does not refuse a seek or a close of
the file that is open, and the code looks at no error of these. What is proved is that the loader
ends and how; that a call fails with one code or another makes no difference to it.
-/

namespace OS90.Boot

open OS90.Ia32 OS90.Ia32.Cpu OS90.Kernel

/-- The same services, with every call answered. -/
def Services.answered (d : Services) : Services where
  openError _ := none
  readError _ := none
  moveError _ := none
  bx := d.bx

/-- The services with every refusal taken out of them answer every call, so that the theorems about
the loader without errors speak of them. -/
theorem Services.answered_succeed (d : Services) : d.answered.Succeed :=
  ⟨fun _ => rfl, fun _ => rfl, fun _ => rfl⟩

/-- The machine of an outcome. -/
def Outcome.machine : Outcome → Loader
  | .loaded c => c
  | .fileError c => c
  | .corrupted c => c
  | .moveError c => c

section Calls

variable {d : Services} {l : Labels} {c : Loader}

/-- Where neither an open nor a read is refused, DOS answers as the services that refuse nothing
do. -/
theorem int21_answered (hopen : c.high8 .eax = 0x3D → d.openError c = none)
    (hread : c.high8 .eax = 0x3F → d.readError c = none) : int21 d c = int21 d.answered c := by
  unfold int21 dosOpen dosRead
  by_cases hah : c.high8 .eax = 0x3D
  · rw [if_pos hah, if_pos hah, hopen hah]
    rfl
  rw [if_neg hah, if_neg hah]
  by_cases hah : c.high8 .eax = 0x3F
  · rw [hread hah]
    rfl
  · rw [if_neg hah, if_neg hah]

/-- A move that is granted is the move of the services that grant every move. This is where a run
with errors is compared with the run without. -/
theorem xmsMove_answered (h : d.moveError c = none) : xmsMove d c = xmsMove d.answered c := by
  unfold xmsMove
  rw [h]
  rfl

/-- A seek is answered alike by both, since DOS does not refuse one for a file that is open. -/
theorem int21_seek_answered {method : WORD} (hmethod : method.extractLsb' 8 8 = 0x42#8) :
    int21 d (seekRegs method c) = int21 d.answered (seekRegs method c) := by
  have hah : (seekRegs method c).high8 .eax = 0x42#8 := by
    rw [high8_eq_reg16, seekRegs_reg16]
    exact hmethod
  refine int21_answered (fun h => ?_) fun h => ?_
  · rw [hah] at h
    exact absurd h (by decide)
  · rw [hah] at h
    exact absurd h (by decide)

end Calls

/-! ## A round -/

section Round

variable {d : Services} {l : Labels} {c : Loader}

/-- AH is the number of the read when DOS is called for it, and this decides which of the answers of
DOS is taken. -/
theorem readRegs_high8 : (readRegs l c).high8 .eax = 0x3F := by
  unfold readRegs
  rw [high8_eq_reg16, set16_reg16, if_neg (by decide), set16_reg16, if_neg (by decide),
    ← high8_eq_reg16, setHigh8_high8]
  rfl

/-- The count is not zero after it was decremented, unless it was one before: what the test at the
head of the loop sees. -/
theorem set16_edi_ne_zero (hdi : c.reg16 .edi ≠ 1#16) :
    (c.set16 .edi (c.reg16 .edi - 1#16)).reg16 .edi ≠ 0#16 := by
  rw [set16_reg16, if_pos rfl]
  intro hzero
  exact hdi (BitVec.sub_eq_iff_eq_add.mp hzero)

/-- A read that fails ends the loop by its error exit, and nothing has been moved in that round. -/
theorem loadLoop_readError (h : Ready l c) (hdi : c.reg16 .edi ≠ 1#16) {code : WORD}
    (hread : d.readError (readRegs l c) = some code) :
    ∃ c', loadLoop d l c = .inr (.corrupted c') ∧ c'.env.moves = c.env.moves := by
  have hbx : (readRegs l c).reg16 .ebx = (readRegs l c).env.file.handle := by
    rw [readRegs_reg16 .ebx (by decide)]
    exact h.ebx
  have hfail : int21 d (readRegs l c) = dosFail code (readRegs l c) := by
    unfold int21 dosRead
    rw [if_neg (by rw [readRegs_high8]; decide), if_neg (by rw [readRegs_high8]; decide),
      if_pos readRegs_high8, if_pos hbx, hread]
  refine ⟨dosFail code (readRegs l c), ?_, rfl⟩
  have hregs : ((((c.set16 .edi (c.reg16 .edi - 1#16)).setHigh8 .eax 0x3F#8).set16 .ecx
      4096#16).set16 .edx (BitVec.ofNat 16 l.buffer)) = readRegs l c := rfl
  have hcarry : (dosFail code (readRegs l c)).carry = true := carry_setCarry _ _
  unfold loadLoop
  dsimp only
  rw [if_neg (set16_edi_ne_zero hdi), hregs, hfail, if_pos hcarry]

/-- A move that fails ends it by the other one, and nothing has been moved in that round either. The
page was read, which is what the premises but the last say. -/
theorem loadLoop_moveError (h : Ready l c) (hdi : c.reg16 .edi ≠ 1#16)
    (hfile : c.env.file.pos.toNat + 4096 ≤ c.env.file.size.toNat) {code : BYTE}
    (hread : d.readError (readRegs l c) = none)
    (hmove : d.moveError (readDone l c) = some code) :
    ∃ c', loadLoop d l c = .inr (.moveError c') ∧ c'.env.moves = c.env.moves := by
  have hcall : int21 d (readRegs l c) = dosReadBytes 4096 (readRegs l c) := by
    rw [int21_answered (fun hah => absurd (readRegs_high8.symm.trans hah) (by decide))
      fun _ => hread]
    exact int21_readRegs d.answered_succeed h.ebx hfile
  have hbx : (dosReadBytes 4096 (readRegs l c)).reg16 .ebx = c.reg16 .ebx := by
    rw [dosReadBytes_reg16, if_neg (by decide), readRegs_reg16 .ebx (by decide)]
    rfl
  obtain ⟨b, hb⟩ : ∃ b, b = readDone l c := ⟨_, rfl⟩
  have hdone : ((dosReadBytes 4096 (readRegs l c)).push16 (c.reg16 .ebx)).setHigh8 .eax 0x0B#8 =
      b := hb.symm
  have hfail : xmsMove d b = (b.set16 .eax 0).setLow8 .ebx code := by
    unfold xmsMove
    rw [hb, hmove]
  have hal : ((b.set16 .eax 0).setLow8 .ebx code).low8 .eax ≠ 1#8 := by
    unfold setLow8
    rw [low8_eq_reg16, set16_reg16, if_neg (by decide), set16_reg16, if_pos rfl]
    decide
  have hregs : ((((c.set16 .edi (c.reg16 .edi - 1#16)).setHigh8 .eax 0x3F#8).set16 .ecx
      4096#16).set16 .edx (BitVec.ofNat 16 l.buffer)) = readRegs l c := rfl
  refine ⟨(b.set16 .eax 0).setLow8 .ebx code, ?_, ?_⟩
  · unfold loadLoop
    dsimp only
    rw [if_neg (set16_edi_ne_zero hdi), hregs, hcall, dosReadBytes_carry,
      if_neg Bool.false_ne_true, hbx, hdone, hfail, if_neg hal]
  · have henv : b.env.moves = c.env.moves := by
      rw [hb, readDone_env]
    exact henv

/-- With both calls answered a round is the one it is with all of them answered. -/
theorem loadLoop_answered (h : Ready l c) (hdi : c.reg16 .edi ≠ 1#16)
    (hfile : c.env.file.pos.toNat + 4096 ≤ c.env.file.size.toNat)
    (hread : d.readError (readRegs l c) = none) (hmove : d.moveError (readDone l c) = none) :
    loadLoop d l c = loadLoop d.answered l c := by
  have hcall : int21 d (readRegs l c) = int21 d.answered (readRegs l c) :=
    int21_answered (fun hah => absurd (readRegs_high8.symm.trans hah) (by decide)) fun _ => hread
  have hbx : (dosReadBytes 4096 (readRegs l c)).reg16 .ebx = c.reg16 .ebx := by
    rw [dosReadBytes_reg16, if_neg (by decide), readRegs_reg16 .ebx (by decide)]
    rfl
  have hdone : ((dosReadBytes 4096 (readRegs l c)).push16 (c.reg16 .ebx)).setHigh8 .eax 0x0B#8 =
      readDone l c := rfl
  have hregs : ((((c.set16 .edi (c.reg16 .edi - 1#16)).setHigh8 .eax 0x3F#8).set16 .ecx
      4096#16).set16 .edx (BitVec.ofNat 16 l.buffer)) = readRegs l c := rfl
  unfold loadLoop
  dsimp only
  rw [if_neg (set16_edi_ne_zero hdi), if_neg (set16_edi_ne_zero hdi), hregs, hcall,
    int21_readRegs d.answered_succeed h.ebx hfile, dosReadBytes_carry, if_neg Bool.false_ne_true,
    if_neg Bool.false_ne_true, hbx, hdone, xmsMove_answered hmove]

end Round

/-! ## The loop -/

/-- How the loop ends: every page but the last copied, or the first `k` when a call for page `k`
failed. -/
inductive LoopEnd (d : Services) (l : Labels) (c₀ : Loader) (n : Nat) : Outcome → Prop
  | loaded {c : Loader} (moves : c.env.moves = (List.range (n - 1)).map (page l c₀)) :
      LoopEnd d l c₀ n (.loaded c)
  | corrupted {c : Loader} (k : Nat) (before : k < n - 1) (at' : Loader)
      (pos : at'.env.file.pos = BitVec.ofNat 32 (4096 * k)) (fails : d.readError at' ≠ none)
      (moves : c.env.moves = (List.range k).map (page l c₀)) : LoopEnd d l c₀ n (.corrupted c)
  | moveError {c : Loader} (k : Nat) (before : k < n - 1) (at' : Loader)
      (move : moveOf at' = page l c₀ k) (fails : d.moveError at' ≠ none)
      (moves : c.env.moves = (List.range k).map (page l c₀)) : LoopEnd d l c₀ n (.moveError c)

section Loop

variable {d : Services} {l : Labels} {c₀ c : Loader} {n k : Nat}

/-- The file pointer and the end of the file, at the head of the loop. -/
theorem Loading.bounds (h : Loading l c₀ n k c) (hk : k + 1 < n) (hn : n < 2 ^ 16)
    (hsize : c₀.env.file.size = BitVec.ofNat 32 (4096 * n)) :
    c.reg16 .edi ≠ 1#16 ∧ c.env.file.pos.toNat + 4096 ≤ c.env.file.size.toNat := by
  refine ⟨?_, ?_⟩
  · rw [h.edi]
    exact ofNat_ne (by omega) (by decide) (by omega)
  · have hend : c.env.file.size = c₀.env.file.size := by rw [h.file]
    rw [hend, hsize, h.file, BitVec.toNat_ofNat, BitVec.toNat_ofNat]
    omega

/-- What a round asks the driver to move is the next page. -/
theorem Loading.moveOf (h : Loading l c₀ n k c) (hk : k + 1 < n) (hn : n < 2 ^ 16) :
    moveOf (readDone l c) = page l c₀ k := by
  have hpos : c.env.file.pos.toNat = 4096 * k := by
    rw [h.file, BitVec.toNat_ofNat]
    omega
  rw [moveOf_readDone h.ready]
  unfold page nextPage
  rw [h.args, hpos, h.file]

/-- A round either comes through, and then the loader is a page further, or it takes an error exit.
No premise says which calls succeed; the premises are that pages are left and that the length of the
file is that of its pages. -/
theorem Loading.round_or_end (h : Loading l c₀ n k c) (hk : k + 1 < n) (hn : n < 2 ^ 16)
    (hsize : c₀.env.file.size = BitVec.ofNat 32 (4096 * n)) :
    (∃ c', loadLoop d l c = .inl c' ∧ Loading l c₀ n (k + 1) c') ∨
      ∃ o, loadLoop d l c = .inr o ∧ LoopEnd d l c₀ n o := by
  obtain ⟨hdi, hfile⟩ := h.bounds hk hn hsize
  have hbefore : k < n - 1 := by omega
  cases hread : d.readError (readRegs l c) with
  | some code =>
    obtain ⟨c', hloop, hmoves⟩ := loadLoop_readError h.ready hdi hread
    have hpos : (readRegs l c).env.file.pos = BitVec.ofNat 32 (4096 * k) := by
      show c.env.file.pos = _
      rw [h.file]
    refine .inr ⟨_, hloop, .corrupted k hbefore (readRegs l c) hpos ?_ (hmoves.trans h.moves)⟩
    rw [hread]
    exact Option.some_ne_none code
  | none =>
    cases hmove : d.moveError (readDone l c) with
    | some code =>
      obtain ⟨c', hloop, hmoves⟩ := loadLoop_moveError h.ready hdi hfile hread hmove
      refine .inr ⟨_, hloop, .moveError k hbefore (readDone l c) (h.moveOf hk hn) ?_
        (hmoves.trans h.moves)⟩
      rw [hmove]
      exact Option.some_ne_none code
    | none =>
      rw [loadLoop_answered h.ready hdi hfile hread hmove]
      exact .inl (h.round d.answered_succeed hk hn hsize)

/-- The loop ends within as many rounds as there are pages, in one of the ways `LoopEnd` lists, by
induction on the pages that are left. -/
theorem loadLoop_ends (h : Loading l c₀ n 0 c₀) (hpos : 0 < n) (hn : n < 2 ^ 16)
    (hsize : c₀.env.file.size = BitVec.ofNat 32 (4096 * n)) :
    ∃ o, Loop.run (loadLoop d l) n c₀ = some o ∧ LoopEnd d l c₀ n o := by
  have hrounds : n - 1 + 1 = n := by omega
  have hround : ∀ k c, k < n - 1 → Loading l c₀ n k c →
      (∃ c', loadLoop d l c = .inl c' ∧ Loading l c₀ n (k + 1) c') ∨
        ∃ o, loadLoop d l c = .inr o ∧ LoopEnd d l c₀ n o :=
    fun k c hk hc => hc.round_or_end (by omega) hn hsize
  have hlast : ∀ c, Loading l c₀ n (n - 1) c →
      ∃ o, loadLoop d l c = .inr o ∧ LoopEnd d l c₀ n o := by
    intro c hc
    obtain ⟨c', hloop, hmoves⟩ := Loading.last (d := d) hc hpos
    exact ⟨_, hloop, .loaded hmoves⟩
  have hrun := Loop.run_of_countup _ _ hround hlast h
  rw [hrounds] at hrun
  exact hrun

end Loop

/-! ## From the open on -/

section Load

variable (d : Services) {l : Labels} (e : LoadEntry l)

/-- The registers for the open. -/
def openRegs (l : Labels) (c : Loader) : Loader :=
  c.set16 .eax 0x3D00#16 |>.set16 .edx (BitVec.ofNat 16 l.path)

/-- AH is the number of the open. -/
theorem openRegs_high8 (c : Loader) : (openRegs l c).high8 .eax = 0x3D := by
  unfold openRegs
  rw [high8_eq_reg16, set16_reg16, if_neg (by decide), set16_reg16, if_pos rfl]
  decide

/-- How `LoadKernel` ends: without a file, or with its loop. -/
inductive LoadEnd : Outcome → Prop
  | noFile {c : Loader} (fails : d.openError (openRegs l e.c) ≠ none)
      (moves : c.env.moves = []) : LoadEnd (.fileError c)
  | loop {o : Outcome} (ends : LoopEnd d l (loopStart d.answered l e.c) e.n o) : LoadEnd o

/-- Up to the loop only the open can fail. If it does not, the loader comes to the loop in the very
state it would with all calls answered. -/
theorem loopStart_answered {c : Loader} (hopen : d.openError (openRegs l c) = none) :
    int21 d (openRegs l c) = int21 d.answered (openRegs l c) ∧
      pagesCounted d (fileOpened d l c) = pagesCounted d.answered (fileOpened d.answered l c) ∧
      loopStart d l c = loopStart d.answered l c := by
  have hcall : int21 d (openRegs l c) = int21 d.answered (openRegs l c) :=
    int21_answered (fun _ => hopen) fun hah =>
      absurd ((openRegs_high8 c).symm.trans hah) (by decide)
  have hopened : fileOpened d l c = fileOpened d.answered l c := by
    unfold openRegs at hcall
    unfold fileOpened
    rw [hcall]
  have hcounted : ∀ c, pagesCounted d c = pagesCounted d.answered c := by
    intro c
    unfold pagesCounted
    rw [int21_seek_answered (by decide)]
  have hrewound : ∀ c, rewound d c = rewound d.answered c := by
    intro c
    unfold rewound
    rw [int21_seek_answered (by decide)]
  refine ⟨hcall, ?_, ?_⟩
  · rw [hopened, hcounted]
  · unfold loopStart
    rw [hopened, hcounted, hrewound]

/-- The pages of the loop are those of the file, from the place in the argument structure on. -/
theorem page_loopStart (k : Nat) :
    (page l (loopStart d.answered l e.c) k).args.desoff =
        (l.args e.c).desoff + BitVec.ofNat 32 (4096 * k) ∧
      (page l (loopStart d.answered l e.c) k).bytes =
        (List.range 4096).map fun j => e.c.env.file.data (4096 * k + j) := by
  obtain ⟨_, hdesoff, henv⟩ := loopStart_loading d.answered_succeed e
  obtain ⟨c₀, hc₀⟩ : ∃ c₀, c₀ = loopStart d.answered l e.c := ⟨_, rfl⟩
  rw [← hc₀] at hdesoff henv ⊢
  refine ⟨?_, ?_⟩
  · rw [← hdesoff]
    rfl
  · have hdata : c₀.env.file.data = e.c.env.file.data := by rw [henv]
    unfold page
    rw [hdata]

/-- As many rounds as there are pages are enough for the loader to come to an end, whatever the
calls answer, and the end is one of those of `LoadEnd`. -/
theorem loadKernel_ends : ∃ o, loadKernel d l e.n e.c = some o ∧ LoadEnd d e o := by
  have hd := d.answered_succeed
  obtain ⟨hloading, _, henv⟩ := loopStart_loading hd e
  cases hopen : d.openError (openRegs l e.c) with
  | some code =>
    have hfail : int21 d (openRegs l e.c) = dosFail code (openRegs l e.c) := by
      unfold int21 dosOpen
      rw [if_pos (openRegs_high8 e.c), hopen]
    have hcarry : (dosFail code (openRegs l e.c)).carry = true := carry_setCarry _ _
    refine ⟨.fileError (dosFail code (openRegs l e.c)), ?_, .noFile ?_ e.moves⟩
    · unfold openRegs at hfail hcarry ⊢
      rw [loadKernel_eq, hfail]
      exact if_pos hcarry
    · rw [hopen]
      exact Option.some_ne_none code
  | none =>
    obtain ⟨hcall, hcounted, hstart⟩ := loopStart_answered d hopen
    obtain ⟨hcarry, _⟩ := opened (l := l) hd e.c
    have hpages : (pagesCounted d (fileOpened d l e.c)).reg16 .eax ≠ 0#16 := by
      rw [hcounted, pagesCounted_pages hd e]
      exact e.pages_ne_zero
    have hsize : (loopStart d.answered l e.c).env.file.size = BitVec.ofNat 32 (4096 * e.n) := by
      rw [henv]
      exact e.size
    obtain ⟨o, hrun, hends⟩ := loadLoop_ends (d := d) hloading e.pos e.lt hsize
    refine ⟨o, ?_, .loop hends⟩
    unfold openRegs at hcall
    rw [loadKernel_eq]
    dsimp only
    rw [hcall, hcarry, if_neg Bool.false_ne_true, if_neg hpages, hstart]
    exact hrun

end Load

end OS90.Boot
