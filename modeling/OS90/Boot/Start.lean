import OS90.Boot.Frame

/-!
# The start of the loader

`Main` of `boot386.asm`, up to `ExtAllocSuccess`. The program looks for the driver, keeps its entry
point in memory and calls through it: A20, the high memory area, and all of the extended memory
there is, in this order. `Xms` is the driver's state and `Driver` what is open about it: whether
it is there, and which of the calls it refuses. A call through anything but the entry point has no
meaning here, so that `main` is partial.

`acquire` is the sequence without the program, and `main_ends` that the program performs it.

An error ends the program with its message. The answers of the driver are not checked against each
other: it may grant a call and answer nonsense, and the theorems that go on from here ask for what
they need.
-/

namespace OS90.Boot

open OS90.Ia32 OS90.Ia32.Cpu OS90.Kernel

/-- The texts the program prints. -/
inductive Message where
  | weclome
  | mnoXMS
  | a20Error
  | hmaError
  | extMemErr
  | kernelFile
  | fileIOError
  | moveError
  | a20AlreadyEnabled
  | aquiringHma
  | creatingTables
deriving DecidableEq, Repr

/-- An extended memory block, its size in kilobytes. -/
structure Emb where
  handle : WORD
  size : WORD
deriving DecidableEq, Repr

structure Xms where
  a20 : Bool
  hmaTaken : Bool
  embs : List Emb
deriving DecidableEq, Repr

/-- The driver's entry point, the error of a call, if it fails, and the answers of the others. -/
structure Driver where
  installed : Bool
  entrySeg : WORD
  entryOff : WORD
  a20Error : Xms → Option BYTE
  hmaError : Xms → WORD → Option BYTE
  /-- The largest free block, and all of the free memory. -/
  largest : Xms → WORD
  total : Xms → WORD
  embError : Xms → WORD → Option BYTE
  handle : Xms → WORD → WORD
  /-- What the lock of a handle leaves in DX:BX: where its block is, if it is granted. -/
  address : Xms → WORD → DWORD
  /-- BL after a call that succeeds. -/
  bl : Xms → BYTE

/-- What the program works on before it has a block. -/
structure Startup where
  world : World
  xms : Xms
  printed : List Message
  /-- The error of `SETBLOCK`, and the largest size it could have had. -/
  setBlock : Option (WORD × WORD)

abbrev Starter := Cpu Startup

/-- The program goes on with its block, or ends with an `ERROR`. -/
inductive Started where
  | extAlloc (c : Starter)
  | error (m : Message) (c : Starter)

/-- The loader, as it goes on. -/
def Starter.loader (c : Starter) : Loader := { c with env := c.env.world }

/-- The rest of the program's data, between `KernelAddr` and `XMM`. -/
structure Labels.Rest (l : Labels) where
  gdtr : Nat
  gdtr_le : l.kernelAddr + 4 ≤ gdtr
  gdt : Nat
  gdt_le : gdtr + 6 ≤ gdt
  xms : Nat
  xms_le : gdt + 24 ≤ xms
  xmm_le : xms + 4 ≤ l.xmm
  /-- The texts. -/
  text : Message → WORD

/-! ## Calls -/

/-- `mov ah, 9`. DOS leaves the last character in AL. -/
def dosPrint (m : Message) (c : Starter) : Starter :=
  { c.setLow8 .eax 0x24 with env := { c.env with printed := c.env.printed ++ [m] } }

/-- `mov ah, 4Ah`. -/
def dosSetBlock (c : Starter) : Starter :=
  match c.env.setBlock with
  | some (code, size) => c.set16 .eax code |>.set16 .ebx size |>.setCarry true
  | none => c.setCarry false

/-- `pop` of a segment register. -/
def popSeg16 {σ : Type} (s : Seg) (c : Cpu σ) : Cpu σ :=
  let sp := c.reg16 .esp
  c.set16 .esp (sp + 2#16) |>.setSeg s (c.mem.read16 (linear (c.seg .ss) sp))

/-- A text printed, with the registers saved around the call. -/
def showText {σ : Type} (text : WORD) (c : Cpu σ) : Cpu σ :=
  (c.pusha.setHigh8 .eax 9 |>.set16 .edx text |>.setLow8 .eax 0x24).popa

/-- `MESSAGE`. -/
def message (text : WORD) (m : Message) (c : Starter) : Starter :=
  { showText text c with env := { c.env with printed := c.env.printed ++ [m] } }

/-- `ERROR`, up to the exit. -/
def exit (text : WORD) (m : Message) (c : Starter) : Started :=
  .error m (dosPrint m (c.setHigh8 .eax 9 |>.set16 .edx text))

section Driver

variable (x : Driver)

/-- `int 2Fh`, for the two functions of the driver. -/
def int2F (c : Starter) : Starter :=
  if c.reg16 .eax = 0x4300#16 then
    if x.installed then c.setLow8 .eax 0x80 else c
  else if c.reg16 .eax = 0x4310#16 then c.set16 .ebx x.entryOff |>.setSeg .es x.entrySeg
  else c

/-- An answer: AX is one, or zero with the error in BL. -/
def answer (code : Option BYTE) (s : Xms) (c : Starter) : Starter :=
  match code with
  | some code => c.set16 .eax 0 |>.setLow8 .ebx code
  | none => { c.set16 .eax 1 |>.setLow8 .ebx (x.bl s) with env := { c.env with xms := s } }

/-- The driver, entered at its entry point. -/
def service (c : Starter) : Option Starter :=
  let s := c.env.xms
  if c.high8 .eax = 1 then
    some (answer x (x.hmaError s (c.reg16 .edx)) { s with hmaTaken := true } c)
  else if c.high8 .eax = 3 then some (answer x (x.a20Error s) { s with a20 := true } c)
  else if c.high8 .eax = 7 then
    some (c.set16 .eax (if s.a20 then 1 else 0) |>.setLow8 .ebx 0)
  else if c.high8 .eax = 8 then
    some (c.set16 .eax (x.largest s) |>.set16 .edx (x.total s) |>.setLow8 .ebx (x.bl s))
  else if c.high8 .eax = 9 then
    let size := c.reg16 .edx
    let emb := { handle := x.handle s size, size := size }
    let c' := answer x (x.embError s size) { s with embs := s.embs ++ [emb] } c
    some (if x.embError s size = none then c'.set16 .edx emb.handle else c')
  else none

/-- `xms [bp]`: a far call of whatever the pointer is. -/
def xmsCall (c : Starter) : Option Starter :=
  let a := linear (c.seg .ss) (c.reg16 .ebp)
  if c.mem.read32 a = x.entrySeg ++ x.entryOff then service x c else none

end Driver

/-! ## The code -/

section Code

variable (x : Driver) {l : Labels} (b : l.Rest)

/-- Up to the look for the driver. -/
def greet (c : Starter) : Starter :=
  let c := dosSetBlock (c.setHigh8 .eax 0x4A |>.set16 .ebx 0x1000)
  let c := c.setDf false |>.set16 .eax 3
  dosPrint .weclome (c.setHigh8 .eax 9 |>.set16 .edx (b.text .weclome))

/-- From `Present` to the first call of the driver. -/
def acquirePointer (c : Starter) : Starter :=
  let c := c.push16 (c.seg .es) |>.set16 .eax 0x4310
  let c := int2F x c
  let c := c.set16 .ebp (BitVec.ofNat 16 b.xms)
  let c := c.store16 (linear (c.seg .ss) (c.reg16 .ebp)) (c.reg16 .ebx)
  let c := c.store16 (linear (c.seg .ss) (c.reg16 .ebp + 2)) (c.seg .es)
  popSeg16 .es c

/-- `HMA_OK`. -/
def allocate (c : Starter) : Option Started := do
  let c ← xmsCall x (c.setHigh8 .eax 8)
  let c ← xmsCall x (c.set16 .edx (c.reg16 .eax) |>.setHigh8 .eax 9)
  return if c.low8 .eax = 1 then .extAlloc c else exit (b.text .extMemErr) .extMemErr c

/-- `A20Enabled`. -/
def takeHma (c : Starter) : Option Started := do
  let c := message (b.text .aquiringHma) .aquiringHma c
  let c ← xmsCall x (c.setHigh8 .eax 1 |>.set16 .edx 0xFFFF)
  if c.low8 .eax = 1 then allocate x b c
  else return exit (b.text .hmaError) .hmaError c

/-- `Present`. -/
def xmsPresent (c : Starter) : Option Started := do
  let c ← xmsCall x ((acquirePointer x b c).setHigh8 .eax 7)
  if c.low8 .eax = 0 then
    let c ← xmsCall x (c.setHigh8 .eax 3)
    if c.low8 .eax = 1 then takeHma x b c
    else return exit (b.text .a20Error) .a20Error c
  else takeHma x b (message (b.text .a20AlreadyEnabled) .a20AlreadyEnabled c)

/-- `Main`. -/
def main (c : Starter) : Option Started :=
  let c := int2F x ((greet b c).set16 .eax 0x4300)
  if c.low8 .eax = 0x80 then xmsPresent x b c
  else some (exit (b.text .mnoXMS) .mnoXMS c)

end Code

/-! ## Steps -/

theorem showText_env {σ : Type} (text : WORD) (c : Cpu σ) : (showText text c).env = c.env := by
  obtain ⟨p, hp⟩ : ∃ p, p = c.pusha := ⟨_, rfl⟩
  unfold showText
  rw [← hp, popa_env, ← pusha_env (c := c), ← hp]
  rfl

/-- A text printed keeps everything but the words of its `pusha`, for a program that has its stack
in its data segment. -/
theorem showText_frame {σ : Type} {c : Cpu σ} {S : Nat → Prop} (text : WORD)
    (hss : c.seg .ss = c.seg .ds) (hroom : 16 ≤ (c.reg16 .esp).toNat)
    (hS : ∀ j, (c.reg16 .esp).toNat - 16 ≤ j → j < (c.reg16 .esp).toNat → S j) :
    Frame S c (showText text c) ∧ ∀ q, (showText text c).reg16 q = c.reg16 q := by
  obtain ⟨p, hp⟩ : ∃ p, p = c.pusha := ⟨_, rfl⟩
  obtain ⟨d, hd⟩ : ∃ d, d = (p.setHigh8 .eax 9 |>.set16 .edx text |>.setLow8 .eax 0x24) := ⟨_, rfl⟩
  have hshow : showText text c = d.popa := by
    rw [hd, hp]
    rfl
  have hseg : d.seg = c.seg := by
    rw [hd, ← pusha_seg (c := c), ← hp]
    rfl
  have hmem : d.mem = c.pusha.mem := by
    rw [hd, ← hp]
    rfl
  have hdf : d.df = c.df := by
    have hflags : d.eflags = c.eflags := by
      rw [hd, ← pusha_eflags (c := c), ← hp]
      rfl
    unfold df
    rw [hflags]
  have hesp : d.reg16 .esp = c.reg16 .esp - 16#16 := by
    unfold Cpu.setLow8 at hd
    rw [hd, set16_reg16, if_neg (by decide), set16_reg16, if_neg (by decide), setHigh8_reg16,
      if_neg (by decide), hp, pusha_reg16, if_pos rfl]
  rw [hshow]
  exact ⟨.pusha_popa hss hroom hS hseg hesp hdf hmem,
    popa_pusha_reg16 hroom (congrFun hseg .ss) hesp hmem⟩

/-- A message is printed without a store and without a change of the stack. -/
theorem dosPrint_frame {S : Nat → Prop} (m : Message) (c : Starter) : Frame S c (dosPrint m c) :=
  (Frame.setLow8 (r := .eax) (a := 0x24) (by decide)).trans (.of_mem_eq rfl rfl rfl rfl)

/-- A stretch of the program that writes only to the eight words under the stack pointer, and keeps
BP, which points to the entry point. -/
structure Steady (sp : Nat) (c c' : Starter) : Prop where
  frame : Frame (fun j => sp - 16 ≤ j ∧ j < sp) c c'
  ebp : c'.reg16 .ebp = c.reg16 .ebp
  world : c'.env.world = c.env.world

namespace Steady

variable {sp : Nat} {c c' c'' : Starter}

/-- Two steady stretches one after the other are steady, if they are taken at the same depth of the
stack. -/
theorem trans (h : Steady sp c c') (h' : Steady sp c' c'') : Steady sp c c'' :=
  ⟨h.frame.trans h'.frame, h'.ebp.trans h.ebp, h'.world.trans h.world⟩

theorem set16 {r : Reg} {v : WORD} (hsp : .esp ≠ r) (hbp : .ebp ≠ r) : Steady sp c (c.set16 r v) :=
  ⟨.set16 hsp, (set16_reg16 c r .ebp v).trans (if_neg hbp), rfl⟩

theorem setHigh8 {r : Reg} {v : BYTE} (hsp : .esp ≠ r) (hbp : .ebp ≠ r) :
    Steady sp c (c.setHigh8 r v) := set16 hsp hbp

theorem setLow8 {r : Reg} {v : BYTE} (hsp : .esp ≠ r) (hbp : .ebp ≠ r) :
    Steady sp c (c.setLow8 r v) := set16 hsp hbp

/-- A change of the environment is steady as long as the world is not what is changed. -/
theorem setEnv {e : Startup} (h : e.world = c.env.world) : Steady sp c { c with env := e } :=
  ⟨.of_mem_eq rfl rfl rfl rfl, rfl, h⟩

/-- What the driver answers is in AX, DX and BL. None of it is what the program keeps its own state
in. -/
theorem answer (x : Driver) (code : Option BYTE) (s : Xms) :
    Steady sp c (Boot.answer x code s c) := by
  cases code with
  | some code => exact (set16 (by decide) (by decide)).trans (setLow8 (by decide) (by decide))
  | none =>
    exact ((set16 (by decide) (by decide)).trans (setLow8 (by decide) (by decide))).trans
      (setEnv rfl)

/-- `MESSAGE` is steady, when the stack has room for the registers it saves. -/
theorem message (text : WORD) (m : Message) (hss : c.seg .ss = c.seg .ds)
    (hsp : (c.reg16 .esp).toNat = sp) (hroom : 16 ≤ sp) :
    Steady sp c (message text m c) := by
  obtain ⟨hframe, hregs⟩ := showText_frame text (S := fun j => sp - 16 ≤ j ∧ j < sp) hss
    (by omega) fun j hlo hhi => ⟨by omega, by omega⟩
  have henv := showText_env text c
  unfold Boot.message
  generalize showText text c = d at hframe hregs henv ⊢
  have hworld : d.env.world = c.env.world := congrArg Startup.world henv
  have hshown : Steady sp c d := ⟨hframe, hregs .ebp, hworld⟩
  exact hshown.trans (setEnv hworld.symm)

/-- Every answer of the driver is steady, whichever function was asked for. -/
theorem service {x : Driver} (h : service x c = some c') : Steady sp c c' := by
  unfold Boot.service at h
  dsimp only at h
  split at h
  · cases h
    exact answer x _ _
  split at h
  · cases h
    exact answer x _ _
  split at h
  · cases h
    exact (set16 (by decide) (by decide)).trans (setLow8 (by decide) (by decide))
  split at h
  · cases h
    exact ((set16 (by decide) (by decide)).trans (set16 (by decide) (by decide))).trans
      (setLow8 (by decide) (by decide))
  split at h
  · cases h
    split
    · exact (answer x _ _).trans (set16 (by decide) (by decide))
    · exact answer x _ _
  · cases h

end Steady

/-- The program with the entry point at SS:BP. -/
structure Connected (x : Driver) {l : Labels} (b : l.Rest) (c : Starter) : Prop where
  placed : l.Placed c.loader
  ebp : c.reg16 .ebp = BitVec.ofNat 16 b.xms
  pointer : c.mem.read32 (linear (c.seg .ds) 0#16 + BitVec.ofNat 32 b.xms) =
    x.entrySeg ++ x.entryOff

section Connected

variable {x : Driver} {l : Labels} {b : l.Rest} {c c' : Starter}

/-- The entry point is stored under the other data, and all of it under the stack. -/
theorem Labels.Rest.bounds (b : l.Rest) (h : l.Placed c.loader) :
    b.xms + 4 ≤ l.xmm ∧ l.xmm + 16 ≤ l.buffer ∧
      l.buffer + 4096 + 64 ≤ (c.reg16 .esp).toNat ∧ (c.reg16 .esp).toNat < 2 ^ 16 := by
  obtain ⟨_, hxmm, hidMap, hroom, hlt⟩ := h.bounds
  have hle := b.xmm_le
  exact ⟨hle, by omega, hroom, hlt⟩

/-- The connection to the driver, its entry point in memory and its address in BP, survives whatever
is steady. -/
theorem Connected.steady (h : Connected x b c)
    (hs : Steady (c.reg16 .esp).toNat c c') : Connected x b c' := by
  obtain ⟨hxms, hbuffer, hroom, hlt⟩ := b.bounds h.placed
  refine ⟨⟨?_, ?_, ?_⟩, hs.ebp.trans h.ebp, ?_⟩
  · show c'.seg .ss = c'.seg .ds
    rw [hs.frame.seg]
    exact h.placed.stack
  · show l.buffer + 4096 + 64 ≤ (c'.reg16 .esp).toNat
    rw [hs.frame.esp]
    exact hroom
  · show 16 * (c'.seg .ds).toNat + 0x10000 ≤ 0x100000
    rw [hs.frame.seg]
    exact h.placed.conventional
  · rw [hs.frame.seg, hs.frame.read32 (by omega) fun i hi hS => by omega]
    exact h.pointer

/-- A far call through the pointer at SS:BP goes to the driver, as long as the connection is
kept. -/
theorem Connected.call (h : Connected x b c) : xmsCall x c = service x c := by
  obtain ⟨hxms, hbuffer, hroom, hlt⟩ := b.bounds h.placed
  have hss : c.seg .ss = c.seg .ds := h.placed.stack
  unfold xmsCall
  dsimp only
  rw [h.ebp, hss, linear_ofNat _ (by omega), h.pointer, if_pos rfl]

end Connected

/-! ## What the driver is asked for -/

section Acquire

variable (x : Driver)

/-- The memory, all of the largest block. -/
def acquireEmb (s : Xms) : Message ⊕ Xms × Emb :=
  let size := x.largest s
  let emb := { handle := x.handle s size, size := size }
  if x.embError s size = none then .inr ({ s with embs := s.embs ++ [emb] }, emb)
  else .inl .extMemErr

/-- The high memory area, and then the memory. -/
def acquireHma (s : Xms) : Message ⊕ Xms × Emb :=
  if x.hmaError s 0xFFFF = none then acquireEmb x { s with hmaTaken := true } else .inl .hmaError

/-- A20 first, if it is not on. -/
def acquireA20 (s : Xms) : Message ⊕ Xms × Emb :=
  if s.a20 = true ∨ x.a20Error s = none then acquireHma x { s with a20 := true }
  else .inl .a20Error

/-- The message of the first call that fails, or the driver's last state and the block. -/
def acquire (s : Xms) : Message ⊕ Xms × Emb :=
  if x.installed then acquireA20 x s else .inl .mnoXMS

end Acquire

/-- What has been granted when the sequence ends well: a driver, the A20 line, the high memory area
and one block of the largest size. -/
theorem acquire_granted {x : Driver} {s₀ s : Xms} {emb : Emb}
    (h : acquire x s₀ = .inr (s, emb)) :
    x.installed = true ∧ s.a20 = true ∧ s.hmaTaken = true ∧ s.embs = s₀.embs ++ [emb] ∧
      emb.size = x.largest { s₀ with a20 := true, hmaTaken := true } := by
  unfold acquire acquireA20 acquireHma acquireEmb at h
  dsimp only at h
  split at h
  · next hinstalled =>
    split at h
    · split at h
      · split at h
        · cases h
          exact ⟨hinstalled, rfl, rfl, rfl, rfl⟩
        · cases h
      · cases h
    · cases h
  · cases h

/-- A stretch of the program that leaves the driver in a state. -/
structure After (c : Starter) (s : Xms) (c' : Starter) : Prop where
  steady : Steady (c.reg16 .esp).toNat c c'
  xms : c'.env.xms = s

/-- Two stretches of calls one after the other are one, which leaves the driver as the second of
them does. -/
theorem After.trans {c c' c'' : Starter} {s s' : Xms} (h : After c s c') (h' : After c' s' c'') :
    After c s' c'' := by
  have hsteady := h'.steady
  rw [h.steady.frame.esp] at hsteady
  exact ⟨h.steady.trans hsteady, h'.xms⟩

/-- The program ends as the sequence does. -/
inductive Ends (c : Starter) : Message ⊕ Xms × Emb → Option Started → Prop
  | error (m : Message) (c' : Starter) : Ends c (.inl m) (some (.error m c'))
  | extAlloc {s : Xms} {emb : Emb} {c' : Starter} (after : After c s c')
      (edx : c'.reg16 .edx = emb.handle) : Ends c (.inr (s, emb)) (some (.extAlloc c'))

/-- An end of the rest of the program is an end of the whole, as the stretch before it is steady. -/
theorem Ends.after {c c' : Starter} {s : Xms} {r : Message ⊕ Xms × Emb} {o : Option Started}
    (h : After c s c') (hends : Ends c' r o) : Ends c r o := by
  cases hends with
  | error m c' => exact .error m c'
  | extAlloc after edx => exact .extAlloc (h.trans after) edx

section Stages

variable {x : Driver} {l : Labels} {b : l.Rest} {c c' : Starter} {s : Xms}

/-- A call that is answered leaves 1 in AL, and the driver in the state it was asked to go to. -/
theorem answer_none (x : Driver) (s : Xms) (c : Starter) :
    (answer x none s c).low8 .eax = 1 ∧ After c s (answer x none s c) := by
  refine ⟨?_, .answer x none s, rfl⟩
  show ((c.set16 .eax 1).setLow8 .ebx (x.bl s)).low8 .eax = 1
  unfold Cpu.setLow8
  rw [low8_eq_reg16, set16_reg16, if_neg (by decide), set16_reg16, if_pos rfl]
  decide

/-- A call that fails leaves 0 in AL, which is what the program tests. -/
theorem answer_some (x : Driver) (code : BYTE) (s : Xms) (c : Starter) :
    (answer x (some code) s c).low8 .eax = 0 := by
  show ((c.set16 .eax 0).setLow8 .ebx code).low8 .eax = 0
  unfold Cpu.setLow8
  rw [low8_eq_reg16, set16_reg16, if_neg (by decide), set16_reg16, if_pos rfl]
  decide

/-- `xms [bp]` and the test of AL, for the calls that answer with AX only. -/
theorem Connected.answered (h : Connected x b c) {code : Option BYTE}
    (hservice : service x c = some (answer x code s c)) :
    ∃ c', xmsCall x c = some c' ∧ (code = none → c'.low8 .eax = 1 ∧ After c s c') ∧
      (code ≠ none → c'.low8 .eax ≠ 1) := by
  refine ⟨_, h.call.trans hservice, ?_, ?_⟩
  · rintro rfl
    exact answer_none x s c
  · intro hcode
    obtain ⟨code, rfl⟩ := Option.ne_none_iff_exists'.mp hcode
    rw [answer_some]
    decide

/-- The connection survives a stretch of calls, as it survives whatever is steady. -/
theorem Connected.after (h : Connected x b c) (ha : After c s c') : Connected x b c' :=
  h.steady ha.steady

/-- The query for the largest block answers its size in AX. It has no error that the program looks
at. -/
theorem Connected.query (h : Connected x b c) : ∃ c', xmsCall x (c.setHigh8 .eax 8) = some c' ∧
    After c c.env.xms c' ∧ c'.reg16 .eax = x.largest c.env.xms := by
  obtain ⟨c₁, hc₁⟩ : ∃ c₁, c₁ = c.setHigh8 .eax 8 := ⟨_, rfl⟩
  have hs : Steady (c.reg16 .esp).toNat c c₁ := by
    rw [hc₁]
    exact .setHigh8 (by decide) (by decide)
  have hah : c₁.high8 .eax = 8 := by
    rw [hc₁]
    exact setHigh8_high8 _ _ _
  have hservice : service x c₁ = some (c₁.set16 .eax (x.largest c₁.env.xms)
      |>.set16 .edx (x.total c₁.env.xms) |>.setLow8 .ebx (x.bl c₁.env.xms)) := by
    unfold service
    dsimp only
    rw [hah, if_neg (by decide), if_neg (by decide), if_neg (by decide), if_pos rfl]
  have hxms : c₁.env.xms = c.env.xms := by
    rw [hc₁]
    rfl
  rw [← hc₁]
  refine ⟨_, (h.steady hs).call.trans hservice, ⟨hs.trans (.service hservice), hxms⟩, ?_⟩
  unfold Cpu.setLow8
  rw [set16_reg16, if_neg (by decide), set16_reg16, if_neg (by decide), set16_reg16, if_pos rfl,
    hxms]

/-- The last call asks for a block of the size in DX. AL is 1 if and only if the block is granted,
and then DX is its handle and the driver has it. -/
theorem Connected.alloc (h : Connected x b c) (hah : c.high8 .eax = 9) {size : WORD}
    (hdx : c.reg16 .edx = size) {emb : Emb}
    (hemb : emb = { handle := x.handle c.env.xms size, size := size }) :
    ∃ c', xmsCall x c = some c' ∧
      (x.embError c.env.xms size = none → c'.low8 .eax = 1 ∧
        After c { c.env.xms with embs := c.env.xms.embs ++ [emb] } c' ∧
          c'.reg16 .edx = emb.handle) ∧
      (x.embError c.env.xms size ≠ none → c'.low8 .eax ≠ 1) := by
  have hservice : service x c = some (if x.embError c.env.xms size = none then
      (answer x (x.embError c.env.xms size)
        { c.env.xms with embs := c.env.xms.embs ++ [emb] } c).set16 .edx emb.handle
      else answer x (x.embError c.env.xms size)
        { c.env.xms with embs := c.env.xms.embs ++ [emb] } c) := by
    unfold service
    dsimp only
    rw [hah, if_neg (by decide), if_neg (by decide), if_neg (by decide), if_neg (by decide),
      if_pos rfl, hdx, hemb]
  refine ⟨_, h.call.trans hservice, fun hnone => ?_, fun hfail => ?_⟩
  · obtain ⟨hal, hafter⟩ := answer_none x { c.env.xms with embs := c.env.xms.embs ++ [emb] } c
    rw [hnone, if_pos rfl]
    refine ⟨?_, ⟨hafter.steady.trans (.set16 (by decide) (by decide)), hafter.xms⟩, ?_⟩
    · rw [low8_eq_reg16, set16_reg16, if_neg (by decide), ← low8_eq_reg16]
      exact hal
    · rw [set16_reg16, if_pos rfl]
  · obtain ⟨code, hcode⟩ := Option.ne_none_iff_exists'.mp hfail
    rw [if_neg hfail, hcode, answer_some]
    decide

/-- From `HMA_OK` on the program ends as the rest of the sequence does. -/
theorem allocate_ends (h : Connected x b c) :
    Ends c (acquireEmb x c.env.xms) (allocate x b c) := by
  obtain ⟨c₁, hquery, hafter, hax⟩ := h.query
  obtain ⟨c₂, hc₂⟩ : ∃ c₂, c₂ = (c₁.set16 .edx (c₁.reg16 .eax)).setHigh8 .eax 9 := ⟨_, rfl⟩
  have hregs : After c₁ c.env.xms c₂ := by
    rw [hc₂]
    exact ⟨(Steady.set16 (by decide) (by decide)).trans (.setHigh8 (by decide) (by decide)),
      hafter.xms⟩
  have hc := (h.after hafter).after hregs
  have hah : c₂.high8 .eax = 9 := by
    rw [hc₂]
    exact setHigh8_high8 _ _ _
  have hdx : c₂.reg16 .edx = x.largest c₂.env.xms := by
    rw [hregs.xms, hc₂, setHigh8_reg16, if_neg (by decide), set16_reg16, if_pos rfl, hax]
  obtain ⟨c₃, halloc, hnone, hfail⟩ := hc.alloc hah hdx rfl
  have hrun : allocate x b c = some (if c₃.low8 .eax = 1 then .extAlloc c₃
      else exit (b.text .extMemErr) .extMemErr c₃) := by
    unfold allocate
    rw [hquery, Option.bind_eq_bind, Option.bind_some, ← hc₂, halloc, Option.bind_some]
    rfl
  refine Ends.after (hafter.trans hregs) ?_
  rw [hrun, ← hregs.xms]
  unfold acquireEmb
  by_cases hemb : x.embError c₂.env.xms (x.largest c₂.env.xms) = none
  · obtain ⟨hal, hlast, hhandle⟩ := hnone hemb
    rw [if_pos hal, if_pos hemb]
    exact .extAlloc hlast hhandle
  · rw [if_neg (hfail hemb), if_neg hemb]
    exact .error _ _

/-- A `MESSAGE` between two calls changes nothing that counts. -/
theorem Connected.message (h : Connected x b c) (text : WORD) (m : Message) :
    After c c.env.xms (message text m c) := by
  obtain ⟨_, _, hroom, _⟩ := b.bounds h.placed
  exact ⟨.message text m h.placed.stack rfl (by omega), rfl⟩

/-- From `A20Enabled` on, which adds the request for the high memory area in front. -/
theorem takeHma_ends (h : Connected x b c) :
    Ends c (acquireHma x c.env.xms) (takeHma x b c) := by
  obtain ⟨c₁, hc₁⟩ : ∃ c₁, c₁ = Boot.message (b.text .aquiringHma) .aquiringHma c := ⟨_, rfl⟩
  have hmessage : After c c.env.xms c₁ := by
    rw [hc₁]
    exact h.message _ _
  obtain ⟨c₂, hc₂⟩ : ∃ c₂, c₂ = (c₁.setHigh8 .eax 1).set16 .edx 0xFFFF := ⟨_, rfl⟩
  have hregs : After c c.env.xms c₂ := by
    refine hmessage.trans ⟨?_, ?_⟩
    · rw [hc₂]
      exact (Steady.setHigh8 (by decide) (by decide)).trans (.set16 (by decide) (by decide))
    · rw [hc₂]
      exact hmessage.xms
  have hservice : service x c₂ = some (answer x (x.hmaError c₂.env.xms 0xFFFF)
      { c₂.env.xms with hmaTaken := true } c₂) := by
    have hah : c₂.high8 .eax = 1 := by
      rw [hc₂, high8_eq_reg16, set16_reg16, if_neg (by decide), ← high8_eq_reg16]
      exact setHigh8_high8 _ _ _
    have hdx : c₂.reg16 .edx = 0xFFFF := by
      rw [hc₂, set16_reg16, if_pos rfl]
    unfold service
    dsimp only
    rw [if_pos hah, hdx]
  obtain ⟨c₃, hcall, hnone, hfail⟩ := (h.after hregs).answered hservice
  have hrun : takeHma x b c = if c₃.low8 .eax = 1 then allocate x b c₃
      else some (exit (b.text .hmaError) .hmaError c₃) := by
    unfold takeHma
    dsimp only
    rw [← hc₁, ← hc₂, hcall, Option.bind_eq_bind, Option.bind_some]
    rfl
  refine Ends.after hregs ?_
  rw [hrun, ← hregs.xms]
  unfold acquireHma
  by_cases hhma : x.hmaError c₂.env.xms 0xFFFF = none
  · obtain ⟨hal, hlast⟩ := hnone hhma
    rw [if_pos hal, if_pos hhma]
    have hends := Ends.after hlast (allocate_ends ((h.after hregs).after hlast))
    rw [hlast.xms] at hends
    exact hends
  · rw [if_neg (hfail hhma), if_neg hhma]
    exact .error _ _

/-- From the entry point on, with the query of the A20 line in front of that. The line is enabled
only if it is not already. -/
theorem queried_ends (h : Connected x b c) (hah : c.high8 .eax = 7) :
    Ends c (acquireA20 x c.env.xms) (do
      let c ← xmsCall x c
      if c.low8 .eax = 0 then
        let c ← xmsCall x (c.setHigh8 .eax 3)
        if c.low8 .eax = 1 then takeHma x b c
        else return exit (b.text .a20Error) .a20Error c
      else takeHma x b (message (b.text .a20AlreadyEnabled) .a20AlreadyEnabled c)) := by
  obtain ⟨c₁, hc₁⟩ : ∃ c₁, c₁ = (c.set16 .eax (if c.env.xms.a20 then 1 else 0)).setLow8 .ebx 0 :=
    ⟨_, rfl⟩
  have hcall : xmsCall x c = some c₁ := by
    rw [h.call]
    unfold service
    dsimp only
    rw [hah, if_neg (by decide), if_neg (by decide), if_pos rfl, hc₁]
  have hquery : After c c.env.xms c₁ := by
    rw [hc₁]
    exact ⟨(Steady.set16 (by decide) (by decide)).trans (.setLow8 (by decide) (by decide)), rfl⟩
  have hal : c₁.low8 .eax = if c.env.xms.a20 then 1 else 0 := by
    rw [hc₁]
    unfold Cpu.setLow8
    rw [low8_eq_reg16, set16_reg16, if_neg (by decide), set16_reg16, if_pos rfl]
    split <;> decide
  rw [hcall, Option.bind_eq_bind, Option.bind_some]
  refine Ends.after hquery ?_
  unfold acquireA20
  cases ha20 : c.env.xms.a20 with
  | true =>
    have hon : c₁.low8 .eax ≠ 0 := by
      rw [hal, ha20]
      decide
    have hsame : { c.env.xms with a20 := true } = c.env.xms := by
      rw [← ha20]
    have hmessage := (h.after hquery).message (b.text .a20AlreadyEnabled) .a20AlreadyEnabled
    have hends := Ends.after hmessage (takeHma_ends (((h.after hquery).after hmessage)))
    rw [hmessage.xms, hquery.xms] at hends
    rw [if_neg hon, if_pos (.inl rfl), hsame]
    exact hends
  | false =>
    have hoff : c₁.low8 .eax = 0 := by
      rw [hal, ha20]
      rfl
    obtain ⟨c₂, hc₂⟩ : ∃ c₂, c₂ = c₁.setHigh8 .eax 3 := ⟨_, rfl⟩
    have hregs : After c₁ c.env.xms c₂ := by
      rw [hc₂]
      exact ⟨.setHigh8 (by decide) (by decide), hquery.xms⟩
    have hservice : service x c₂ = some (answer x (x.a20Error c₂.env.xms)
        { c₂.env.xms with a20 := true } c₂) := by
      have hah : c₂.high8 .eax = 3 := by
        rw [hc₂]
        exact setHigh8_high8 _ _ _
      unfold service
      dsimp only
      rw [hah, if_neg (by decide), if_pos rfl]
    obtain ⟨c₃, hcall₃, hnone, hfail⟩ := ((h.after hquery).after hregs).answered hservice
    rw [hregs.xms] at hnone hfail
    rw [if_pos hoff, ← hc₂, hcall₃, Option.bind_some]
    refine Ends.after hregs ?_
    by_cases herror : x.a20Error c.env.xms = none
    · obtain ⟨hal₃, hlast⟩ := hnone herror
      rw [if_pos hal₃, if_pos (.inr herror)]
      have hends := Ends.after hlast (takeHma_ends (((h.after hquery).after hregs).after hlast))
      rw [hlast.xms] at hends
      exact hends
    · have hneither : ¬ (false = true ∨ x.a20Error c.env.xms = none) := by
        rintro (hfalse | hnone)
        · cases hfalse
        · exact herror hnone
      rw [if_neg (hfail herror), if_neg hneither]
      exact .error _ _

end Stages

/-! ## From the start -/

/-- What `Main` writes: the entry point, and the stack. -/
def startScratch {l : Labels} (b : l.Rest) (sp j : Nat) : Prop :=
  (b.xms ≤ j ∧ j < b.xms + 4) ∨ (sp - 16 ≤ j ∧ j < sp)

section Start

variable (x : Driver) {l : Labels} (b : l.Rest) {c : Starter}

/-- The machine with the entry point in BX and ES. -/
def pointerKnown (c : Starter) : Starter :=
  int2F x (c.push16 (c.seg .es) |>.set16 .eax 0x4310) |>.set16 .ebp (BitVec.ofNat 16 b.xms)

/-- And with it in memory. -/
def pointerStored (c : Starter) : Starter :=
  let c := pointerKnown x b c
  let c := c.store16 (linear (c.seg .ss) (c.reg16 .ebp)) (c.reg16 .ebx)
  c.store16 (linear (c.seg .ss) (c.reg16 .ebp + 2)) (c.seg .es)

/-- The multiplex interrupt is called between a push and a pop of ES. -/
theorem acquirePointer_eq (c : Starter) :
    acquirePointer x b c = popSeg16 .es (pointerStored x b c) := rfl

/-- DOS answers ES:BX, the entry point of the driver. -/
theorem pointerKnown_eq (c : Starter) : pointerKnown x b c =
    (((c.push16 (c.seg .es) |>.set16 .eax 0x4310).set16 .ebx x.entryOff).setSeg .es
      x.entrySeg).set16 .ebp (BitVec.ofNat 16 b.xms) := by
  have hax : (c.push16 (c.seg .es) |>.set16 .eax 0x4310).reg16 .eax = 0x4310#16 := by
    rw [set16_reg16, if_pos rfl]
    rfl
  unfold pointerKnown int2F
  rw [hax, if_neg (by decide), if_pos rfl]

theorem pointerKnown_seg (c : Starter) :
    (pointerKnown x b c).seg = Function.update c.seg .es x.entrySeg := by
  rw [pointerKnown_eq]
  rfl

/-- The registers with the entry point known: BP is set to the place it is going to be stored in. -/
theorem pointerKnown_reg16 (c : Starter) (q : Reg) : (pointerKnown x b c).reg16 q =
    if q = .ebp then BitVec.ofNat 16 b.xms else if q = .ebx then x.entryOff
      else if q = .eax then 0x4310 else if q = .esp then c.reg16 .esp - 2#16 else c.reg16 q := by
  have hseg : ∀ (c : Starter) (w : WORD), (c.setSeg .es w).reg16 q = c.reg16 q := fun _ _ => rfl
  rw [pointerKnown_eq, set16_reg16, hseg, set16_reg16, set16_reg16, push16_reg16]

/-- Memory after the store: the word of the push, and the two words of the entry point. -/
theorem pointerStored_mem (hplaced : l.Placed c.loader) :
    let a := linear (c.seg .ds) 0#16
    (pointerStored x b c).mem =
      ((c.mem.write16 (a + BitVec.ofNat 32 ((c.reg16 .esp).toNat - 2)) (c.seg .es)).write16
        (a + BitVec.ofNat 32 b.xms) x.entryOff).write16 (a + BitVec.ofNat 32 b.xms + 2#32)
          x.entrySeg := by
  intro a
  obtain ⟨hxms, hbuffer, hroom, hlt⟩ := b.bounds hplaced
  have hss : c.seg .ss = c.seg .ds := hplaced.stack
  obtain ⟨p, hp⟩ : ∃ p, p = pointerKnown x b c := ⟨_, rfl⟩
  have hmem : p.mem = c.mem.write16 (a + BitVec.ofNat 32 ((c.reg16 .esp).toNat - 2))
      (c.seg .es) := by
    have hpush : linear (c.seg .ss) (c.reg16 .esp - 2#16) =
        a + BitVec.ofNat 32 ((c.reg16 .esp).toNat - 2) := by
      rw [linear_push16 (by omega), hss]
    rw [hp, pointerKnown_eq, ← hpush]
    rfl
  have hpss : p.seg .ss = c.seg .ds := by
    rw [hp, pointerKnown_seg, Function.update_of_ne (by decide), hss]
  have hes : p.seg .es = x.entrySeg := by
    rw [hp, pointerKnown_seg, Function.update_self]
  have hbp : p.reg16 .ebp = BitVec.ofNat 16 b.xms := hp ▸ pointerKnown_reg16 x b c .ebp
  have hbx : p.reg16 .ebx = x.entryOff := hp ▸ pointerKnown_reg16 x b c .ebx
  have hlow : linear (p.seg .ss) (p.reg16 .ebp) = a + BitVec.ofNat 32 b.xms := by
    rw [hpss, hbp, linear_ofNat _ (by omega)]
  have hhigh : linear (p.seg .ss) (p.reg16 .ebp + 2) = a + BitVec.ofNat 32 b.xms + 2#32 := by
    have hsum : BitVec.ofNat 16 b.xms + 2 = BitVec.ofNat 16 (b.xms + 2) :=
      (BitVec.ofNat_add b.xms 2).symm
    rw [hpss, hbp, hsum, linear_ofNat _ (by omega)]
    exact (Mem.add_ofNat_add _ b.xms 2).symm
  have hstored : (pointerStored x b c).mem = (p.mem.write16 (linear (p.seg .ss) (p.reg16 .ebp))
      (p.reg16 .ebx)).write16 (linear (p.seg .ss) (p.reg16 .ebp + 2)) (p.seg .es) := by
    rw [hp]
    rfl
  rw [hstored, hmem, hlow, hhigh, hbx, hes]

/-- Apart from the stack, the pointer is written in one place of the segment. -/
theorem pointerStored_within (hplaced : l.Placed c.loader) :
    let a := linear (c.seg .ds) 0#16
    Mem.Within (a + BitVec.ofNat 32 b.xms) 4
      (c.mem.write16 (a + BitVec.ofNat 32 ((c.reg16 .esp).toNat - 2)) (c.seg .es))
      (pointerStored x b c).mem := by
  intro a
  obtain ⟨hxms, hbuffer, hroom, hlt⟩ := b.bounds hplaced
  rw [pointerStored_mem x b hplaced]
  rw [show linear (c.seg .ds) 0#16 + BitVec.ofNat 32 b.xms + 2#32 =
    linear (c.seg .ds) 0#16 + BitVec.ofNat 32 (b.xms + 2) from Mem.add_ofNat_add _ b.xms 2]
  exact (Mem.splice_within_object _ _ _ le_rfl (by omega) (by omega)).trans
    (Mem.splice_within_object _ _ _ (by omega) (by omega) (by omega))

/-- The store leaves the pushed segment on the stack for the pop. -/
theorem pointerStored_esp (c : Starter) :
    (pointerStored x b c).reg16 .esp = c.reg16 .esp - 2#16 := pointerKnown_reg16 x b c .esp

theorem pointerStored_seg (c : Starter) :
    (pointerStored x b c).seg = Function.update c.seg .es x.entrySeg := pointerKnown_seg x b c

/-- ES is still on top of the stack, for the pointer is stored below it. -/
theorem pointerStored_top (hplaced : l.Placed c.loader) :
    let q := pointerStored x b c
    q.mem.read16 (linear (q.seg .ss) (q.reg16 .esp)) = c.seg .es := by
  obtain ⟨hxms, hbuffer, hroom, hlt⟩ := b.bounds hplaced
  have hss : c.seg .ss = c.seg .ds := hplaced.stack
  have hkept := (pointerStored_within x b hplaced).read16_object
    (e := (c.reg16 .esp).toNat - 2) (.inr (by omega)) (by omega) (by omega)
  dsimp only
  rw [pointerStored_seg, pointerStored_esp, Function.update_of_ne (by decide),
    linear_push16 (by omega), hss, hkept]
  exact Mem.read16_write16_same _ _ _

/-- `acquirePointer` leaves the entry point at SS:BP, and ES as it was. From here the program is
connected to the driver. -/
theorem acquirePointer_connected (hplaced : l.Placed c.loader) :
    Connected x b (acquirePointer x b c) ∧
      Frame (startScratch b (c.reg16 .esp).toNat) c (acquirePointer x b c) := by
  obtain ⟨hxms, hbuffer, hroom, hlt⟩ := b.bounds hplaced
  obtain ⟨q, hq⟩ : ∃ q, q = pointerStored x b c := ⟨_, rfl⟩
  have htop : q.mem.read16 (linear (q.seg .ss) (q.reg16 .esp)) = c.seg .es :=
    hq ▸ pointerStored_top x b hplaced
  have hseg : (popSeg16 .es q).seg = c.seg := by
    have hpop : (popSeg16 .es q).seg = Function.update q.seg .es (c.seg .es) := by
      unfold popSeg16
      dsimp only
      rw [htop]
      rfl
    rw [hpop, hq, pointerStored_seg, Function.update_idem, Function.update_eq_self]
  have hesp : (popSeg16 .es q).reg16 .esp = c.reg16 .esp := by
    have hset : (popSeg16 .es q).reg16 .esp =
        (q.set16 .esp (q.reg16 .esp + 2#16)).reg16 .esp := rfl
    rw [hset, set16_reg16, if_pos rfl, hq, pointerStored_esp, BitVec.sub_add_cancel]
  have hebp : (popSeg16 .es q).reg16 .ebp = BitVec.ofNat 16 b.xms := by
    have hset : (popSeg16 .es q).reg16 .ebp =
        (q.set16 .esp (q.reg16 .esp + 2#16)).reg16 .ebp := rfl
    rw [hset, set16_reg16, if_neg (by decide), hq]
    exact pointerKnown_reg16 x b c .ebp
  have hmem : (popSeg16 .es q).mem = q.mem := rfl
  have hdf : (popSeg16 .es q).df = c.df := by
    have hknown : (popSeg16 .es q).df = (pointerKnown x b c).df := by
      rw [hq]
      rfl
    rw [hknown, pointerKnown_eq]
    rfl
  rw [acquirePointer_eq, ← hq]
  refine ⟨⟨⟨?_, ?_, ?_⟩, hebp, ?_⟩, ⟨hseg, hesp, hdf, fun y hy => ?_⟩⟩
  · show (popSeg16 .es q).seg .ss = (popSeg16 .es q).seg .ds
    rw [hseg]
    exact hplaced.stack
  · show l.buffer + 4096 + 64 ≤ ((popSeg16 .es q).reg16 .esp).toNat
    rw [hesp]
    exact hroom
  · show 16 * ((popSeg16 .es q).seg .ds).toNat + 0x10000 ≤ 0x100000
    rw [hseg]
    exact hplaced.conventional
  · rw [hmem, hseg, hq, pointerStored_mem x b hplaced]
    exact Mem.read32_write16_write16 _ _ _ _
  · rw [hmem, hq, pointerStored_within x b hplaced y ?_]
    · refine Mem.splice_within _ _ _ _ y ?_
      by_contra hnear
      refine hy (.inr ⟨?_, ?_⟩)
      · bv_omega
      · bv_omega
    · by_contra hnear
      refine hy (.inl ⟨?_, ?_⟩)
      · bv_omega
      · bv_omega

/-! ## `Main` -/

/-- The start keeps everything but the direction flag, which it clears, and prints its greeting. -/
theorem greet_frame {S : Nat → Prop} (c : Starter) :
    Frame S (c.setDf false) (greet b c) ∧ (greet b c).env.world = c.env.world ∧
      (greet b c).env.xms = c.env.xms := by
  obtain ⟨d, hd⟩ : ∃ d, d = dosSetBlock (c.setHigh8 .eax 0x4A |>.set16 .ebx 0x1000) := ⟨_, rfl⟩
  have hset : Frame S c d ∧ d.env = c.env := by
    rw [hd]
    unfold dosSetBlock
    split
    · exact ⟨((((Frame.setHigh8 (by decide)).trans (.set16 (by decide))).trans
        (.set16 (by decide))).trans (.set16 (by decide))).trans (.setCarry true), rfl⟩
    · exact ⟨((Frame.setHigh8 (by decide)).trans (.set16 (by decide))).trans (.setCarry false),
        rfl⟩
  have hgreet : greet b c = dosPrint .weclome
      ((((d.setDf false).set16 .eax 3).setHigh8 .eax 9).set16 .edx (b.text .weclome)) := by
    rw [hd]
    rfl
  have hcld : Frame S (c.setDf false) (d.setDf false) :=
    ⟨hset.1.seg, hset.1.esp, (df_setDf d false).trans (df_setDf c false).symm, hset.1.mem⟩
  have hregs : Frame S (c.setDf false) ((((d.setDf false).set16 .eax 3).setHigh8 .eax 9).set16 .edx
      (b.text .weclome)) :=
    ((hcld.trans (.set16 (by decide))).trans (.setHigh8 (by decide))).trans (.set16 (by decide))
  rw [hgreet]
  refine ⟨hregs.trans (dosPrint_frame _ _), ?_, ?_⟩
  · have hworld : (greet b c).env.world = d.env.world := by
      rw [hgreet]
      rfl
    rw [← hgreet, hworld, hset.2]
  · have hxms : (greet b c).env.xms = d.env.xms := by
      rw [hgreet]
      rfl
    rw [← hgreet, hxms, hset.2]

/-- The machine after the look for the driver. -/
def looked (c : Starter) : Starter := int2F x ((greet b c).set16 .eax 0x4300)

/-- The check for a driver: AL is 80h if there is one, and what it was else. -/
theorem looked_eq (c : Starter) : looked x b c =
    if x.installed then ((greet b c).set16 .eax 0x4300).setLow8 .eax 0x80
    else (greet b c).set16 .eax 0x4300 := by
  have hax : ((greet b c).set16 .eax 0x4300).reg16 .eax = 0x4300#16 := by
    rw [set16_reg16, if_pos rfl]
    rfl
  unfold looked int2F
  rw [if_pos hax]

/-- The check prints the greeting and asks the multiplex interrupt. It stores nothing. -/
theorem looked_frame {S : Nat → Prop} (c : Starter) :
    Frame S (c.setDf false) (looked x b c) ∧ (looked x b c).env = (greet b c).env := by
  obtain ⟨hgreet, _⟩ := greet_frame b (S := S) c
  rw [looked_eq]
  split
  · exact ⟨(hgreet.trans (.set16 (by decide))).trans (.setLow8 (by decide)), rfl⟩
  · exact ⟨hgreet.trans (.set16 (by decide)), rfl⟩

/-- AL tells whether there is a driver. When there is none it is 0, from the 4300h it was called
with. -/
theorem looked_low8 (c : Starter) :
    (looked x b c).low8 .eax = if x.installed then 0x80 else 0 := by
  rw [looked_eq]
  split
  · unfold Cpu.setLow8
    rw [low8_eq_reg16, set16_reg16, if_pos rfl]
    exact BitVec.setWidth_append_eq_right
  · rw [low8_eq_reg16, set16_reg16, if_pos rfl]
    decide

/-- The machine with the entry point in place. -/
def connected (c : Starter) : Starter := acquirePointer x b (looked x b c)

theorem looked_placed (hplaced : l.Placed c.loader) : l.Placed (looked x b c).loader := by
  obtain ⟨hlooked, _⟩ := looked_frame x b (S := fun _ => False) c
  refine ⟨?_, ?_, ?_⟩
  · show (looked x b c).seg .ss = (looked x b c).seg .ds
    rw [hlooked.seg]
    exact hplaced.stack
  · show l.buffer + 4096 + 64 ≤ ((looked x b c).reg16 .esp).toNat
    rw [hlooked.esp]
    exact hplaced.room
  · show 16 * ((looked x b c).seg .ds).toNat + 0x10000 ≤ 0x100000
    rw [hlooked.seg]
    exact hplaced.conventional

/-- When the connection is made, two words of memory have been written, the entry point of the
driver, and nothing else but registers has changed. -/
theorem connected_frame (hplaced : l.Placed c.loader) :
    Connected x b (connected x b c) ∧
      Frame (startScratch b (c.reg16 .esp).toNat) (c.setDf false) (connected x b c) ∧
      (connected x b c).env.world = c.env.world ∧ (connected x b c).env.xms = c.env.xms := by
  obtain ⟨hlooked, henv⟩ := looked_frame x b (S := startScratch b (c.reg16 .esp).toNat) c
  obtain ⟨_, hworld, hxms⟩ := greet_frame b (S := fun _ => False) c
  obtain ⟨hconnected, hframe⟩ := acquirePointer_connected x b (looked_placed x b hplaced)
  have hsp : (looked x b c).reg16 .esp = c.reg16 .esp := hlooked.esp
  have hpointer : (connected x b c).env = (looked x b c).env := by
    unfold connected
    rw [acquirePointer_eq]
    have hknown : (popSeg16 .es (pointerStored x b (looked x b c))).env =
        (pointerKnown x b (looked x b c)).env := rfl
    rw [hknown, pointerKnown_eq]
    rfl
  rw [hsp] at hframe
  refine ⟨hconnected, hlooked.trans hframe, ?_, ?_⟩
  · rw [hpointer, henv, hworld]
  · rw [hpointer, henv, hxms]

/-- `Main` performs the sequence of requests, whatever the driver is and answers: the program ends
in an error with the message of the first request refused, or at `ExtAllocSuccess`. -/
theorem main_ends (hplaced : l.Placed c.loader) :
    Ends (connected x b c) (acquire x c.env.xms) (main x b c) := by
  obtain ⟨hconnected, _, _, hxms⟩ := connected_frame x b hplaced
  have hmain : main x b c = if (looked x b c).low8 .eax = 0x80 then
      xmsPresent x b (looked x b c)
      else some (exit (b.text .mnoXMS) .mnoXMS (looked x b c)) := rfl
  have hal := looked_low8 x b c
  rw [hmain]
  unfold acquire
  cases hinstalled : x.installed with
  | false =>
    rw [hinstalled] at hal
    have hne : (looked x b c).low8 .eax ≠ 0x80 := by
      rw [hal]
      decide
    rw [if_neg hne, if_neg Bool.false_ne_true]
    exact .error _ _
  | true =>
    rw [hinstalled] at hal
    obtain ⟨c₂, hc₂⟩ : ∃ c₂, c₂ = (connected x b c).setHigh8 .eax 7 := ⟨_, rfl⟩
    have hregs : After (connected x b c) c.env.xms c₂ := by
      rw [hc₂]
      exact ⟨.setHigh8 (by decide) (by decide), hxms⟩
    have hah : c₂.high8 .eax = 7 := by
      rw [hc₂]
      exact setHigh8_high8 _ _ _
    have hends := Ends.after hregs (queried_ends (hconnected.after hregs) hah)
    rw [hregs.xms, hc₂] at hends
    rw [if_pos rfl] at hal ⊢
    rw [if_pos hal]
    exact hends

end Start

end OS90.Boot
