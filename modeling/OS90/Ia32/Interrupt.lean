import OS90.Ia32.Cpu

/-!
# Interrupt delivery and IRET

`deliver` is what the processor does between accepting an interrupt or exception and the first
instruction of its handler, through a present 386 gate into ring 0. There are three origins. From
ring 0 the frame goes on the stack in use. From a lower ring the stack is first switched to the one
of the task state segment, and the old one saved on it. From V86 mode the four data selectors are
saved as well, and nulled.

`iret` is the return from ring 0, which tells the three apart by the frame itself. Delivery and an
`iret` at once resume the interrupted code, whichever of the three it was
(`resumed_iret_deliver`).
-/

namespace OS90.Ia32

/-- A 386 gate to ring 0 code. -/
structure Gate where
  selector : Selector
  offset : Word
  /-- An interrupt gate, which clears the interrupt flag; else a trap gate. -/
  interrupt : Bool
deriving DecidableEq, Repr

namespace Cpu

variable {σ : Type}

/-- EFLAGS in the handler: TF, NT, RF and VM are clear, and IF is behind an interrupt gate. -/
def handlerFlags (g : Gate) (eflags : Word) : Word :=
  let base := eflags &&& ~~~(1#32 <<< 8 ||| 1#32 <<< 14 ||| 1#32 <<< 16 ||| 1#32 <<< 17)
  if g.interrupt then base &&& ~~~(1#32 <<< 9) else base

/-- The stack of ring 0. -/
def switchStack (c : Cpu σ) : Cpu σ := (c.set .esp c.tss.esp0).setSeg .ss c.tss.ss0

/-- The data selectors V86 mode leaves behind. -/
def nullData (c : Cpu σ) : Cpu σ := (((c.setSeg .ds 0).setSeg .es 0).setSeg .fs 0).setSeg .gs 0

/-- The part of the frame that names the old stack and, from V86 mode, the old data selectors.
`c` is the interrupted state. -/
def pushOuter (c : Cpu σ) : Cpu σ :=
  let outer (d : Cpu σ) := (d.push ((c.seg .ss).setWidth 32)).push (c.gpr .esp)
  if vm c.eflags then
    nullData (outer (switchStack c |>.pushSeg .gs |>.pushSeg .fs |>.pushSeg .ds |>.pushSeg .es))
  else if c.cpl ≠ 0 then outer (switchStack c)
  else c

/-- The three dwords every frame ends in. -/
def pushFrame (c : Cpu σ) : Cpu σ :=
  pushOuter c |>.push c.eflags |>.push ((c.seg .cs).setWidth 32) |>.push c.eip

def pushError (err : Option Word) (c : Cpu σ) : Cpu σ :=
  match err with
  | some e => c.push e
  | none => c

/-- The processor's way into a handler. -/
def deliver (g : Gate) (err : Option Word) (c : Cpu σ) : Cpu σ :=
  { (pushError err (pushFrame c)).setSeg .cs g.selector with
    eip := g.offset
    eflags := handlerFlags g c.eflags }

/-- `iret` in ring 0. -/
def iret (c : Cpu σ) : Cpu σ :=
  let d := { c.setSeg .cs ((c.stack 1).setWidth 16) with eip := c.stack 0, eflags := c.stack 2 }
  if vm (c.stack 2) then
    ((((d.set .esp (c.stack 3)).setSeg .ss ((c.stack 4).setWidth 16)).setSeg .es
      ((c.stack 5).setWidth 16)).setSeg .ds ((c.stack 6).setWidth 16)).setSeg .fs
      ((c.stack 7).setWidth 16) |>.setSeg .gs ((c.stack 8).setWidth 16)
  else if (c.stack 1).setWidth 16 &&& (3 : Selector) ≠ 0 then
    (d.set .esp (c.stack 3)).setSeg .ss ((c.stack 4).setWidth 16)
  else d.drop 3

/-! ## The frame -/

section Frame

variable (g : Gate) (c : Cpu σ)

/-- At the top of the frame is the instruction that the interrupt came at. -/
theorem pushFrame_eip : (pushFrame c).stack 0 = c.eip := stack_push_zero _ _

/-- Above it its code segment, in the low half of a dword. -/
theorem pushFrame_cs : (pushFrame c).stack 1 = (c.seg .cs).setWidth 32 := by
  unfold pushFrame
  rw [stack_push_succ _ _ (i := 0) (by decide), stack_push_zero]

/-- Above that the flags before delivery clears any of them. -/
theorem pushFrame_eflags : (pushFrame c).stack 2 = c.eflags := by
  unfold pushFrame
  rw [stack_push_succ _ _ (i := 1) (by decide), stack_push_succ _ _ (i := 0) (by decide),
    stack_push_zero]

/-- What delivery from an outer ring or from V86 mode has pushed first is above these three. Within
ring 0 it is whatever was on the stack. -/
theorem pushFrame_outer {i : Nat} (hi : i + 2 < 2 ^ 28) :
    (pushFrame c).stack (i + 3) = (pushOuter c).stack i := by
  unfold pushFrame
  rw [stack_push_succ _ _ (i := i + 2) hi, stack_push_succ _ _ (i := i + 1) (by omega),
    stack_push_succ _ _ (i := i) (by omega)]

/-- From another ring or from V86 mode, the frame begins with the stack that was interrupted. -/
theorem pushOuter_stack (h : vm c.eflags = true ∨ c.cpl ≠ 0) :
    (pushOuter c).stack 0 = c.gpr .esp ∧ (pushOuter c).stack 1 = (c.seg .ss).setWidth 32 := by
  have houter : ∀ d : Cpu σ, ((d.push ((c.seg .ss).setWidth 32)).push (c.gpr .esp)).stack 0 =
      c.gpr .esp ∧ ((d.push ((c.seg .ss).setWidth 32)).push (c.gpr .esp)).stack 1 =
        (c.seg .ss).setWidth 32 := by
    intro d
    rw [stack_push_succ _ _ (i := 0) (by decide)]
    exact ⟨stack_push_zero _ _, stack_push_zero _ _⟩
  unfold pushOuter
  split
  · exact houter _
  · rename_i hvm
    rw [if_pos (h.resolve_left hvm)]
    exact houter _

/-- The data segments are nulled in registers, and the stack keeps their values from V86 mode. -/
theorem nullData_stack (i : Nat) : (nullData c).stack i = c.stack i := stack_congr rfl rfl i

/-- From V86 mode it has the old data selectors too, above that. -/
theorem pushOuter_data {c : Cpu σ} (h : vm c.eflags = true) :
    (pushOuter c).stack 2 = (c.seg .es).setWidth 32 ∧
      (pushOuter c).stack 3 = (c.seg .ds).setWidth 32 ∧
        (pushOuter c).stack 4 = (c.seg .fs).setWidth 32 ∧
          (pushOuter c).stack 5 = (c.seg .gs).setWidth 32 := by
  unfold pushOuter
  rw [if_pos h]
  dsimp only
  rw [nullData_stack, nullData_stack, nullData_stack, nullData_stack]
  -- first the two dwords of the old stack, then the selectors pushed after each
  rw [stack_push_succ _ _ (i := 1) (by decide), stack_push_succ _ _ (i := 0) (by decide),
    stack_push_succ _ _ (i := 2) (by decide), stack_push_succ _ _ (i := 1) (by decide),
    stack_push_succ _ _ (i := 3) (by decide), stack_push_succ _ _ (i := 2) (by decide),
    stack_push_succ _ _ (i := 4) (by decide), stack_push_succ _ _ (i := 3) (by decide)]
  unfold pushSeg
  rw [stack_push_succ _ _ (i := 0) (by decide), stack_push_succ _ _ (i := 1) (by decide),
    stack_push_succ _ _ (i := 0) (by decide), stack_push_succ _ _ (i := 2) (by decide),
    stack_push_succ _ _ (i := 1) (by decide), stack_push_succ _ _ (i := 0) (by decide)]
  exact ⟨stack_push_zero _ _, stack_push_zero _ _, stack_push_zero _ _, stack_push_zero _ _⟩

/-- Delivery changes no general register but ESP, so that a handler finds those of the program. -/
theorem pushFrame_gpr {r : Reg} (hr : r ≠ .esp) : (pushFrame c).gpr r = c.gpr r := by
  have houter : (pushOuter c).gpr r = c.gpr r := by
    unfold pushOuter
    split
    · simp [nullData, pushSeg, switchStack, hr]
    · split
      · simp [switchStack, hr]
      · rfl
  unfold pushFrame
  rw [push_gpr, if_neg hr, push_gpr, if_neg hr, push_gpr, if_neg hr, houter]

/-- But for V86 mode, selectors other than SS and CS stay as they are. -/
theorem deliver_seg {c : Cpu σ} {s : Seg} (hvm : vm c.eflags = false) (hss : s ≠ .ss)
    (hcs : s ≠ .cs) (err : Option Word) : (deliver g err c).seg s = c.seg s := by
  have houter : (pushOuter c).seg s = c.seg s := by
    unfold pushOuter
    rw [if_neg (by rw [hvm]; decide)]
    split
    · simp [switchStack, hss]
    · rfl
  have hpushed : (pushError err (pushFrame c)).seg = (pushOuter c).seg := by
    cases err <;> rfl
  show ((pushError err (pushFrame c)).setSeg .cs g.selector).seg s = c.seg s
  rw [setSeg_seg, if_neg hcs, hpushed, houter]

/-- The selectors of data. -/
def dataSegs : List Seg := [.ds, .es, .fs, .gs]

/-- From V86 mode they are null in the handler, and SS is that of the task state segment. -/
theorem deliver_data {c : Cpu σ} (hvm : vm c.eflags = true) (err : Option Word) :
    (∀ s ∈ dataSegs, (deliver g err c).seg s = 0) ∧ (deliver g err c).seg .ss = c.tss.ss0 := by
  have houter : (∀ s ∈ dataSegs, (pushOuter c).seg s = 0) ∧ (pushOuter c).seg .ss = c.tss.ss0 := by
    unfold pushOuter
    rw [if_pos hvm]
    refine ⟨fun s hs => ?_, rfl⟩
    cases s with
    | cs => exact absurd hs (by decide)
    | ss => exact absurd hs (by decide)
    | _ => rfl
  have hframe : ∀ s, s ≠ .cs → (deliver g err c).seg s = (pushOuter c).seg s := by
    intro s hs
    have hpushed : (pushError err (pushFrame c)).seg = (pushOuter c).seg := by
      cases err <;> rfl
    show ((pushError err (pushFrame c)).setSeg .cs g.selector).seg s = _
    rw [setSeg_seg, if_neg hs, hpushed]
  refine ⟨fun s hs => ?_, (hframe .ss (by decide)).trans houter.2⟩
  have hcs : s ≠ .cs := by
    rintro rfl
    exact absurd hs (by decide)
  exact (hframe s hcs).trans (houter.1 s hs)

/-- A null DS stays null through delivery, wherever it is taken from: out of V86 mode, delivery
itself nulls it. -/
theorem deliver_null {c : Cpu σ} (hds : c.seg .ds = 0) (err : Option Word) :
    (deliver g err c).seg .ds = 0 := by
  cases hvm : vm c.eflags with
  | true => exact (deliver_data g hvm err).1 .ds (by decide)
  | false => exact (deliver_seg g hvm (by decide) (by decide) err).trans hds

/-- A vector without an error code leaves the frame at the top of the stack. -/
theorem deliver_stack_none (i : Nat) : (deliver g none c).stack i = (pushFrame c).stack i := rfl

/-- One with a code has the code at the top and the frame from the next word on. This one word is
what a stub has to allow for. -/
theorem deliver_stack_some (e : Word) {i : Nat} (hi : i < 2 ^ 28) :
    (deliver g (some e) c).stack (i + 1) = (pushFrame c).stack i :=
  stack_push_succ (pushFrame c) e hi

@[simp] theorem deliver_eflags (err : Option Word) :
    (deliver g err c).eflags = handlerFlags g c.eflags := rfl

@[simp] theorem deliver_eip (err : Option Word) : (deliver g err c).eip = g.offset := rfl

theorem pushOuter_tss : (pushOuter c).tss = c.tss := by
  unfold pushOuter
  split
  · rfl
  · split <;> rfl

theorem pushOuter_env : (pushOuter c).env = c.env := by
  unfold pushOuter
  split
  · rfl
  · split <;> rfl

@[simp] theorem deliver_tss (err : Option Word) : (deliver g err c).tss = c.tss := by
  cases err <;> exact pushOuter_tss c

@[simp] theorem deliver_env (err : Option Word) : (deliver g err c).env = c.env := by
  cases err <;> exact pushOuter_env c

/-- From V86 mode the frame is nine dwords on the stack of the task state segment. -/
theorem pushFrame_pushed {c : Cpu σ} (hvm : vm c.eflags = true) :
    Pushed 9 (switchStack c) (pushFrame c) := by
  have hdata := (Pushed.refl (switchStack c)).push ((c.seg .gs).setWidth 32)
    |>.push ((c.seg .fs).setWidth 32) |>.push ((c.seg .ds).setWidth 32)
    |>.push ((c.seg .es).setWidth 32)
  have houter := hdata.push ((c.seg .ss).setWidth 32) |>.push (c.gpr .esp)
  have hnull : Pushed 6 (switchStack c) (pushOuter c) := by
    unfold pushOuter
    rw [if_pos hvm]
    exact houter.congr rfl rfl
  exact hnull.push c.eflags |>.push ((c.seg .cs).setWidth 32)
    |>.push c.eip

/-- With its error code the frame from V86 mode is ten dwords. -/
theorem deliver_pushed {c : Cpu σ} (hvm : vm c.eflags = true) (e : Word) :
    Pushed 10 (switchStack c) (deliver g (some e) c) :=
  ((pushFrame_pushed hvm).push e).congr rfl rfl

/-- A change of stack takes ESP from the TSS, wherever the interrupted stack was. -/
theorem switchStack_esp : (switchStack c).gpr .esp = c.tss.esp0 := by
  simp [switchStack]

/-- An exception with a code, out of V86 mode, pushes ten dwords on the stack of the TSS. -/
theorem deliver_vm_esp {c : Cpu σ} (hvm : vm c.eflags = true) (e : Word) :
    (deliver g (some e) c).gpr .esp = c.tss.esp0 - 40#32 := by
  rw [(deliver_pushed g hvm e).esp, switchStack_esp]

/-- Nothing but those forty bytes is written, whatever the vector and the gate are. -/
theorem deliver_within {c : Cpu σ} (hvm : vm c.eflags = true) (e : Word) :
    Mem.Within (c.tss.esp0 - 40#32) 40 c.mem (deliver g (some e) c).mem := by
  have hmem := (deliver_pushed g hvm e).mem
  rw [deliver_vm_esp g hvm e] at hmem
  exact hmem

end Frame

/-! ## Returning -/

@[simp] theorem iret_eflags (c : Cpu σ) : (iret c).eflags = c.stack 2 := by
  unfold iret
  split
  · rfl
  · split <;> rfl

@[simp] theorem iret_eip (c : Cpu σ) : (iret c).eip = c.stack 0 := by
  unfold iret
  split
  · rfl
  · split <;> rfl

@[simp] theorem iret_tss (c : Cpu σ) : (iret c).tss = c.tss := by
  unfold iret
  split
  · rfl
  · split <;> rfl

@[simp] theorem iret_env (c : Cpu σ) : (iret c).env = c.env := by
  unfold iret
  split
  · rfl
  · split <;> rfl

@[simp] theorem iret_mem (c : Cpu σ) : (iret c).mem = c.mem := by
  unfold iret
  split
  · rfl
  · split <;> rfl

/-- To return changes no general register but ESP. -/
theorem iret_gpr (c : Cpu σ) {r : Reg} (hr : r ≠ .esp) : (iret c).gpr r = c.gpr r := by
  unfold iret
  split
  · simp [hr]
  · split
    · simp [hr]
    · simp [drop, hr]

/-- To return to V86 mode takes the stack pointer and all selectors from the frame. -/
theorem iret_vm {c : Cpu σ} (h : vm (c.stack 2) = true) :
    (iret c).gpr .esp = c.stack 3 ∧ ∀ s, (iret c).seg s = match s with
      | .cs => (c.stack 1).setWidth 16
      | .ss => (c.stack 4).setWidth 16
      | .es => (c.stack 5).setWidth 16
      | .ds => (c.stack 6).setWidth 16
      | .fs => (c.stack 7).setWidth 16
      | .gs => (c.stack 8).setWidth 16 := by
  unfold iret
  rw [if_pos h]
  refine ⟨by simp, fun s => ?_⟩
  cases s <;> simp

/-- To return to a lower ring takes the stack from the frame, and the data selectors stay. -/
theorem iret_outer {c : Cpu σ} (hvm : vm (c.stack 2) = false)
    (hring : (c.stack 1).setWidth 16 &&& (3 : Selector) ≠ 0) :
    (iret c).gpr .esp = c.stack 3 ∧ ∀ s, (iret c).seg s =
      if s = .ss then (c.stack 4).setWidth 16
      else if s = .cs then (c.stack 1).setWidth 16 else c.seg s := by
  unfold iret
  rw [if_neg (by rw [hvm]; decide), if_pos hring]
  refine ⟨by simp, fun s => ?_⟩
  cases s <;> simp

/-- To return within ring 0 drops the three words of the frame. -/
theorem iret_same {c : Cpu σ} (hvm : vm (c.stack 2) = false)
    (hring : (c.stack 1).setWidth 16 &&& (3 : Selector) = 0) :
    (iret c).gpr .esp = c.gpr .esp + 12#32 ∧ ∀ s, (iret c).seg s =
      if s = .cs then (c.stack 1).setWidth 16 else c.seg s := by
  unfold iret
  rw [if_neg (by rw [hvm]; decide), if_neg (not_not.mpr hring)]
  refine ⟨by simp [drop], fun s => ?_⟩
  cases s <;> simp [drop]

/-! ## There and back -/

/-- `d` goes on where and as `c` was. -/
structure Resumed (c d : Cpu σ) : Prop where
  gpr : d.gpr = c.gpr
  seg : d.seg = c.seg
  eflags : d.eflags = c.eflags
  eip : d.eip = c.eip

/-- `iret` looks at the general registers, the selectors and nine dwords of stack; to V86 mode, not
at the selectors. -/
theorem resumed_iret {c d : Cpu σ} (hstack : ∀ i < 9, d.stack i = c.stack i)
    (hgpr : d.gpr = c.gpr) (hseg : vm (c.stack 2) = true ∨ d.seg = c.seg) :
    Resumed (iret c) (iret d) := by
  have hflags := hstack 2 (by decide)
  have hcs := hstack 1 (by decide)
  have hback : (iret d).gpr .esp = (iret c).gpr .esp ∧ ∀ s, (iret d).seg s = (iret c).seg s := by
    cases hvm : vm (c.stack 2) with
    | true =>
      obtain ⟨hesp, hsegs⟩ := iret_vm hvm
      obtain ⟨hesp', hsegs'⟩ := iret_vm (c := d) (by rw [hflags, hvm])
      refine ⟨by rw [hesp, hesp', hstack 3 (by decide)], fun s => ?_⟩
      rw [hsegs, hsegs']
      cases s <;> simp (disch := decide) only [hstack]
    | false =>
      obtain hseg := hseg.resolve_left (by rw [hvm]; decide)
      by_cases hring : (c.stack 1).setWidth 16 &&& (3 : Selector) = 0
      · obtain ⟨hesp, hsegs⟩ := iret_same hvm hring
        obtain ⟨hesp', hsegs'⟩ := iret_same (c := d) (by rw [hflags, hvm]) (by rw [hcs, hring])
        refine ⟨by rw [hesp, hesp', hgpr], fun s => ?_⟩
        rw [hsegs, hsegs', hcs, hseg]
      · obtain ⟨hesp, hsegs⟩ := iret_outer hvm hring
        obtain ⟨hesp', hsegs'⟩ := iret_outer (c := d) (by rw [hflags, hvm])
          (by rw [hcs]; exact hring)
        refine ⟨by rw [hesp, hesp', hstack 3 (by decide)], fun s => ?_⟩
        rw [hsegs, hsegs', hcs, hseg, hstack 4 (by decide)]
  refine ⟨?_, funext hback.2, ?_, ?_⟩
  · funext r
    by_cases hr : r = .esp
    · rw [hr]
      exact hback.1
    · rw [iret_gpr _ hr, iret_gpr _ hr, hgpr]
  · rw [iret_eflags, iret_eflags, hflags]
  · rw [iret_eip, iret_eip, hstack 0 (by decide)]

/-- A resumption of a resumption is one. -/
theorem Resumed.trans {c d e : Cpu σ} (h₁ : Resumed c d) (h₂ : Resumed d e) : Resumed c e :=
  ⟨h₂.gpr.trans h₁.gpr, h₂.seg.trans h₁.seg, h₂.eflags.trans h₁.eflags, h₂.eip.trans h₁.eip⟩

section Resume

variable (g : Gate) {c : Cpu σ}

/-- A selector that is pushed as a dword is popped as it was. -/
theorem setWidth_selector (s : Selector) : (s.setWidth 32).setWidth 16 = s := by
  simp

/-- The flags that `iret` gets back are those of the program and not those of the handler. -/
theorem deliver_eflags_saved : (deliver g none c).stack 2 = c.eflags := by
  rw [deliver_stack_none, pushFrame_eflags]

/-- So is the code segment. -/
theorem deliver_cs_saved : ((deliver g none c).stack 1).setWidth 16 = c.seg .cs := by
  rw [deliver_stack_none, pushFrame_cs, setWidth_selector]

/-- `iret` at the frame of an interrupt from V86 mode brings back the stack pointer and all
segments, those that delivery has nulled among them. -/
theorem iret_deliver_vm (hvm : vm c.eflags = true) :
    (iret (deliver g none c)).gpr .esp = c.gpr .esp ∧
      ∀ s, (iret (deliver g none c)).seg s = c.seg s := by
  obtain ⟨hesp, hss⟩ := pushOuter_stack c (Or.inl hvm)
  obtain ⟨hes, hds, hfs, hgs⟩ := pushOuter_data hvm
  obtain ⟨hback, hseg⟩ := iret_vm (c := deliver g none c) (by rw [deliver_eflags_saved, hvm])
  simp only [deliver_stack_none] at hback hseg
  refine ⟨?_, fun s => (hseg s).trans ?_⟩
  · rw [hback, pushFrame_outer _ (by decide), hesp]
  · cases s with
    | cs => exact deliver_cs_saved g
    | ss => simp only [pushFrame_outer c (i := 1) (by decide), hss, setWidth_selector]
    | es => simp only [pushFrame_outer c (i := 2) (by decide), hes, setWidth_selector]
    | ds => simp only [pushFrame_outer c (i := 3) (by decide), hds, setWidth_selector]
    | fs => simp only [pushFrame_outer c (i := 4) (by decide), hfs, setWidth_selector]
    | gs => simp only [pushFrame_outer c (i := 5) (by decide), hgs, setWidth_selector]

/-- Outside V86 mode the privilege level is that of the code segment. -/
theorem cpl_of_not_vm (hvm : vm c.eflags = false) : c.cpl = c.seg .cs &&& 3 := by
  unfold cpl
  rw [hvm]
  rfl

/-- `iret` at the frame of an interrupt from an outer ring. The data segments have not been touched,
and ESP and SS are in the frame. -/
theorem iret_deliver_outer (hvm : vm c.eflags = false) (hring : c.cpl ≠ 0) :
    (iret (deliver g none c)).gpr .esp = c.gpr .esp ∧
      ∀ s, (iret (deliver g none c)).seg s = c.seg s := by
  obtain ⟨hesp, hss⟩ := pushOuter_stack c (Or.inr hring)
  obtain ⟨hback, hseg⟩ := iret_outer (c := deliver g none c) (by rw [deliver_eflags_saved, hvm])
    (by rw [deliver_cs_saved, ← cpl_of_not_vm hvm]; exact hring)
  refine ⟨?_, fun s => (hseg s).trans ?_⟩
  · rw [hback, deliver_stack_none, pushFrame_outer _ (by decide), hesp]
  · split
    · rename_i hs
      rw [hs, deliver_stack_none, pushFrame_outer c (i := 1) (by decide), hss, setWidth_selector]
    · rename_i hs
      split
      · rename_i hcs
        rw [hcs, deliver_cs_saved]
      · rename_i hcs
        exact deliver_seg g hvm hs hcs none

/-- `iret` at the frame of an interrupt within ring 0, where no stack is switched: ESP is where it
was once the three words are popped. -/
theorem iret_deliver_same (hvm : vm c.eflags = false) (hring : c.cpl = 0) :
    (iret (deliver g none c)).gpr .esp = c.gpr .esp ∧
      ∀ s, (iret (deliver g none c)).seg s = c.seg s := by
  obtain ⟨hback, hseg⟩ := iret_same (c := deliver g none c) (by rw [deliver_eflags_saved, hvm])
    (by rw [deliver_cs_saved, ← cpl_of_not_vm hvm]; exact hring)
  have houter : pushOuter c = c := by
    unfold pushOuter
    rw [if_neg (by rw [hvm]; decide), if_neg (not_not.mpr hring)]
  have hframe : Pushed 3 (pushOuter c) (pushFrame c) :=
    (Pushed.refl _).push c.eflags |>.push ((c.seg .cs).setWidth 32) |>.push c.eip
  have hesp : (deliver g none c).gpr .esp = c.gpr .esp - 12#32 := by
    have hpushed := hframe.esp
    rw [houter] at hpushed
    exact hpushed
  refine ⟨?_, fun s => (hseg s).trans ?_⟩
  · rw [hback, hesp, BitVec.sub_add_cancel]
  · split
    · rename_i hs
      rw [hs, deliver_cs_saved]
    · rename_i hs
      show ((pushFrame c).setSeg .cs g.selector).seg s = c.seg s
      rw [setSeg_seg, if_neg hs]
      exact congrFun (congrArg Cpu.seg houter) s

/-- From whatever it interrupts, delivery and an `iret` at once change nothing that the interrupted
code can see in its registers. -/
theorem resumed_iret_deliver (c : Cpu σ) : Resumed c (iret (deliver g none c)) := by
  have hback : (iret (deliver g none c)).gpr .esp = c.gpr .esp ∧
      ∀ s, (iret (deliver g none c)).seg s = c.seg s := by
    cases hvm : vm c.eflags with
    | true => exact iret_deliver_vm g hvm
    | false =>
      by_cases hring : c.cpl = 0
      · exact iret_deliver_same g hvm hring
      · exact iret_deliver_outer g hvm hring
  refine ⟨?_, funext hback.2, ?_, ?_⟩
  · funext r
    by_cases hr : r = .esp
    · rw [hr]
      exact hback.1
    · rw [iret_gpr _ hr]
      exact pushFrame_gpr c hr
  · rw [iret_eflags, deliver_eflags_saved]
  · rw [iret_eip, deliver_stack_none, pushFrame_eip]

end Resume

end Cpu

end OS90.Ia32
