import OS90.Device.Pit8254
import OS90.Kernel.Dpmi
import OS90.Kernel.Ia32
import OS90.Laws.EndOfInterrupt

/-!
# The interrupt controllers and the timer, programmed

What the writes to ports of the two initialisations leave in the chips, from any state of them.

The kernel does not mask interrupts of its own: `InitIA32` counts on the lines that DOS does not use
being masked already. `MaskLaw` is that reprogramming the controllers keeps their masks, beside
leaving them ready, with their vectors at `IRQ_BASE` and the cascade on line 2.

All of it holds but the masks. ICW1 clears a controller's mask register, and none of the writes
after it is made outside an initialisation sequence, so that both masks end up zero whatever they
were (`initPics_reprogrammed`).

`InitScheduler` gives counter 0 of the timer its count, and IRQ 0 comes when the counter's output
rises. The three bytes go out one at a time, with clocks and other writes between them, and the
counter may have been anything before, in the middle of a count included. `initScheduler_timer` is
that it rises every 1200 clocks from then on, and that neither the other two counters, nor the
interrupt controllers, nor the table of interrupt lines notice.
-/

namespace OS90.Laws

open OS90.Device OS90.Device.Pit8254 OS90.Ia32 OS90.Kernel

/-! ## The interrupt masks -/

/-- The controllers are ready, send the kernel's vectors, and are chained on line 2. -/
structure Reprogrammed (p : PicPair) : Prop where
  master : p.master.phase = .ready
  slave : p.slave.phase = .ready
  masterBase : p.master.base = IRQ_BASE
  slaveBase : p.slave.base = IRQ_BASE + 8
  vectors : ∀ irq, p.vector irq = IRQ_BASE + BitVec.ofNat 8 irq.val
  /-- The master has a bit for the line of its slave, and the slave the number of the line. -/
  cascade : p.master.icw3 = 1#8 <<< 2 ∧ p.slave.icw3 = 2

/-- The masks of two pairs of controllers are the same. -/
structure SameMasks (p q : PicPair) : Prop where
  master : q.master.mask = p.master.mask
  slave : q.slave.mask = p.slave.mask

def MaskLaw (s : System) : Prop :=
  ∃ s', initPics.run s = some ((), s') ∧ Reprogrammed s'.pics ∧ SameMasks s.pics s'.pics

/-- From any two controllers, in whatever phase: `InitIA32` reprograms both, and leaves no line
masked. -/
theorem initPics_reprogrammed (s : System) :
    ∃ s', initPics.run s = some ((), s') ∧ Reprogrammed s'.pics ∧
      s'.pics.master.mask = 0 ∧ s'.pics.slave.mask = 0 := by
  obtain ⟨s', hrun, hmaster, hslave⟩ := initPics_run s
  have hvectors : ∀ irq, s'.pics.vector irq = IRQ_BASE + BitVec.ofNat 8 irq.val := by
    intro irq
    rw [← vector_remappedPics s.pics irq]
    unfold PicPair.vector
    rw [hmaster, hslave]
    rfl
  refine ⟨s', hrun, ?_, ?_, ?_⟩
  · constructor
    · rw [hmaster]
      rfl
    · rw [hslave]
      rfl
    · rw [hmaster]
      rfl
    · rw [hslave]
      rfl
    · exact hvectors
    · rw [hmaster, hslave]
      exact ⟨rfl, rfl⟩
  · rw [hmaster]
    rfl
  · rw [hslave]
    rfl

/-- If the masks were kept, they were zero before, as they are zero afterwards. -/
theorem MaskLaw.zero {s : System} (h : MaskLaw s) :
    s.pics.master.mask = 0 ∧ s.pics.slave.mask = 0 := by
  obtain ⟨s', hrun, _, hmaster, hslave⟩ := initPics_reprogrammed s
  obtain ⟨t, ht, _, hmasks⟩ := h
  rw [hrun] at ht
  cases ht
  exact ⟨hmasks.master.symm.trans hmaster, hmasks.slave.symm.trans hslave⟩

/-- For every state of the two controllers: reprogramming keeps the masks exactly when no line was
masked. It is the first initialisation word that clears them, and nothing writes them afterwards. -/
theorem maskLaw_iff (s : System) :
    MaskLaw s ↔ s.pics.master.mask = 0 ∧ s.pics.slave.mask = 0 := by
  constructor
  · exact MaskLaw.zero
  · rintro ⟨hm, hs⟩
    obtain ⟨s', hrun, hreprogrammed, hmaster, hslave⟩ := initPics_reprogrammed s
    refine ⟨s', hrun, hreprogrammed, ?_, ?_⟩
    · rw [hmaster, hm]
    · rw [hslave, hs]

/-- The controllers as DOS has set them up. Not masked are the timer, the keyboard, the slave and
the floppy disk on the master, and the clock and the hard disk on the slave. -/
def dosMasks : System :=
  let s := System.powerUp
  { s with pics := ⟨{ s.pics.master with mask := 0xB8 }, { s.pics.slave with mask := 0xBE }⟩ }

/-- With the masks that DOS leaves, all lines of both chips are unmasked by the initialisation. -/
theorem maskLaw_dosMasks : ¬ MaskLaw dosMasks := by
  intro hlaw
  have hzero := hlaw.zero.1
  exact absurd hzero (by decide)

/-! ## The timer -/

/-- The writes to ports between two states, as the timer sees them. -/
def portWrites (s t : System) : List PitEvent := (written s t).map fun w => .write w.1 w.2

section Programming

variable (other : Counter → Counter) (p : Pit8254)

/-- The control word. -/
def controlWord : PitEvent := .write 0x43 0x36

/-- The two bytes of the count. -/
def lowCount : PitEvent := .write 0x40 0xB0

def highCount : PitEvent := .write 0x40 0x04

/-- The control word selects mode 3 for counter 0 and stops it until a count is there. -/
theorem step_controlWord : step other p controlWord 0 = Counter.program 0x36#8 := by
  show Function.update p 0 (Counter.program 0x36#8) 0 = _
  exact Function.update_self _ _ _

/-- The low byte of the count is held until the high one comes. -/
theorem step_lowCount : step other p lowCount 0 = (p 0).writeCount 0xB0#8 :=
  Function.update_self 0 _ p

/-- The high byte completes the count. -/
theorem step_highCount : step other p highCount 0 = (p 0).writeCount 0x04#8 :=
  Function.update_self 0 _ p

/-- None of the three writes is for another counter, so that those count on undisturbed. -/
theorem step_of_ne {e : PitEvent} (he : e = controlWord ∨ e = lowCount ∨ e = highCount) {i : Fin 3}
    (hi : i ≠ 0) : step other p e i = p i := by
  rcases he with rfl | rfl | rfl
  · exact Function.update_of_ne hi _ p
  · exact Function.update_of_ne hi _ p
  · exact Function.update_of_ne hi _ p

variable {l₀ l₁ l₂ l₃ : List PitEvent}

/-- Whatever comes between the three writes, the counter has its count after them. The premise is
that what comes between spares counter 0. -/
theorem programmed (h₁ : ∀ e ∈ l₁, Spares e) (h₂ : ∀ e ∈ l₂, Spares e) :
    Waiting 1200
      (run other p (l₀ ++ controlWord :: (l₁ ++ lowCount :: (l₂ ++ [highCount]))) 0) := by
  obtain ⟨p₀, hp₀⟩ : ∃ p₀, p₀ = step other (run other p l₀) controlWord := ⟨_, rfl⟩
  have hcontrol : p₀ 0 = Counter.program 0x36#8 := by
    rw [hp₀]
    exact step_controlWord other _
  have hfirst : run other p₀ l₁ 0 = p₀ 0 :=
    run_unwritten other (by rw [hcontrol]; rfl) (by rw [hcontrol]; rfl) h₁
  obtain ⟨p₁, hp₁⟩ : ∃ p₁, p₁ = step other (run other p₀ l₁) lowCount := ⟨_, rfl⟩
  have hlow : p₁ 0 = (Counter.program 0x36#8).writeCount 0xB0#8 := by
    rw [hp₁, step_lowCount, hfirst, hcontrol]
  have hsecond : run other p₁ l₂ 0 = p₁ 0 :=
    run_unwritten other (by rw [hlow]; rfl) (by rw [hlow]; rfl) h₂
  have hcounter : run other p (l₀ ++ controlWord :: (l₁ ++ lowCount :: (l₂ ++ [highCount]))) 0 =
      ((Counter.program 0x36#8).writeCount 0xB0#8).writeCount 0x04#8 := by
    rw [run_append, run_cons, ← hp₀, run_append, run_cons, ← hp₁, run_append, run_cons,
      ← hlow, ← hsecond]
    exact step_highCount other _
  rw [hcounter]
  exact ⟨rfl, rfl, rfl, rfl⟩

/-- Another counter runs through the timeline as if the three writes were not in it. -/
theorem run_of_ne {i : Fin 3} (hi : i ≠ 0) :
    run other p (l₀ ++ controlWord :: (l₁ ++ lowCount :: (l₂ ++ highCount :: l₃))) i =
      run other p (l₀ ++ (l₁ ++ (l₂ ++ l₃))) i := by
  rw [run_append, run_append, run_cons, run_congr (step_of_ne other _ (.inl rfl) hi), run_append,
    run_append, run_cons, run_congr (step_of_ne other _ (.inr (.inl rfl)) hi), run_append,
    run_append, run_cons, run_congr (step_of_ne other _ (.inr (.inr rfl)) hi)]

end Programming

/-- For every state of the kernel and of the timer, and every timeline around the three writes: the
timer rises once in every 1200 clocks after the one that loads its count, and all else is as it
would have been, but the gates that reflect interrupts. The premise `Spares` is that the timeline
has no other write for counter 0, and it carries the count of rises. The rate of the clock is not
spoken of. -/
theorem initScheduler_timer (other : Counter → Counter) (p : Pit8254) (s : System) (idt : IDT)
    (l₀ l₁ l₂ l₃ : List PitEvent) (hspares : ∀ e ∈ l₀ ++ (l₁ ++ (l₂ ++ l₃)), Spares e) :
    ∃ rounds s' w₁ w₂ w₃, (initScheduler rounds idt).run s = some (reflected idt 207, s') ∧
      portWrites s s' = [w₁, w₂, w₃] ∧
      rises other (run other p (l₀ ++ w₁ :: (l₁ ++ w₂ :: (l₂ ++ [w₃])))) l₃ =
        (clocks l₃ - 1) / 1200 ∧
      (∀ i ≠ 0, run other p (l₀ ++ w₁ :: (l₁ ++ w₂ :: (l₂ ++ w₃ :: l₃))) i =
        run other p (l₀ ++ (l₁ ++ (l₂ ++ l₃))) i) ∧
      s' = { s with io := s'.io } := by
  obtain ⟨rounds, hgates⟩ := initDPMI_ReflectionHandlers_run idt
  simp only [List.forall_mem_append] at hspares
  obtain ⟨-, h₁, h₂, h₃⟩ := hspares
  refine ⟨rounds, { s with
    io := s.io ++ [(0x43#16, 0x36#8), (0x40#16, 0xB0#8), (0x40#16, 0x04#8)] },
    controlWord, lowCount, highCount, ?_, ?_, ?_, ?_, rfl⟩
  · unfold initScheduler
    rw [StateT.run_bind, configurePIT_run, hgates, Option.bind_eq_bind, Option.bind_some]
    rfl
  · unfold portWrites written
    rw [List.drop_left]
    rfl
  · exact rises_waiting other (by decide) (programmed other p h₁ h₂) h₃
  · exact fun i hi => run_of_ne other p hi

/-- A timer in the middle of a count, with a clock before each of the writes, rises on the last of
1201 clocks. -/
theorem initScheduler_timer_once : ∃ rounds s' w₁ w₂ w₃,
    (initScheduler rounds IDT.zero).run .powerUp = some (reflected IDT.zero 207, s') ∧
    portWrites .powerUp s' = [w₁, w₂, w₃] ∧
    rises id (run id (fun _ => (Counter.program 0x36#8).writeCount 1#8)
      ([.clock] ++ w₁ :: ([.clock] ++ w₂ :: ([.clock] ++ [w₃])))) (List.replicate 1201 .clock) =
        1 := by
  have hspares : ∀ e ∈ [PitEvent.clock] ++ ([.clock] ++ ([.clock] ++ List.replicate 1201 .clock)),
      Spares e := by
    intro e he
    have hclock : e = .clock := by
      simp only [List.mem_append, List.mem_singleton, List.mem_replicate] at he
      rcases he with he | he | he | ⟨-, he⟩ <;> exact he
    rw [hclock]
    trivial
  obtain ⟨rounds, s', w₁, w₂, w₃, hrun, hwrites, hrises, -⟩ := initScheduler_timer id
    (fun _ => (Counter.program 0x36#8).writeCount 1#8) .powerUp IDT.zero [.clock] [.clock] [.clock]
    (List.replicate 1201 .clock) hspares
  refine ⟨rounds, s', w₁, w₂, w₃, hrun, hwrites, hrises.trans ?_⟩
  have hclocks : clocks (List.replicate 1201 .clock) = 1201 := List.count_replicate_self
  rw [hclocks]

end OS90.Laws
