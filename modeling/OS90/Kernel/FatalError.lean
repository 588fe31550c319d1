import OS90.Kernel.Debug
import OS90.Kernel.DosServer
import OS90.Kernel.V86Entry

/-!
# The last message

`_KernelPutchar` and `FatalError` of `Debug.c`. `FatalError` takes the drivers' links off the trap
chains, has the BIOS set a text mode, prints through `KeLogf` and writes to the screen's memory, and
then returns to whoever called it. It is modelled in two parts, up to the BIOS and after it: the
call of the BIOS does not come back, and the second part is what the function would do if it did.

A format is bytes that end with a zero, and any memory around them (`formatOf`). The characters
`KeLogf` hands to `_KernelPutchar` are output one after the other; the BIOS cannot write to the
format, which is out of reach of real mode.
-/

namespace OS90.Kernel

open OS90.Ia32 OS90.Ia32.Cpu

/-! ## The message -/

/-- A text as a format, with the memory it stands in. -/
def formatOf (text : List BYTE) (around : Format) : Format := fun i =>
  if i < 0 then around i else (text ++ [0])[i.toNat]?.getD (around i)

def fatalMessage : List BYTE :=
  ("The OS/90 kernel has encounterd a fatal error.\n\t" ++
    "Please restart your computer.\n\t" ++
    "Error code: @x").toList.map fun ch => BitVec.ofNat 8 ch.toNat

/-! ## The screen -/

/-- `text_attrib`. -/
def textAttrib : PTR := 0xB8000

/-- `for (WORD i = 0; i<4000;i+=2) text_attrib[i] = 0x17;` -/
def blueRound : WORD × Mem → (WORD × Mem) ⊕ Mem
  | (i, mem) =>
    if i < 4000#16 then .inl (i + 2#16, mem.write8 (textAttrib + i.setWidth 32) 0x17#8)
    else .inr mem

section Calls

variable (refused : Selector → Bool) (layout : Layout) (idt : IDT) (rm : RealMode) (h : QuietPath)
  (err : DWORD)

/-- `_KernelPutchar`. -/
def kernelPutchar (site : CallSite) (ch : BYTE) (m : Machine) : Option Machine :=
  scVirtual86_Int refused layout idt rm h err site.frame site.context 0x10
    (initRegparm site.context (0xE#32 <<< 8 ||| ch.setWidth 32) m)

/-- `FatalError` up to the BIOS, with its local array at the context of `site`. -/
def fatalErrorBegin (site : CallSite) (c : Chains) (m : Machine) : Chains × Machine :=
  (scOnErrorDetatchLinks c,
    virtual86Entered layout site.frame site.context 0x10 (initRegparm site.context 3 m))

/-- The rest of it, with the array of `_KernelPutchar` at the context of `put`. The error code is an
argument that `KeLogf` does not take. -/
def fatalErrorEnd (put : CallSite) (around : Format) (rounds : Nat) (_errorCode : DWORD)
    (m : Machine) : Option Machine := do
  let log ← keLogf (formatOf fatalMessage around) rounds
  let m ← log.output.foldlM (fun m ch => kernelPutchar refused layout idt rm h err put ch m) m
  let mem ← Loop.run blueRound rounds (0, m.mem)
  return { m with mem := mem }

end Calls

/-! ## What the loop comes to -/

/-- The screen with the first `n` of the even bytes written. -/
structure Blue (mem : Mem) (n : Nat) (s : WORD × Mem) : Prop where
  i : s.1 = BitVec.ofNat 16 (2 * n)
  bytes : ∀ x, s.2 x =
    if (x - textAttrib).toNat < 2 * n ∧ (x - textAttrib).toNat % 2 = 0 then 0x17#8 else mem x

/-- The step of the painting: a cell more is blue, and the others are as they were. -/
theorem Blue.round {mem : Mem} {n : Nat} {s : WORD × Mem} (h : Blue mem n s) (hn : n < 2000) :
    ∃ s', blueRound s = .inl s' ∧ Blue mem (n + 1) s' := by
  obtain ⟨i, written⟩ := s
  have hi : i = BitVec.ofNat 16 (2 * n) := h.i
  have hnat : i.toNat = 2 * n := by
    rw [hi, BitVec.toNat_ofNat]
    omega
  have hlt : i < 4000#16 := by
    show i.toNat < 4000
    omega
  refine ⟨_, if_pos hlt, ⟨?_, fun x => ?_⟩⟩
  · show i + 2#16 = _
    rw [hi, Nat.mul_succ, BitVec.ofNat_add]
  · show written.write8 (textAttrib + i.setWidth 32) 0x17#8 x = _
    have hplace : x = textAttrib + i.setWidth 32 ↔ (x - textAttrib).toNat = 2 * n := by
      have hwide : (i.setWidth 32).toNat = 2 * n := by
        rw [BitVec.toNat_setWidth, hnat]
        omega
      constructor
      · intro hx
        have hdist : x - textAttrib = i.setWidth 32 := by
          rw [hx]
          grind
        rw [hdist, hwide]
      · intro hx
        have hdist : x - textAttrib = i.setWidth 32 := BitVec.eq_of_toNat_eq (hx.trans hwide.symm)
        rw [← hdist]
        grind
    have hbytes : written x = _ := h.bytes x
    rw [Mem.write8_apply]
    by_cases hx : x = textAttrib + i.setWidth 32
    · have hdist := hplace.mp hx
      rw [if_pos hx, if_pos ⟨by omega, by omega⟩]
    · have hdist : (x - textAttrib).toNat ≠ 2 * n := fun heq => hx (hplace.mpr heq)
      have hiff : (x - textAttrib).toNat < 2 * n ∧ (x - textAttrib).toNat % 2 = 0 ↔
          (x - textAttrib).toNat < 2 * (n + 1) ∧ (x - textAttrib).toNat % 2 = 0 := by omega
      rw [if_neg hx, hbytes, if_congr hiff rfl rfl]

/-- It ends after two thousand bytes, all of them at even places. -/
theorem blue_leaves (mem : Mem) : ∃ mem', Loop.Leaves blueRound (0, mem) mem' ∧
    ∀ x, mem' x = if (x - textAttrib).toNat < 4000 ∧ (x - textAttrib).toNat % 2 = 0 then 0x17#8
      else mem x := by
  refine Loop.Leaves.of_countup (Blue mem) _ (n := 2000) (fun k s hk h => h.round hk) ?_ ⟨rfl, ?_⟩
  · rintro ⟨i, written⟩ h
    have hi : i = BitVec.ofNat 16 (2 * 2000) := h.i
    have hend : ¬ i < 4000#16 := by
      rw [hi]
      decide
    exact ⟨written, if_neg hend, h.bytes⟩
  · exact fun x => (if_neg fun hx => absurd hx.1 (Nat.not_lt_zero _)).symm

/-- The second character of the message is none that `KeLogf` has a case for, so that nothing is
printed. -/
theorem fatalMessage_silent (around : Format) : ∃ log,
    Loop.Leaves (logRound (formatOf fatalMessage around))
      (loggingStart (formatOf fatalMessage around)) log ∧ log.output = [] := by
  have hfirst : formatOf fatalMessage around 0 = 0x54#8 := rfl
  have hsecond : formatOf fatalMessage around (scanned 0) = 0x68#8 := rfl
  have hstart : formatOf fatalMessage around 0 ≠ 0 := by
    rw [hfirst]
    decide
  have hstop : ¬ Escape (formatOf fatalMessage around (scanned 0)) := by
    rw [hsecond]
    decide
  obtain ⟨log, hleaves, houtput, -⟩ :=
    keLogf_leaves hstart (fun k hk => absurd hk (Nat.not_lt_zero k)) hstop
  exact ⟨log, hleaves, houtput⟩

end OS90.Kernel
