import OS90.Ia32.Bytes
import OS90.Kernel.Type
import OS90.Lib.Loop

/-!
# Printing

`Uint32ToString` and `KeLogf` of `Debug.c`. Both index with unsigned numbers of their own width and
go past both ends of what they are given, so that the places they read and write are kept with
what they compute: `written` are the indices stored to, and `reads` the indices of the format that
were looked at. A format is the bytes of memory around it, by index from its first byte.

`va_arg` takes arguments of the sizes C says, and what is in them plays no part in what is modelled.
The buffer and the format are anywhere in memory, since the functions do not know where they end.

What the two functions should do is not said here. The laws compare what is written and read with
the buffer and with the text up to its zero byte, and have their own definitions for that.
-/

namespace OS90.Kernel

open OS90.Ia32

/-! ## Decimal numbers -/

def MAX_STR_LENGTH_OF_UINT32 : Nat := 10

/-- The variables of `Uint32ToString` that change, with the memory it writes to. -/
structure Printing where
  mem : Mem
  digitDivisor : DWORD
  buffOff : DWORD
  written : List DWORD

/-- `C_memset(obuffer, '\0', MAX_STR_LENGTH_OF_UINT32)`, and the initial values. -/
def printingStart (obuffer : PTR) (m : Mem) : Printing where
  mem := m.fill obuffer MAX_STR_LENGTH_OF_UINT32 0
  digitDivisor := 1
  buffOff := BitVec.ofNat 32 (MAX_STR_LENGTH_OF_UINT32 - 2)
  written := (List.range MAX_STR_LENGTH_OF_UINT32).map (BitVec.ofNat 32)

/-- A round of the loop: one digit, and the next place to the left. -/
def digitRound (value : DWORD) (obuffer : PTR) (p : Printing) : Printing :=
  let digit := value / p.digitDivisor % 10#32
  { mem := p.mem.write8 (obuffer + p.buffOff) ((0x30#32 + digit).setWidth 8)
    digitDivisor := p.digitDivisor * 10#32
    buffOff := p.buffOff - 1#32
    written := p.written ++ [p.buffOff] }

/-- So many rounds. -/
def digitRounds (value : DWORD) (obuffer : PTR) : Nat → Printing → Printing
  | 0, p => p
  | n + 1, p => digitRound value obuffer (digitRounds value obuffer n p)

/-- `Uint32ToString`. -/
def uint32ToString (value : DWORD) (obuffer : PTR) (m : Mem) : Printing :=
  digitRounds value obuffer MAX_STR_LENGTH_OF_UINT32 (printingStart obuffer m)

section Digits

variable (value : DWORD) (obuffer : PTR) (m : Mem)

/-- The character of the digit worth `10 ^ k`. -/
def digitChar (k : Nat) : BYTE := BitVec.ofNat 8 (0x30 + value.toNat / 10 ^ k % 10)

/-- The state after `n` rounds. The digits go from index 8 down, and the tenth to the byte before
the buffer. -/
structure Printed (n : Nat) (p : Printing) : Prop where
  divisor : p.digitDivisor = BitVec.ofNat 32 (10 ^ n)
  off : p.buffOff = 8#32 - BitVec.ofNat 32 n
  written : p.written = (List.range MAX_STR_LENGTH_OF_UINT32).map (BitVec.ofNat 32) ++
    (List.range n).map fun k => 8#32 - BitVec.ofNat 32 k
  digits : ∀ k < n, p.mem (obuffer + (8#32 - BitVec.ofNat 32 k)) = digitChar value k
  nul : p.mem (obuffer + 9#32) = 0

/-- Before the first digit nothing has been printed, and the value is whole. -/
theorem printed_start : Printed value obuffer 0 (printingStart obuffer m) := by
  refine ⟨rfl, rfl, ?_, fun k hk => absurd hk (Nat.not_lt_zero k), ?_⟩
  · rw [List.range_zero, List.map_nil, List.append_nil]
    rfl
  · have hbyte : (m.fill (obuffer + BitVec.ofNat 32 0) MAX_STR_LENGTH_OF_UINT32 0).byte obuffer 9 =
        0 := by
      rw [Mem.byte_fill 0 (by decide) (by decide) (by decide), if_pos (by decide)]
    rw [BitVec.add_zero] at hbyte
    exact hbyte

variable {value obuffer}

/-- The character that a round stores is the digit of its place, offset by that of zero. -/
theorem digitChar_eq {n : Nat} (hn : n < 10) :
    (0x30#32 + value / BitVec.ofNat 32 (10 ^ n) % 10#32).setWidth 8 = digitChar value n := by
  have hpow : 10 ^ n ≤ 10 ^ 9 := Nat.pow_le_pow_right (by decide) (by omega)
  have hdivisor : (BitVec.ofNat 32 (10 ^ n)).toNat = 10 ^ n := by
    rw [BitVec.toNat_ofNat]
    exact Nat.mod_eq_of_lt (by omega)
  have hten : (10#32).toNat = 10 := rfl
  have hzero : (0x30#32).toNat = 0x30 := rfl
  apply BitVec.eq_of_toNat_eq
  rw [BitVec.toNat_setWidth, BitVec.toNat_add, BitVec.toNat_umod, BitVec.toNat_udiv, hdivisor,
    hten, hzero, digitChar, BitVec.toNat_ofNat]
  omega

/-- A round stores one more digit, at its place in the buffer, and leaves those of the rounds
before. -/
theorem Printed.round {n : Nat} {p : Printing} (h : Printed value obuffer n p) (hn : n < 10) :
    Printed value obuffer (n + 1) (digitRound value obuffer p) := by
  have hstore : ∀ a, (digitRound value obuffer p).mem a =
      if a = obuffer + (8#32 - BitVec.ofNat 32 n) then digitChar value n else p.mem a := by
    intro a
    unfold digitRound
    dsimp only
    rw [h.off, h.divisor, digitChar_eq hn, Mem.write8_apply]
  refine ⟨?_, ?_, ?_, fun k hk => ?_, ?_⟩
  · show p.digitDivisor * 10#32 = _
    rw [h.divisor, Nat.pow_succ, BitVec.ofNat_mul]
  · show p.buffOff - 1#32 = _
    rw [h.off, BitVec.ofNat_add]
    grind
  · show p.written ++ [p.buffOff] = _
    rw [h.written, h.off, List.append_assoc, List.range_succ, List.map_append]
    rfl
  · rw [hstore]
    rcases Nat.lt_succ_iff_lt_or_eq.mp hk with hlt | rfl
    · have hne : obuffer + (8#32 - BitVec.ofNat 32 k) ≠ obuffer + (8#32 - BitVec.ofNat 32 n) := by
        intro heq
        have hsame : BitVec.ofNat 32 k = BitVec.ofNat 32 n := by grind
        exact ofNat_ne (by omega) (by omega) (by omega) hsame
      rw [if_neg hne]
      exact h.digits k hlt
    · exact if_pos rfl
  · have hne : obuffer + 9#32 ≠ obuffer + (8#32 - BitVec.ofNat 32 n) := by
      intro heq
      have hsame : BitVec.ofNat 32 n = BitVec.ofNat 32 (2 ^ 32 - 1) := by grind
      exact ofNat_ne (by omega) (by decide) (by omega) hsame
    rw [hstore, if_neg hne]
    exact h.nul

variable (value obuffer) in
/-- All the rounds: after the last of them there are ten digits in the buffer, whatever the value
is. -/
theorem uint32ToString_printed :
    Printed value obuffer MAX_STR_LENGTH_OF_UINT32 (uint32ToString value obuffer m) := by
  have hrounds : ∀ n ≤ 10,
      Printed value obuffer n (digitRounds value obuffer n (printingStart obuffer m)) := by
    intro n hn
    induction n with
    | zero => exact printed_start value obuffer m
    | succ n ih => exact (ih (by omega)).round (by omega)
  exact hrounds 10 le_rfl

end Digits

/-! ## Formats -/

/-- Memory as it is seen from a format string. -/
abbrev Format := Int → BYTE

/-- The state of `KeLogf`: its variables, the bytes given to the output driver, the number of
arguments taken, and the indices of the format it has read. -/
structure Logging where
  i : WORD
  ch : BYTE
  isSigned : Option BOOL
  output : List BYTE
  args : Nat
  reads : List Int

/-- `od`. -/
def Logging.od (s : Logging) (ch : BYTE) : Logging := { s with output := s.output ++ [ch] }

/-- `fmt[index]`. -/
def Logging.read (s : Logging) (index : Int) : Logging := { s with reads := s.reads ++ [index] }

/-- The `switch` on `fmt[index]`, or `none` for `goto FailSilent`. -/
def logSwitch (fmt : Format) (index : Int) (s : Logging) : Option Logging :=
  if fmt index = 0x78 then some { s with args := s.args + 1 }
  else if fmt index = 0x69 then some s
  else if fmt index = 0x73 then some s
  else if fmt index = 0x23 then some ((s.read index).od (fmt index))
  else if fmt index = 0x40 then some ((s.read index).od (fmt index))
  else none

/-- The part of a round for a format character. -/
def logFormat (fmt : Format) (s : Logging) : Logging ⊕ Logging :=
  let s := { s with i := s.i + 2#16 }
  let index : Int := s.i.toNat - 1
  let s := s.read index
  match logSwitch fmt index s with
  | some s => .inl { s with i := s.i + 1#16 }
  | none => .inr s

/-- A round of the loop. The second test is of the constant `'#'`, and `ch` is never read again. -/
def logRound (fmt : Format) (s : Logging) : Logging ⊕ Logging :=
  if s.ch = 0 then .inr s
  else if s.ch = 0x40 then logFormat fmt { s with isSigned := some 0 }
  else if (0x23 : BYTE) ≠ 0 then logFormat fmt { s with isSigned := some 1 }
  else
    let s := s.od s.ch
    .inl { s with i := s.i + 1#16 }

/-- The loop's initialisation. -/
def loggingStart (fmt : Format) : Logging where
  i := 0
  ch := fmt 0
  isSigned := none
  output := []
  args := 0
  reads := [0]

/-- `KeLogf`, with so many rounds of its loop. -/
def keLogf (fmt : Format) (rounds : Nat) : Option Logging :=
  Loop.run (logRound fmt) rounds (loggingStart fmt)

/-! ## What a round reads

The counter goes up by three, with sixteen bits. -/

/-- The index that round `n` looks at. -/
def scanned (n : Nat) : Int := ((3 * n + 2) % 65536 : Nat) - 1

/-- A character the `switch` has a case for. -/
def Escape (b : BYTE) : Prop := b = 0x78 ∨ b = 0x69 ∨ b = 0x73 ∨ b = 0x23 ∨ b = 0x40

instance (b : BYTE) : Decidable (Escape b) := inferInstanceAs (Decidable (_ ∨ _))

/-- What the `switch` gives the driver. -/
def emitted (b : BYTE) : List BYTE := if b = 0x23 ∨ b = 0x40 then [b] else []

section Rounds

variable (fmt : Format)

/-- What the first `n` rounds give the driver. -/
def printed (n : Nat) : List BYTE := (List.range n).flatMap fun k => emitted (fmt (scanned k))

/-- The state after `n` rounds of a format that is not empty. -/
structure Logged (n : Nat) (s : Logging) : Prop where
  ch : s.ch ≠ 0
  i : s.i = BitVec.ofNat 16 (3 * n)
  output : s.output = printed fmt n
  reads : ∀ j, j ∈ s.reads ↔ j = 0 ∨ ∃ k < n, j = scanned k

variable {fmt}

/-- A letter that the `switch` knows lets the loop go on: `#` and `@` are sent to the log, the
others send nothing. `ch` is left as it is. -/
theorem logSwitch_of_escape {index : Int} (h : Escape (fmt index)) (s : Logging) :
    ∃ t, logSwitch fmt index s = some t ∧ t.ch = s.ch ∧ t.i = s.i ∧
      t.output = s.output ++ emitted (fmt index) ∧
      (∀ j, j ∈ t.reads ↔ j ∈ s.reads ∨ emitted (fmt index) ≠ [] ∧ j = index) := by
  unfold logSwitch emitted
  rcases h with hx | hi | hs | hhash | hat
  · rw [hx]
    exact ⟨_, rfl, rfl, rfl, by simp, by simp⟩
  · rw [hi]
    exact ⟨_, rfl, rfl, rfl, by simp, by simp⟩
  · rw [hs]
    exact ⟨_, rfl, rfl, rfl, by simp, by simp⟩
  · rw [hhash]
    exact ⟨_, rfl, rfl, rfl, by simp [Logging.od, Logging.read], by simp [Logging.od, Logging.read]⟩
  · rw [hat]
    exact ⟨_, rfl, rfl, rfl, by simp [Logging.od, Logging.read], by simp [Logging.od, Logging.read]⟩

/-- Any other letter is the default case, which jumps to the end of the function and so leaves the
loop. -/
theorem logSwitch_of_not_escape {index : Int} (h : ¬ Escape (fmt index)) (s : Logging) :
    logSwitch fmt index s = none := by
  unfold Escape at h
  rw [not_or, not_or, not_or, not_or] at h
  obtain ⟨hx, hi, hs, hhash, hat⟩ := h
  unfold logSwitch
  rw [if_neg hx, if_neg hi, if_neg hs, if_neg hhash, if_neg hat]

variable (fmt) in
/-- Either test passes, so that every round is one for a format character. -/
theorem logRound_eq {s : Logging} (h : s.ch ≠ 0) :
    ∃ flag, logRound fmt s = logFormat fmt { s with isSigned := some flag } := by
  unfold logRound
  rw [if_neg h]
  by_cases hat : s.ch = 0x40
  · exact ⟨0, if_pos hat⟩
  · exact ⟨1, (if_neg hat).trans (if_pos (by decide))⟩

/-- The index that is looked at, from the counter: the addition is of sixteen bits, and so wraps,
while the subtraction is of an `int`. -/
theorem Logged.index {n : Nat} {s : Logging} (h : Logged fmt n s) :
    ((s.i + 2#16).toNat : Int) - 1 = scanned n := by
  have hnat : (s.i + 2#16).toNat = (3 * n + 2) % 65536 := by
    rw [h.i, BitVec.toNat_add, BitVec.toNat_ofNat, BitVec.toNat_ofNat]
    omega
  rw [hnat]
  rfl

/-- What has been read after one more look is what was read before it, and the place of the look. -/
theorem mem_reads_succ {n : Nat} {s : Logging} (h : Logged fmt n s) (j : Int) :
    j ∈ s.reads ∨ j = scanned n ↔ j = 0 ∨ ∃ k < n + 1, j = scanned k := by
  rw [h.reads, or_assoc]
  refine or_congr_right ⟨?_, ?_⟩
  · rintro (⟨k, hk, rfl⟩ | rfl)
    · exact ⟨k, by omega, rfl⟩
    · exact ⟨n, by omega, rfl⟩
  · rintro ⟨k, hk, rfl⟩
    rcases Nat.lt_succ_iff_lt_or_eq.mp hk with hlt | rfl
    · exact Or.inl ⟨k, hlt, rfl⟩
    · exact Or.inr rfl

/-- With an escape at the place that is looked at, the loop goes round again, and the invariant
holds for one round more. -/
theorem Logged.again {n : Nat} {s : Logging} (h : Logged fmt n s)
    (hescape : Escape (fmt (scanned n))) :
    ∃ s', logRound fmt s = .inl s' ∧ Logged fmt (n + 1) s' := by
  obtain ⟨flag, hround⟩ := logRound_eq fmt h.ch
  obtain ⟨looked, hlooked⟩ : ∃ looked : Logging, looked =
      { s with isSigned := some flag, i := s.i + 2#16, reads := s.reads ++ [scanned n] } := ⟨_, rfl⟩
  obtain ⟨t, hswitch, hch, hi, houtput, hreads⟩ := logSwitch_of_escape hescape looked
  have hformat : logRound fmt s = .inl { t with i := t.i + 1#16 } := by
    rw [hround]
    unfold logFormat Logging.read
    dsimp only
    rw [h.index, ← hlooked, hswitch]
  refine ⟨_, hformat, ⟨?_, ?_, ?_, fun j => ?_⟩⟩
  · rw [hlooked] at hch
    rw [hch]
    exact h.ch
  · show t.i + 1#16 = _
    rw [hi, hlooked]
    show s.i + 2#16 + 1#16 = _
    rw [h.i, Nat.mul_succ, BitVec.ofNat_add, BitVec.add_assoc]
    rfl
  · show t.output = _
    rw [houtput, hlooked]
    show s.output ++ _ = _
    rw [h.output, printed, printed, List.range_succ, List.flatMap_append, List.flatMap_singleton]
  · show j ∈ t.reads ↔ _
    rw [hreads, ← mem_reads_succ h j, hlooked, List.mem_append, List.mem_singleton]
    exact ⟨fun hj => hj.elim id fun hj => Or.inr hj.2, Or.inl⟩

/-- Anything else there is the end of the loop, after the output and the looks of the rounds so
far. -/
theorem Logged.stop {n : Nat} {s : Logging} (h : Logged fmt n s)
    (hescape : ¬ Escape (fmt (scanned n))) :
    ∃ s', logRound fmt s = .inr s' ∧ s'.output = printed fmt n ∧
      ∀ j, j ∈ s'.reads ↔ j = 0 ∨ ∃ k < n + 1, j = scanned k := by
  obtain ⟨flag, hround⟩ := logRound_eq fmt h.ch
  have hformat : logRound fmt s = .inr { s with
      isSigned := some flag, i := s.i + 2#16, reads := s.reads ++ [scanned n] } := by
    rw [hround]
    unfold logFormat Logging.read
    dsimp only
    rw [h.index, logSwitch_of_not_escape hescape]
  refine ⟨_, hformat, h.output, fun j => ?_⟩
  rw [← mem_reads_succ h j, List.mem_append, List.mem_singleton]

/-- Before the loop nothing is printed, and the text is not empty. -/
theorem logged_start (h : fmt 0 ≠ 0) : Logged fmt 0 (loggingStart fmt) := by
  refine ⟨h, rfl, rfl, fun j => ?_⟩
  show j ∈ [0] ↔ _
  rw [List.mem_singleton]
  exact ⟨Or.inl, fun hj => hj.elim id fun ⟨k, hk, _⟩ => absurd hk (Nat.not_lt_zero k)⟩

/-- An empty format is the end at once, with no output and nothing read but its zero byte. -/
theorem keLogf_empty (h : fmt 0 = 0) :
    Loop.Leaves (logRound fmt) (loggingStart fmt) (loggingStart fmt) :=
  .out (if_pos h)

/-- The scan goes on to the first index it looks at that is not an escape. -/
theorem keLogf_leaves (h : fmt 0 ≠ 0) {n : Nat} (hbefore : ∀ k < n, Escape (fmt (scanned k)))
    (hstop : ¬ Escape (fmt (scanned n))) :
    ∃ s, Loop.Leaves (logRound fmt) (loggingStart fmt) s ∧ s.output = printed fmt n ∧
      ∀ j, j ∈ s.reads ↔ j = 0 ∨ ∃ k < n + 1, j = scanned k :=
  Loop.Leaves.of_countup (Logged fmt) _ (fun k _ hk hs => hs.again (hbefore k hk))
    (fun _ hs => hs.stop hstop) (logged_start h)

/-- And if it looks at escapes only, it goes on for ever. -/
theorem keLogf_endless (h : fmt 0 ≠ 0) (hescape : ∀ k, Escape (fmt (scanned k))) (s : Logging) :
    ¬ Loop.Leaves (logRound fmt) (loggingStart fmt) s := by
  refine Loop.not_leaves (fun s => ∃ n, Logged fmt n s) ?_ ⟨0, logged_start h⟩ s
  rintro s ⟨n, hs⟩
  obtain ⟨s', hround, hs'⟩ := hs.again (hescape n)
  exact ⟨s', hround, n + 1, hs'⟩

end Rounds

end OS90.Kernel
