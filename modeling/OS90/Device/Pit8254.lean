import Mathlib.Data.BitVec
import Mathlib.Logic.Function.Basic

/-!
# The 8254 interval timer

Three counters behind the ports 40h to 43h. A control word sets a counter's mode and the way its
count is written, and the counter waits until the count is there; a clock then loads it. Mode 3 is
a square wave: the output is high for the longer half of the count's clocks and low for the other.
What a clock does in the other modes is a parameter (`other`). Nothing is read back here.

A timeline is a list of clocks and port writes, in any order. `run_ticking` is that a counter in
mode 3 rises once in every period, whatever is written to the others meanwhile.
-/

namespace OS90.Device

/-- How far a counter has come since its control word. -/
inductive CountPhase where
  | unwritten
  | written
  | counting
deriving DecidableEq, Repr

structure Counter where
  mode : BitVec 3
  /-- The low byte of the count is written (1), the high byte (2), or both in this order (3). -/
  access : BitVec 2
  bcd : Bool
  count : BitVec 16
  lowByte : BitVec 8
  /-- The high byte is written next. -/
  highNext : Bool
  phase : CountPhase
  /-- Clocks left of this half of the wave. -/
  left : Nat
  out : Bool
deriving DecidableEq, Repr

namespace Counter

/-- The value of four decimal digits. -/
def decimal (w : BitVec 16) : Nat :=
  (w.extractLsb' 12 4).toNat * 1000 + (w.extractLsb' 8 4).toNat * 100 +
    (w.extractLsb' 4 4).toNat * 10 + (w.extractLsb' 0 4).toNat

/-- The clocks of one period. A count of zero is the largest. -/
def period (c : Counter) : Nat :=
  if c.count = 0 then if c.bcd then 10000 else 65536
  else if c.bcd then decimal c.count else c.count.toNat

def high (c : Counter) : Nat := (c.period + 1) / 2

def low (c : Counter) : Nat := c.period / 2

/-- A counter after its control word. -/
def program (v : BitVec 8) : Counter where
  mode := v.extractLsb' 1 3
  access := v.extractLsb' 4 2
  bcd := v.getLsbD 0
  count := 0
  lowByte := 0
  highNext := false
  phase := .unwritten
  left := 0
  out := v.extractLsb' 1 3 ≠ 0

/-- A counter that has its count. While it counts, the count is taken at the end of the half. -/
def withCount (w : BitVec 16) (c : Counter) : Counter :=
  { c with
    count := w
    highNext := false
    phase := if c.phase = .counting then .counting else .written }

/-- A byte of the count. -/
def writeCount (v : BitVec 8) (c : Counter) : Counter :=
  if c.access = 1 then c.withCount (v.setWidth 16)
  else if c.access = 2 then c.withCount (v.setWidth 16 <<< 8)
  else if c.access = 3 then
    if c.highNext then c.withCount (v.setWidth 16 <<< 8 ||| c.lowByte.setWidth 16)
    else { c with lowByte := v, highNext := true }
  else c

/-- One clock of the square wave. -/
def clockSquare (c : Counter) : Counter :=
  match c.phase with
  | .unwritten => c
  | .written => { c with phase := .counting, left := c.high }
  | .counting =>
    if 1 < c.left then { c with left := c.left - 1 }
    else if c.out then { c with out := false, left := c.low }
    else { c with out := true, left := c.high }

/-- The third mode has two codes. -/
def square (c : Counter) : Bool := c.mode = 3 || c.mode = 7

def clock (other : Counter → Counter) (c : Counter) : Counter :=
  if c.square then c.clockSquare else other c

end Counter

/-- The three counters. -/
abbrev Pit8254 := Fin 3 → Counter

/-- What happens to the timer. -/
inductive PitEvent where
  | clock
  | write (port : BitVec 16) (v : BitVec 8)
deriving DecidableEq, Repr

namespace Pit8254

/-- The control port. The commands that latch a counter for reading change nothing here. -/
def writeControl (v : BitVec 8) (p : Pit8254) : Pit8254 :=
  if h : (v.extractLsb' 6 2).toNat < 3 then
    if v.extractLsb' 4 2 = 0 then p
    else Function.update p ⟨(v.extractLsb' 6 2).toNat, h⟩ (Counter.program v)
  else p

def writeCount (i : Fin 3) (v : BitVec 8) (p : Pit8254) : Pit8254 :=
  Function.update p i ((p i).writeCount v)

/-- A byte written to an I/O port. Only the four ports of the timer matter here. -/
def write (port : BitVec 16) (v : BitVec 8) (p : Pit8254) : Pit8254 :=
  if port = 0x43#16 then p.writeControl v
  else if port = 0x40#16 then p.writeCount 0 v
  else if port = 0x41#16 then p.writeCount 1 v
  else if port = 0x42#16 then p.writeCount 2 v
  else p

variable (other : Counter → Counter)

def step (p : Pit8254) : PitEvent → Pit8254
  | .clock => fun i => (p i).clock other
  | .write port v => p.write port v

def run (p : Pit8254) (events : List PitEvent) : Pit8254 := events.foldl (step other) p

/-- How often the output of counter 0 rises on a clock. -/
def rises : Pit8254 → List PitEvent → Nat
  | _, [] => 0
  | p, e :: events =>
    (if e = .clock && !(p 0).out && (step other p e 0).out then 1 else 0) +
      rises (step other p e) events

/-- Nothing that is written is for counter 0. -/
def Spares : PitEvent → Prop
  | .clock => True
  | .write port v =>
    port ≠ 0x40 ∧ (port = 0x43 → v.extractLsb' 6 2 ≠ 0 ∨ v.extractLsb' 4 2 = 0)

/-- How many clocks a timeline has. -/
def clocks (events : List PitEvent) : Nat := events.count .clock

/-! ## One counter at a time -/

section Counters

variable {other} {p q : Pit8254}

/-- A timeline may be cut in two, and the second part runs from where the first has left the
chip. -/
theorem run_append (p : Pit8254) (l l' : List PitEvent) :
    run other p (l ++ l') = run other (run other p l) l' := List.foldl_append

/-- The step of the run: the first event, then the others. -/
theorem run_cons (p : Pit8254) (e : PitEvent) (l : List PitEvent) :
    run other p (e :: l) = run other (step other p e) l := rfl

/-- The rises of a timeline are counted event by event. Only a clock makes the output rise, and only
if it was low before. -/
theorem rises_cons (p : Pit8254) (e : PitEvent) (l : List PitEvent) :
    rises other p (e :: l) =
      (if e = .clock && !(p 0).out && (step other p e 0).out then 1 else 0) +
        rises other (step other p e) l := rfl

/-- What an event does to a counter is a matter of that counter, for every event and every behaviour
of the other modes. -/
theorem step_congr {i : Fin 3} (h : p i = q i) (e : PitEvent) :
    step other p e i = step other q e i := by
  have hupdate : ∀ (j : Fin 3) (c d : Counter), (j = i → c = d) →
      Function.update p j c i = Function.update q j d i := by
    intro j c d hcd
    by_cases hj : i = j
    · subst hj
      rw [Function.update_self, Function.update_self, hcd rfl]
    · rw [Function.update_of_ne hj, Function.update_of_ne hj, h]
  have hcount : ∀ (j : Fin 3) (v : BitVec 8), p.writeCount j v i = q.writeCount j v i := by
    intro j v
    refine hupdate j _ _ fun hj => ?_
    rw [hj, h]
  cases e with
  | clock =>
    show (p i).clock other = (q i).clock other
    rw [h]
  | write port v =>
    show p.write port v i = q.write port v i
    unfold write
    split
    · unfold writeControl
      split
      · split
        · exact h
        · exact hupdate _ _ _ fun _ => rfl
      · exact h
    · split
      · exact hcount 0 v
      · split
        · exact hcount 1 v
        · split
          · exact hcount 2 v
          · exact h

/-- A counter depends on its own state before, and not on that of the two others, so that each can
be followed alone. -/
theorem run_congr {i : Fin 3} (h : p i = q i) (events : List PitEvent) :
    run other p events i = run other q events i := by
  induction events generalizing p q with
  | nil => exact h
  | cons e events ih => exact ih (step_congr h e)

/-- A write for another counter leaves counter 0, by the port or by the counter that a control word
selects. -/
theorem step_write_spares (other : Counter → Counter) (p : Pit8254) {port : BitVec 16}
    {v : BitVec 8} (h : Spares (.write port v)) :
    step other p (.write port v) 0 = p 0 := by
  obtain ⟨hcount, hcontrol⟩ := h
  show p.write port v 0 = p 0
  unfold write
  split
  · next hport =>
    unfold writeControl
    split
    · split
      · rfl
      · next hselect haccess =>
        rcases hcontrol hport with hother | hlatch
        · refine Function.update_of_ne (fun heq => hother ?_) _ _
          have hval := congrArg Fin.val heq
          exact BitVec.eq_of_toNat_eq hval.symm
        · exact absurd hlatch haccess
    · rfl
  · split
    · next hport => exact absurd hport hcount
    · split
      · rfl
      · split <;> rfl

end Counters

/-! ## The square wave -/

/-- A counter in mode 3, `k` clocks after the one that loaded it: the position in its period says
how it stands. -/
structure Ticking (n k : Nat) (c : Counter) : Prop where
  square : c.square = true
  phase : c.phase = .counting
  period : c.period = n
  position : ∃ q r, k = n * q + r ∧ r < n ∧
    ((r < (n + 1) / 2 ∧ c.out = true ∧ c.left = (n + 1) / 2 - r) ∨
      ((n + 1) / 2 ≤ r ∧ c.out = false ∧ c.left = n - r))

/-- One clock of a counter that ticks: the position in its period goes on by one, and it has risen
if that was the last. -/
theorem Ticking.clock {n k : Nat} {c : Counter} (h : Ticking n k c) (hn : 2 ≤ n) :
    Ticking n (k + 1) (c.clock other) ∧
      (if !c.out && (c.clock other).out then 1 else 0) + k / n = (k + 1) / n := by
  obtain ⟨hsquare, hphase, hperiod, q, r, hk, hr, hposition⟩ := h
  have hclock : c.clock other =
      if 1 < c.left then { c with left := c.left - 1 }
      else if c.out then { c with out := false, left := c.low }
      else { c with out := true, left := c.high } := by
    unfold Counter.clock Counter.clockSquare
    rw [if_pos hsquare, hphase]
  have hhigh : c.high = (n + 1) / 2 := by rw [Counter.high, hperiod]
  have hlow : c.low = n / 2 := by rw [Counter.low, hperiod]
  have hdiv : ∀ m s, s < n → (n * m + s) / n = m := by
    intro m s hs
    rw [Nat.mul_add_div (by omega), Nat.div_eq_of_lt hs, Nat.add_zero]
  have hbefore : k / n = q := by rw [hk, hdiv q r hr]
  rw [hclock, hbefore]
  rcases hposition with ⟨hhalf, hout, hleft⟩ | ⟨hhalf, hout, hleft⟩
  · by_cases hlast : 1 < c.left
    · rw [if_pos hlast]
      refine ⟨⟨hsquare, hphase, hperiod, q, r + 1, by omega, by omega,
        .inl ⟨by omega, hout, ?_⟩⟩, ?_⟩
      · show c.left - 1 = _
        omega
      · rw [hout, hk, Nat.add_assoc, hdiv q (r + 1) (by omega)]
        simp
    · -- the wave falls
      rw [if_neg hlast, if_pos hout]
      refine ⟨⟨hsquare, hphase, hperiod, q, r + 1, by omega, by omega,
        .inr ⟨by omega, rfl, ?_⟩⟩, ?_⟩
      · show c.low = _
        omega
      · rw [hk, Nat.add_assoc, hdiv q (r + 1) (by omega)]
        simp
  · by_cases hlast : 1 < c.left
    · rw [if_pos hlast]
      refine ⟨⟨hsquare, hphase, hperiod, q, r + 1, by omega, by omega,
        .inr ⟨by omega, hout, ?_⟩⟩, ?_⟩
      · show c.left - 1 = _
        omega
      · rw [hout, hk, Nat.add_assoc, hdiv q (r + 1) (by omega)]
        simp
    · -- a period is over, and the wave rises
      have hend : k + 1 = n * (q + 1) + 0 := by
        rw [Nat.mul_succ]
        omega
      rw [if_neg hlast, if_neg (by rw [hout]; exact Bool.false_ne_true)]
      refine ⟨⟨hsquare, hphase, hperiod, q + 1, 0, hend, by omega, .inl ⟨by omega, rfl, ?_⟩⟩, ?_⟩
      · show c.high = _
        omega
      · rw [hout, hend, hdiv (q + 1) 0 (by omega)]
        simp [Nat.add_comm]

/-- Over a timeline that spares it, a ticking counter rises once in every period. -/
theorem rises_ticking {n k : Nat} (hn : 2 ≤ n) {p : Pit8254} (h : Ticking n k (p 0))
    {events : List PitEvent} (hspares : ∀ e ∈ events, Spares e) :
    rises other p events + k / n = (k + clocks events) / n := by
  induction events generalizing p k with
  | nil => exact Nat.zero_add _
  | cons e events ih =>
    obtain ⟨he, hothers⟩ := List.forall_mem_cons.mp hspares
    rw [rises_cons]
    cases e with
    | clock =>
      obtain ⟨hnext, hrise⟩ := h.clock other hn
      have hrest := ih (p := step other p .clock) hnext hothers
      have hcount : clocks (.clock :: events) = clocks events + 1 := List.count_cons_self
      have hfirst : (if PitEvent.clock = .clock && !(p 0).out && (step other p .clock 0).out
          then 1 else 0) + k / n = (k + 1) / n := by
        rw [decide_eq_true rfl, Bool.true_and]
        exact hrise
      rw [hcount]
      have hsum : k + (clocks events + 1) = k + 1 + clocks events := by omega
      rw [hsum]
      omega
    | write port v =>
      have hkept := step_write_spares other p he
      have hrest := ih (p := step other p (.write port v)) (hkept ▸ h) hothers
      have hcount : clocks (.write port v :: events) = clocks events :=
        List.count_cons_of_ne (by simp)
      rw [hcount, if_neg (by simp)]
      omega

/-- A counter in mode 3 that has been given its count. -/
structure Waiting (n : Nat) (c : Counter) : Prop where
  square : c.square = true
  phase : c.phase = .written
  period : c.period = n
  out : c.out = true

/-- The first clock after the count is complete loads it, and from then on the counter ticks. -/
theorem Waiting.clock {n : Nat} {c : Counter} (h : Waiting n c) (hn : 2 ≤ n) :
    Ticking n 0 (c.clock other) ∧ (c.clock other).out = true := by
  have hclock : c.clock other = { c with phase := .counting, left := c.high } := by
    unfold Counter.clock Counter.clockSquare
    rw [if_pos h.square, h.phase]
  have hhigh : c.high = (n + 1) / 2 := by rw [Counter.high, h.period]
  rw [hclock]
  refine ⟨⟨h.square, rfl, h.period, 0, 0, rfl, by omega, .inl ⟨by omega, h.out, ?_⟩⟩, h.out⟩
  exact hhigh

/-- From its count on, a counter in mode 3 rises once in every period after the first clock. -/
theorem rises_waiting {n : Nat} (hn : 2 ≤ n) {p : Pit8254} (h : Waiting n (p 0))
    {events : List PitEvent} (hspares : ∀ e ∈ events, Spares e) :
    rises other p events = (clocks events - 1) / n := by
  induction events generalizing p with
  | nil => exact (Nat.zero_div n).symm
  | cons e events ih =>
    obtain ⟨he, hothers⟩ := List.forall_mem_cons.mp hspares
    rw [rises_cons]
    cases e with
    | clock =>
      obtain ⟨hticking, _⟩ := h.clock other hn
      have hrest := rises_ticking other hn (p := step other p .clock) hticking hothers
      have hcount : clocks (.clock :: events) = clocks events + 1 := List.count_cons_self
      rw [Nat.zero_div, Nat.zero_add, Nat.add_zero] at hrest
      rw [hcount, hrest, h.out, if_neg (by simp), Nat.zero_add, Nat.add_sub_cancel]
    | write port v =>
      have hkept := step_write_spares other p he
      have hcount : clocks (.write port v :: events) = clocks events :=
        List.count_cons_of_ne (by simp)
      rw [ih (p := step other p (.write port v)) (hkept ▸ h) hothers, hcount, if_neg (by simp),
        Nat.zero_add]

/-- A counter in mode 3 that waits for its count stands still, however many clocks there are. -/
theorem run_unwritten {p : Pit8254} (hsquare : (p 0).square = true)
    (hphase : (p 0).phase = .unwritten) {events : List PitEvent}
    (hspares : ∀ e ∈ events, Spares e) : run other p events 0 = p 0 := by
  induction events generalizing p with
  | nil => rfl
  | cons e events ih =>
    obtain ⟨he, hothers⟩ := List.forall_mem_cons.mp hspares
    have hkept : step other p e 0 = p 0 := by
      cases e with
      | clock =>
        show (p 0).clock other = p 0
        unfold Counter.clock Counter.clockSquare
        rw [if_pos hsquare, hphase]
      | write port v => exact step_write_spares other p he
    have hrest := ih (p := step other p e) (hkept ▸ hsquare) (hkept ▸ hphase) hothers
    rw [run_cons, hrest, hkept]

end Pit8254

end OS90.Device
