import Mathlib.Data.List.GetD
import OS90.Kernel.PnpMgr
import OS90.Lib.Run

/-!
# Registration of I/O resources

A run is drivers' calls of `PnAddIOMemRsc`, and between them whatever they do to their own records
(`meanwhile`). `Filled` is the table by the history of the run: entry `k` is what the pointer of
call `k` pointed to when the call was made, the calls past the last entry are refused, and an entry
not yet used is as it was before the run. It holds of every state of every run, and no run comes to
a store outside the table (`resources_run`).

What the table is for, that a resource is not given to two drivers, is not promised by this code: it
keeps what it is handed, and compares nothing. The law is about the bookkeeping alone.
-/

namespace OS90.Laws

open OS90.Kernel OS90.Run

inductive ResourceEvent where
  | add (newRsc : PTR)
  | meanwhile (records : Records)

/-- The table, the drivers' records, and a history: what each call was passed and answered. -/
structure Registering where
  table : IoResources
  records : Records
  passed : List IO_RESOURCE
  answers : List DWORD

def Registering.start (table : IoResources) (records : Records) : Registering :=
  ⟨table, records, [], []⟩

/-- One event, or `none` where a call would store outside the table. -/
def resourceStep (r : Registering) : ResourceEvent → Option Registering
  | .add newRsc =>
    ((pnAddIOMemRsc r.records newRsc).run r.table).map fun (answer, table) =>
      { r with
        table := table
        passed := r.passed ++ [r.records newRsc]
        answers := r.answers ++ [answer] }
  | .meanwhile records => some { r with records := records }

/-- The table by the history, from the table `t` with its first `n` entries in use. -/
structure Filled (t : IoResources) (n : Nat) (r : Registering) : Prop where
  next : r.table.curIorsc.toNat = min (n + r.passed.length) MAX_IO_RSC
  entry : ∀ i : Fin MAX_IO_RSC, r.table.resources[i] =
    if i.val < n then t.resources[i] else r.passed.getD (i.val - n) t.resources[i]
  answers : r.answers =
    (List.range r.passed.length).map fun k => if n + k < MAX_IO_RSC then 0#32 else -1#32

/-- At the start the table holds the records it was found with. -/
theorem filled_start {t : IoResources} {n : Nat} (hnext : t.curIorsc.toNat = n)
    (hroom : n ≤ MAX_IO_RSC) (records : Records) : Filled t n (.start t records) where
  next := hnext.trans (Nat.min_eq_left hroom).symm
  entry := fun i => by
    show t.resources[i] = _
    rw [Registering.start, List.getD_nil, ite_self]
  answers := rfl

/-- A call is carried out on the records as they are at that time, and the history takes what it was
passed and answered. -/
theorem resourceStep_add {r : Registering} {newRsc : PTR} {answer : DWORD} {table : IoResources}
    (h : (pnAddIOMemRsc r.records newRsc).run r.table = some (answer, table)) :
    resourceStep r (.add newRsc) = some { r with
      table := table
      passed := r.passed ++ [r.records newRsc]
      answers := r.answers ++ [answer] } := by
  simp only [resourceStep]
  rw [h]
  rfl

/-- A call takes the next entry while there is one, and is refused from then on. -/
theorem Filled.add {t : IoResources} {n : Nat} {r : Registering} (h : Filled t n r)
    (newRsc : PTR) : ∃ r', resourceStep r (.add newRsc) = some r' ∧ Filled t n r' := by
  have hanswers : ∀ answer : DWORD,
      answer = (if n + r.passed.length < MAX_IO_RSC then 0#32 else -1#32) →
      r.answers ++ [answer] = (List.range (r.passed ++ [r.records newRsc]).length).map
        fun k => if n + k < MAX_IO_RSC then 0#32 else -1#32 := by
    intro answer hanswer
    rw [h.answers, List.length_append, List.length_singleton, List.range_succ, List.map_append,
      hanswer]
    rfl
  have hlength : (r.passed ++ [r.records newRsc]).length = r.passed.length + 1 := by
    rw [List.length_append, List.length_singleton]
  have hnext := h.next
  by_cases hroom : n + r.passed.length < MAX_IO_RSC
  · have hslot : r.table.curIorsc.toNat = n + r.passed.length := by omega
    have hlt : r.table.curIorsc.toNat < MAX_IO_RSC := by omega
    refine ⟨_, resourceStep_add (pnAddIOMemRsc_run _ _ _ hlt), ?_, fun i => ?_, ?_⟩
    · show (r.table.curIorsc + 1#32).toNat = _
      have hsmall : MAX_IO_RSC = 64 := rfl
      rw [BitVec.toNat_add, hlength]
      simp only [BitVec.toNat_ofNat]
      omega
    · have hentry := h.entry i
      show (r.table.resources.set r.table.curIorsc.toNat (r.records newRsc))[i.val] = _
      rw [Vector.getElem_set]
      by_cases hlast : r.table.curIorsc.toNat = i.val
      · have hnot : ¬ i.val < n := by omega
        have hindex : i.val - n = r.passed.length := by omega
        rw [if_pos hlast, if_neg hnot, hindex]
        simp
      · rw [if_neg hlast]
        refine hentry.trans ?_
        by_cases hold : i.val < n
        · rw [if_pos hold, if_pos hold]
        · rw [if_neg hold, if_neg hold]
          show _ = (r.passed ++ [r.records newRsc]).getD (i.val - n) t.resources[i]
          by_cases hbefore : i.val - n < r.passed.length
          · rw [List.getD_append _ _ _ _ hbefore]
          · rw [List.getD_eq_default _ _ (by omega), List.getD_eq_default _ _ (by omega)]
    · exact hanswers 0#32 (if_pos hroom).symm
  · have hfull : MAX_IO_RSC ≤ r.table.curIorsc.toNat := by omega
    refine ⟨_, resourceStep_add (pnAddIOMemRsc_run_full _ _ _ hfull), ?_, fun i => ?_, ?_⟩
    · show r.table.curIorsc.toNat = _
      rw [hlength]
      omega
    · have hi := i.isLt
      refine (h.entry i).trans ?_
      by_cases hold : i.val < n
      · rw [if_pos hold, if_pos hold]
      · rw [if_neg hold, if_neg hold]
        show _ = (r.passed ++ [r.records newRsc]).getD (i.val - n) t.resources[i]
        rw [List.getD_append _ _ _ _ (by omega)]
    · exact hanswers (-1#32) (if_neg hroom).symm

/-- A driver that changes its record after the call leaves the table as it is: the table has a
copy. -/
theorem Filled.meanwhile {t : IoResources} {n : Nat} {r : Registering} (h : Filled t n r)
    (records : Records) : Filled t n { r with records := records } :=
  ⟨h.next, h.entry, h.answers⟩

/-- Every event can happen, and keeps the table to its history. No premise restricts the calls. -/
theorem Filled.step {t : IoResources} {n : Nat} {r : Registering} (h : Filled t n r)
    (e : ResourceEvent) : ∃ r', resourceStep r e = some r' ∧ Filled t n r' := by
  cases e with
  | add newRsc => exact h.add newRsc
  | meanwhile records => exact ⟨_, rfl, h.meanwhile records⟩

/-- From every table and every number of entries in use: a run of any length and order never stops,
and its table is its history's. The premise is that the count of entries is not beyond the table, as
it is from its initialiser on. Records that overlap are not refused, and the law does not say so. -/
theorem resources_run (t : IoResources) (records : Records)
    (hroom : t.curIorsc.toNat ≤ MAX_IO_RSC) (events : List ResourceEvent) :
    ∃ r, final resourceStep (.start t records) events = some r ∧ Filled t t.curIorsc.toNat r := by
  have hstart := filled_start rfl hroom records
  generalize Registering.start t records = r at hstart ⊢
  induction events generalizing r with
  | nil => exact ⟨r, rfl, hstart⟩
  | cons e events ih =>
    obtain ⟨r', hstep, hfilled⟩ := hstart.step e
    obtain ⟨r'', hfinal, hend⟩ := ih r' hfilled
    refine ⟨r'', ?_, hend⟩
    unfold final
    rw [hstep]
    exact hfinal

/-- The ports of a device, as its driver describes them. -/
def serialPort : IO_RESOURCE := ⟨0x3F8, 8, 8, 0, true, true, true, false, 1, 0⟩

/-- The record of a serial port is changed once the call has returned, and the table has it as it
was. -/
theorem resources_run_serialPort :
    ∃ r, final resourceStep (.start .zero fun _ => serialPort)
        [.add 0, .meanwhile fun _ => .zero] = some r ∧
      r.table.resources[(⟨0, by decide⟩ : Fin MAX_IO_RSC)] = serialPort ∧ r.answers = [0#32] := by
  obtain ⟨r, hfinal, hfilled⟩ := resources_run .zero (fun _ => serialPort) (by decide)
    [.add 0, .meanwhile fun _ => .zero]
  have hpassed : r.passed = [serialPort] := by
    cases hfinal
    rfl
  refine ⟨r, hfinal, ?_, ?_⟩
  · rw [hfilled.entry, hpassed]
    rfl
  · rw [hfilled.answers, hpassed]
    rfl

end OS90.Laws
