import Mathlib.Data.List.GetD
import OS90.Kernel.DosServer

/-!
# Registration of far calls

A run is a list of handlers registered one after the other, and `registrations` is what each of
the calls found, answered and left behind. The state a run has reached depends on the handlers
alone (`tableAfter`): the first fifteen are in the table, and the sixteenth slot is never given out.

`SafeRegistrations` is what keeps drivers apart. Every run from the static initialisers has it,
however long. `AddressesIndexHandlers` is what the page fault would need to find a handler by the
address its driver was answered. The address counts from one and the table from zero, and only
fifteen calls succeed, so it holds of almost no run (`addressesIndexHandlers_iff`).
-/

namespace OS90.Laws

open OS90.Kernel

/-- One call: the handler, the state it was made in, the answer, and the state after it. -/
structure Registration where
  handler : DOS_FCALL_HANDLER
  before : FarCalls
  answer : DWORD
  after : FarCalls

/-- The calls of a run, or `none` if one of them would store outside the table. -/
def registrations (s : FarCalls) : List DOS_FCALL_HANDLER → Option (List Registration)
  | [] => some []
  | handler :: handlers => do
    let (answer, s') ← (scInsertFarCallHandler handler).run s
    let rest ← registrations s' handlers
    return ⟨handler, s, answer, s'⟩ :: rest

namespace Registration

variable (r : Registration)

def Succeeded : Prop := r.answer ≠ -1#32

/-- The slot a call that succeeds stores its handler in. -/
def slot : Nat := r.before.hndInx.toNat

/-- The slot an address stands for. -/
def addressSlot : Nat := (r.answer - FAR_CALL_BASE_ADDR).toNat

end Registration

/-- What a run of registrations is to keep. -/
structure SafeRegistrations (rs : List Registration) : Prop where
  /-- A call that succeeds stores its handler in a slot of the table and changes no other. -/
  stored : ∀ r ∈ rs, r.Succeeded → ∃ h : r.slot < MAX_SUPPORTED_FAR_CALLS,
    r.after.fcHandlers = r.before.fcHandlers.set r.slot r.handler
  /-- What it stored is there after every later call, none of which stores there. -/
  kept : rs.Pairwise fun r r' => r.Succeeded →
    r'.after.fcHandlers[r.slot]? = some r.handler ∧ (r'.Succeeded → r'.slot ≠ r.slot)
  increasing : rs.Pairwise fun r r' => r.Succeeded → r'.Succeeded → r.answer < r'.answer
  inRange : ∀ r ∈ rs, r.Succeeded → FAR_CALL_BASE_ADDR ≤ r.answer ∧
    r.answer ≤ FAR_CALL_BASE_ADDR + FAR_CALL_UPPER_BOUND_OFFSET
  /-- A refusal changes nothing. -/
  unchanged : ∀ r ∈ rs, ¬ r.Succeeded → r.after = r.before
  /-- And every later call is refused. -/
  refused : rs.Pairwise fun r r' => ¬ r.Succeeded → ¬ r'.Succeeded

/-- What the page fault needs: the first sixteen calls succeed, and the address each of them is
answered leads to its handler, from that call on. -/
def AddressesIndexHandlers (rs : List Registration) : Prop :=
  ∀ k r, k < MAX_SUPPORTED_FAR_CALLS → rs[k]? = some r → r.Succeeded ∧
    ∀ j r', k ≤ j → rs[j]? = some r' → r'.after.fcHandlers[r.addressSlot]? = some r.handler

/-! ## The state of a run -/

/-- The state after these handlers have been registered. -/
def tableAfter (handlers : List DOS_FCALL_HANDLER) : FarCalls where
  hndInx := BitVec.ofNat 16 (min handlers.length 15)
  fcHandlers := Vector.ofFn fun i => if i.val < 15 then handlers.getD i.val 0 else 0

/-- The table after no registrations is the zero table. -/
theorem tableAfter_nil : tableAfter [] = FarCalls.zero := by
  decide

/-- The index counts the registrations up to the fifteenth. -/
theorem tableAfter_hndInx (handlers : List DOS_FCALL_HANDLER) :
    (tableAfter handlers).hndInx.toNat = min handlers.length 15 := by
  show (BitVec.ofNat 16 (min handlers.length 15)).toNat = _
  rw [BitVec.toNat_ofNat]
  omega

/-- The handlers are in the table in order. Slot 15 is never filled. -/
theorem tableAfter_getElem (handlers : List DOS_FCALL_HANDLER) {i : Nat}
    (hi : i < MAX_SUPPORTED_FAR_CALLS) :
    (tableAfter handlers).fcHandlers[i] = if i < 15 then handlers.getD i 0 else 0 := by
  simp [tableAfter]

/-- The same for an index that is not known to be in the table. -/
theorem tableAfter_getElem? (handlers : List DOS_FCALL_HANDLER) {i : Nat} (hi : i < 16) :
    (tableAfter handlers).fcHandlers[i]? =
      some (if i < 15 then handlers.getD i 0 else 0) := by
  rw [Vector.getElem?_eq_getElem (show i < MAX_SUPPORTED_FAR_CALLS from hi), tableAfter_getElem]

/-- While there is room, one more handler fills the next slot, and the index goes on by one. -/
theorem tableAfter_append (handlers : List DOS_FCALL_HANDLER) (handler : DOS_FCALL_HANDLER)
    (hroom : handlers.length < 15) :
    tableAfter (handlers ++ [handler]) =
      { hndInx := (tableAfter handlers).hndInx + 1#16
        fcHandlers :=
          (tableAfter handlers).fcHandlers.set (tableAfter handlers).hndInx.toNat handler
            (by rw [tableAfter_hndInx]; unfold MAX_SUPPORTED_FAR_CALLS; omega) } := by
  refine congrArg₂ FarCalls.mk (BitVec.eq_of_toNat_eq ?_) (Vector.ext fun i hi => ?_)
  · rw [BitVec.toNat_add, tableAfter_hndInx, BitVec.toNat_ofNat, List.length_append,
      List.length_singleton, BitVec.toNat_ofNat]
    omega
  · change (tableAfter (handlers ++ [handler])).fcHandlers[i] = _
    rw [tableAfter_getElem, Vector.getElem_set, tableAfter_getElem, tableAfter_hndInx,
      min_eq_left hroom.le]
    by_cases hlast : handlers.length = i
    · subst hlast
      simp [hroom]
    · by_cases hbefore : i < handlers.length
      · simp [hlast, hbefore, List.getElem?_append_left]
      · have hnone : handlers.length ≤ i := by omega
        have hpast : (handlers ++ [handler]).length ≤ i := by
          rw [List.length_append, List.length_singleton]
          omega
        simp [hlast, List.getElem?_eq_none hnone, List.getElem?_eq_none hpast]

/-- Past the fifteenth nothing changes, however many more are tried. -/
theorem tableAfter_append_full (handlers : List DOS_FCALL_HANDLER) (handler : DOS_FCALL_HANDLER)
    (hfull : 15 ≤ handlers.length) :
    tableAfter (handlers ++ [handler]) = tableAfter handlers := by
  refine congrArg₂ FarCalls.mk ?_ (Vector.ext fun i hi => ?_)
  · rw [List.length_append, min_eq_right hfull, min_eq_right (by omega)]
  · change (tableAfter (handlers ++ [handler])).fcHandlers[i] = _
    rw [tableAfter_getElem]
    change _ = (tableAfter handlers).fcHandlers[i]
    rw [tableAfter_getElem]
    split
    · simp [List.getElem?_append_left (show i < handlers.length by omega)]
    · rfl

/-! ## The calls of a run -/

/-- The call that registers a handler after others. -/
def registrationAfter (handlers : List DOS_FCALL_HANDLER) (handler : DOS_FCALL_HANDLER) :
    Registration where
  handler := handler
  before := tableAfter handlers
  answer :=
    if handlers.length < 15 then FAR_CALL_BASE_ADDR + BitVec.ofNat 32 (handlers.length + 1)
    else -1#32
  after := tableAfter (handlers ++ [handler])

/-- One call: it fills the next slot while there are fifteen, and is refused from then on. -/
theorem scInsertFarCallHandler_tableAfter (handlers : List DOS_FCALL_HANDLER)
    (handler : DOS_FCALL_HANDLER) :
    (scInsertFarCallHandler handler).run (tableAfter handlers) =
      some ((registrationAfter handlers handler).answer,
        (registrationAfter handlers handler).after) := by
  have hslot := tableAfter_hndInx handlers
  unfold registrationAfter
  dsimp only
  by_cases hroom : handlers.length < 15
  · have hnext : (tableAfter handlers).hndInx.toNat + 1 = handlers.length + 1 := by omega
    rw [scInsertFarCallHandler_run _ _ (by omega), if_pos hroom, tableAfter_append _ _ hroom,
      hnext]
  · rw [scInsertFarCallHandler_run_full _ _ (by omega), if_neg hroom,
      tableAfter_append_full _ _ (by omega)]

/-- The calls that register handlers after others. -/
def registrationsAfter (done : List DOS_FCALL_HANDLER) : List DOS_FCALL_HANDLER → List Registration
  | [] => []
  | handler :: handlers =>
    registrationAfter done handler :: registrationsAfter (done ++ [handler]) handlers

/-- A sequence of registrations from a table that is itself the result of one. -/
theorem registrations_tableAfter (done handlers : List DOS_FCALL_HANDLER) :
    registrations (tableAfter done) handlers = some (registrationsAfter done handlers) := by
  induction handlers generalizing done with
  | nil => rfl
  | cons handler handlers ih =>
    simp only [registrations, scInsertFarCallHandler_tableAfter, Option.bind_eq_bind,
      Option.bind_some, Option.pure_def, registrationsAfter]
    change (registrations (tableAfter (done ++ [handler])) handlers).bind _ = _
    rw [ih]
    rfl

/-- The call number `k` of a run, by the handlers that were registered before it. -/
theorem registrationsAfter_getElem? (done handlers : List DOS_FCALL_HANDLER) (k : Nat) :
    (registrationsAfter done handlers)[k]? =
      handlers[k]?.map (registrationAfter (done ++ handlers.take k)) := by
  induction handlers generalizing done k with
  | nil => simp [registrationsAfter]
  | cons handler handlers ih =>
    cases k with
    | zero => simp [registrationsAfter]
    | succ k => simp [registrationsAfter, ih]

/-! ## The laws -/

section RegistrationAfter

variable (done : List DOS_FCALL_HANDLER) (handler : DOS_FCALL_HANDLER)

/-- A handler goes to the slot that the number of those before it says. -/
theorem registrationAfter_slot : (registrationAfter done handler).slot = min done.length 15 :=
  tableAfter_hndInx done

/-- The answer is an address of the far-call segment, one further than the slot of the handler. -/
theorem registrationAfter_address (h : done.length < 15) :
    (registrationAfter done handler).answer.toNat = 0xF0010 + (done.length + 1) := by
  have hbase : FAR_CALL_BASE_ADDR = 0xF0010#32 := rfl
  simp only [registrationAfter, if_pos h, hbase, BitVec.toNat_add, BitVec.toNat_ofNat]
  omega

/-- A registration succeeds if fewer than fifteen came before it. -/
theorem registrationAfter_succeeded :
    (registrationAfter done handler).Succeeded ↔ done.length < 15 := by
  constructor
  · intro h
    by_contra hfull
    exact h (if_neg hfull)
  · intro h hrefused
    have hnat := registrationAfter_address done handler h
    rw [hrefused] at hnat
    have hminus : (-1#32).toNat = 0xFFFFFFFF := rfl
    omega

/-- So that a call of it looks in the next slot. -/
theorem registrationAfter_addressSlot (h : done.length < 15) :
    (registrationAfter done handler).addressSlot = done.length + 1 := by
  have hnat := registrationAfter_address done handler h
  have hbase : FAR_CALL_BASE_ADDR.toNat = 0xF0010 := rfl
  rw [Registration.addressSlot, BitVec.toNat_sub, hnat, hbase]
  omega

end RegistrationAfter

/-- The same for a run from the static initialisers, which is where the kernel starts. -/
theorem registration_getElem? {handlers : List DOS_FCALL_HANDLER} {rs : List Registration}
    (h : registrations FarCalls.zero handlers = some rs) (k : Nat) :
    rs[k]? = handlers[k]?.map (registrationAfter (handlers.take k)) := by
  rw [← tableAfter_nil, registrations_tableAfter, Option.some.injEq] at h
  rw [← h, registrationsAfter_getElem?, List.nil_append]

/-- Every sequence of registrations comes to its end, the refused ones among them. -/
theorem registrations_total (handlers : List DOS_FCALL_HANDLER) :
    ∃ rs, registrations FarCalls.zero handlers = some rs :=
  ⟨_, tableAfter_nil ▸ registrations_tableAfter [] handlers⟩

/-- Each result of a sequence is that of its handler after those before it. Everything about
sequences is proved by way of this. -/
theorem registration_eq {handlers : List DOS_FCALL_HANDLER} {rs : List Registration}
    (h : registrations FarCalls.zero handlers = some rs) {k : Nat} {r : Registration}
    (hr : rs[k]? = some r) :
    ∃ handler, handlers[k]? = some handler ∧ (handlers.take k).length = k ∧
      r = registrationAfter (handlers.take k) handler := by
  rw [registration_getElem? h] at hr
  obtain ⟨handler, hhandler, hr⟩ := Option.map_eq_some_iff.mp hr
  have hk : k < handlers.length := (List.getElem?_eq_some_iff.mp hhandler).1
  exact ⟨handler, hhandler, List.length_take_of_le hk.le, hr.symm⟩

/-- The table a call leaves behind: the slots filled so far hold the run's handlers, and the rest
are NULL. -/
theorem registration_after {handlers : List DOS_FCALL_HANDLER} {k i : Nat}
    {handler : DOS_FCALL_HANDLER} (hk : handlers[k]? = some handler) (hi : i < 16) :
    (registrationAfter (handlers.take k) handler).after.fcHandlers[i]? =
      some (if i < 15 ∧ i ≤ k then handlers.getD i 0 else 0) := by
  have hafter : (registrationAfter (handlers.take k) handler).after =
      tableAfter (handlers.take (k + 1)) := by
    rw [List.take_add_one, hk]
    rfl
  rw [hafter, tableAfter_getElem? _ hi, Option.some.injEq]
  by_cases hik : i ≤ k
  · simp [hik, Nat.lt_succ_of_le hik]
  · simp [hik, show ¬ i < k + 1 by omega]

/-- What holds of a call after any others holds of every call of a run. -/
theorem forall_registrations {handlers : List DOS_FCALL_HANDLER} {rs : List Registration}
    (h : registrations FarCalls.zero handlers = some rs) {P : Registration → Prop}
    (hP : ∀ done handler, P (registrationAfter done handler)) : ∀ r ∈ rs, P r := by
  intro r hr
  obtain ⟨k, hk⟩ := List.mem_iff_getElem?.mp hr
  obtain ⟨handler, _, _, rfl⟩ := registration_eq h hk
  exact hP _ handler

/-- What holds of a call and any later one holds of every such pair of a run. -/
theorem pairwise_registrations {handlers : List DOS_FCALL_HANDLER} {rs : List Registration}
    (h : registrations FarCalls.zero handlers = some rs) {R : Registration → Registration → Prop}
    (hR : ∀ k j handler handler', k < j → handlers[k]? = some handler →
      handlers[j]? = some handler' → (handlers.take k).length = k →
      (handlers.take j).length = j → R (registrationAfter (handlers.take k) handler)
        (registrationAfter (handlers.take j) handler')) : rs.Pairwise R := by
  refine List.pairwise_iff_getElem.mpr fun k j hk hj hkj => ?_
  obtain ⟨handler, hhandler, hlen, hr⟩ := registration_eq h (List.getElem?_eq_getElem hk)
  obtain ⟨handler', hhandler', hlen', hr'⟩ := registration_eq h (List.getElem?_eq_getElem hj)
  rw [hr, hr']
  exact hR k j handler handler' hkj hhandler hhandler' hlen hlen'

/-- For every run of registrations from the static initialisers, of any length: no call stores
outside the table, no stored handler is overwritten, the addresses rise within their range, and the
first refusal is the last change. What a call of such an address comes to is not said here. -/
theorem registrations_safe (handlers : List DOS_FCALL_HANDLER) :
    ∃ rs, registrations FarCalls.zero handlers = some rs ∧ SafeRegistrations rs := by
  obtain ⟨rs, hrs⟩ := registrations_total handlers
  refine ⟨rs, hrs, ⟨?stored, ?kept, ?increasing, ?inRange, ?unchanged, ?refused⟩⟩
  case stored =>
    refine forall_registrations hrs fun done handler hok => ?_
    have hroom := (registrationAfter_succeeded _ _).mp hok
    have hstored := congrArg FarCalls.fcHandlers (tableAfter_append done handler hroom)
    refine ⟨?_, hstored⟩
    rw [registrationAfter_slot]
    unfold MAX_SUPPORTED_FAR_CALLS
    omega
  case kept =>
    refine pairwise_registrations hrs
      fun k j handler handler' hkj hhandler hhandler' hlen hlen' hok => ?_
    rw [registrationAfter_succeeded, hlen] at hok
    rw [registrationAfter_succeeded, registrationAfter_slot, registrationAfter_slot, hlen, hlen']
    constructor
    · rw [min_eq_left hok.le, registration_after hhandler' (by omega), if_pos ⟨hok, hkj.le⟩,
        List.getD_eq_getElem?_getD, hhandler]
      rfl
    · omega
  case increasing =>
    refine pairwise_registrations hrs fun k j handler handler' hkj _ _ hlen hlen' hok hok' => ?_
    rw [registrationAfter_succeeded] at hok hok'
    rw [BitVec.lt_def, registrationAfter_address _ _ hok, registrationAfter_address _ _ hok', hlen,
      hlen']
    omega
  case inRange =>
    refine forall_registrations hrs fun done handler hok => ?_
    have hroom := (registrationAfter_succeeded _ _).mp hok
    have hbase : FAR_CALL_BASE_ADDR.toNat = 0xF0010 := rfl
    have hbound : (FAR_CALL_BASE_ADDR + FAR_CALL_UPPER_BOUND_OFFSET).toNat = 0xF001F := rfl
    rw [BitVec.le_def, BitVec.le_def, registrationAfter_address _ _ hroom, hbase, hbound]
    omega
  case unchanged =>
    refine forall_registrations hrs fun done handler hrefused => ?_
    rw [registrationAfter_succeeded] at hrefused
    exact tableAfter_append_full _ handler (by omega)
  case refused =>
    refine pairwise_registrations hrs fun k j handler handler' hkj _ _ hlen hlen' hrefused => ?_
    rw [registrationAfter_succeeded, hlen] at hrefused
    rw [registrationAfter_succeeded, hlen']
    omega

/-- The slot an address leads to is the one after the handler's own, which no call has filled by
then. -/
theorem registration_addressSlot {handlers : List DOS_FCALL_HANDLER} {k j : Nat}
    {handler handler' : DOS_FCALL_HANDLER} (hlen : (handlers.take k).length = k) (hroom : k < 15)
    (hj : handlers[j]? = some handler') :
    (registrationAfter (handlers.take j) handler').after.fcHandlers[
        (registrationAfter (handlers.take k) handler).addressSlot]? =
      some (if k + 1 < 15 ∧ k + 1 ≤ j then handlers.getD (k + 1) 0 else 0) := by
  rw [registrationAfter_addressSlot _ _ (by omega), hlen]
  exact registration_after hj (by omega)

/-- What the law says of a call, taken right after it: one of the first fifteen, and a null handler,
as the slot that its address names is still empty. -/
theorem AddressesIndexHandlers.call {handlers : List DOS_FCALL_HANDLER} {rs : List Registration}
    (hlaw : AddressesIndexHandlers rs) (hrs : registrations FarCalls.zero handlers = some rs)
    {k : Nat} {handler : DOS_FCALL_HANDLER} (hk : k < 16) (hhandler : handlers[k]? = some handler) :
    k < 15 ∧ handler = 0 := by
  have hr := registration_getElem? hrs k
  rw [hhandler, Option.map_some] at hr
  obtain ⟨hok, hleads⟩ := hlaw k _ hk hr
  have hlen : (handlers.take k).length = k :=
    List.length_take_of_le (List.getElem?_eq_some_iff.mp hhandler).1.le
  have hroom := (registrationAfter_succeeded _ _).mp hok
  rw [hlen] at hroom
  have hslot := hleads k _ le_rfl hr
  rw [registration_addressSlot hlen hroom hhandler, if_neg (by omega)] at hslot
  exact ⟨hroom, (Option.some.inj hslot).symm⟩

/-- For every run of registrations from the static initialisers: the addresses lead to their
handlers exactly when there are at most fifteen calls and every handler is NULL. Each address names
the slot behind that of its handler, which is empty until the next call. -/
theorem addressesIndexHandlers_iff (handlers : List DOS_FCALL_HANDLER) :
    (∃ rs, registrations FarCalls.zero handlers = some rs ∧ AddressesIndexHandlers rs) ↔
      handlers.length ≤ 15 ∧ ∀ handler ∈ handlers, handler = 0 := by
  constructor
  · intro h
    obtain ⟨rs, hrs, hlaw⟩ := h
    have hlength : handlers.length ≤ 15 := by
      by_contra hlong
      have hlast : handlers[15]? = some handlers[15] := List.getElem?_eq_getElem (by omega)
      exact absurd (hlaw.call hrs (by omega) hlast).1 (by omega)
    refine ⟨hlength, fun handler hmem => ?_⟩
    obtain ⟨k, hk⟩ := List.mem_iff_getElem?.mp hmem
    have hlt : k < handlers.length := (List.getElem?_eq_some_iff.mp hk).1
    exact (hlaw.call hrs (by omega) hk).2
  · intro h
    obtain ⟨hlength, hnull⟩ := h
    obtain ⟨rs, hrs⟩ := registrations_total handlers
    refine ⟨rs, hrs, fun k r hk hr => ?_⟩
    obtain ⟨handler, hhandler, hlen, rfl⟩ := registration_eq hrs hr
    have hlt : k < handlers.length := (List.getElem?_eq_some_iff.mp hhandler).1
    refine ⟨(registrationAfter_succeeded _ _).mpr (by omega), fun j r' _ hr' => ?_⟩
    obtain ⟨handler', hhandler', _, rfl⟩ := registration_eq hrs hr'
    rw [registration_addressSlot hlen (by omega) hhandler']
    have hzero : handlers.getD (k + 1) 0 = 0 := by
      by_cases hnext : k + 1 < handlers.length
      · rw [List.getD_eq_getElem _ _ hnext]
        exact hnull _ (List.getElem_mem hnext)
      · exact List.getD_eq_default _ _ (by omega)
    have hhandler0 : handler = 0 := hnull _ (List.mem_of_getElem? hhandler)
    rw [hzero, ite_self]
    exact congrArg some hhandler0.symm

/-- The first handler that is registered is not found at the address that was answered for it. -/
theorem addressesIndexHandlers_first :
    ¬ ∃ rs, registrations FarCalls.zero [0xC0104000] = some rs ∧ AddressesIndexHandlers rs := by
  intro h
  obtain ⟨rs, hrs, hlaw⟩ := h
  have hnull := (hlaw.call hrs (k := 0) (by decide) rfl).2
  exact absurd hnull (by decide)

end OS90.Laws
