import OS90.Kernel.DosServer
import OS90.Laws.TrapChain
import OS90.Lib.Run

/-!
# The DOS server among drivers

`KeInit_DOS_Server` registers its handler behind INT 2Fh and in the far-call table. Drivers go on to
hook vectors and to register far calls, and a critical error detaches all links, in any order and
any number of times. `Serves` is what is left of the server then.

Behind INT 2Fh it is found exactly as long as nobody else hooks that vector and no link is detached.
Its slot of the far-call table is never overwritten. The address it was answered is that of the next
slot, which is the next driver's: a program that calls it to switch to protected mode is in that
driver's handler (`dosServer_run`).
-/

namespace OS90.Laws

open OS90.Kernel OS90.Run

/-- A call that is made of the two tables when the link `lnk` is the server's. -/
inductive TableCall (lnk : LinkPtr) where
  /-- A driver hooks a vector, with a link of its own. -/
  | hook (h : Hook) (own : h.link ≠ lnk)
  /-- A driver registers a far call. -/
  | farCall (handler : DOS_FCALL_HANDLER)
  /-- A critical error. -/
  | detach

/-- The vector of the server. -/
def serverVector : BYTE := 0x2F

namespace TableCall

variable {lnk : LinkPtr}

def step (s : DosServer) : TableCall lnk → Option DosServer
  | .hook h _ => do return { s with chains := ← scHookDosTrap h.vector h.link h.hnd s.chains }
  | .farCall handler => do
    let (_, farCalls) ← (scInsertFarCallHandler handler).run s.farCalls
    return { s with farCalls }
  | .detach => some { s with chains := scOnErrorDetatchLinks s.chains }

/-- Calls after which the server's link is not behind its vector. -/
def Displaces : TableCall lnk → Prop
  | .hook h _ => h.index = serverVector
  | .farCall _ => False
  | .detach => True

/-- The handlers of far calls, in order. -/
def farCall? : TableCall lnk → Option DOS_FCALL_HANDLER
  | .farCall handler => some handler
  | _ => none

end TableCall

open TableCall

/-- The chain of INT 2Fh is the server's link, with its handler. -/
structure Linked2F (lnk : LinkPtr) (handler : PTR) (c : Chains) : Prop where
  follows : Follows c (c.head serverVector).next [lnk]
  handler : (c.link lnk).handler = handler

/-- What is left of the server, which was initialised in `s`, when these calls have been made. -/
structure Serves (lnk : LinkPtr) (handler : PTR) (s : DosServer) (calls : List (TableCall lnk))
    (s' : DosServer) : Prop where
  chain : Linked2F lnk handler s'.chains ↔ ∀ c ∈ calls, ¬ c.Displaces
  own : s.farCalls.hndInx.toNat < 15 →
    s'.farCalls.fcHandlers[s.farCalls.hndInx.toNat]? = some handler
  entry : s'.dpmiEntryFarcall =
    if s.farCalls.hndInx.toNat < 15
      then FAR_CALL_BASE_ADDR + BitVec.ofNat 32 (s.farCalls.hndInx.toNat + 1)
    else -1#32
  /-- What is called at that address. -/
  called : s.farCalls.hndInx.toNat < 14 →
    s'.farCalls.fcHandlers[s.farCalls.hndInx.toNat + 1]? =
      (calls.filterMap farCall?).head?.or s.farCalls.fcHandlers[s.farCalls.hndInx.toNat + 1]?

/-! ## The chain -/

section Chain

variable {lnk : LinkPtr} {handler : PTR}

/-- A chain of one link begins with it and has nothing behind it. -/
theorem follows_singleton {c : Chains} {p : LinkPtr} {start : Option LinkPtr} :
    Follows c start [p] ↔ start = some p ∧ (c.link p).next = none := by
  cases start with
  | none => exact ⟨fun h => h.elim, fun h => nomatch h.1⟩
  | some q =>
    unfold Follows
    constructor
    · rintro ⟨rfl, hrest⟩
      refine ⟨rfl, ?_⟩
      cases hnext : (c.link q).next with
      | none => rfl
      | some r =>
        rw [hnext] at hrest
        exact hrest.elim
    · rintro ⟨hq, hnext⟩
      obtain rfl := Option.some.inj hq
      rw [hnext]
      exact ⟨rfl, trivial⟩

/-- What is behind a vector after a hook, and all links: the new one is put behind its own vector,
and no other vector is touched. -/
theorem hooked_next {vector : VINT} (hvector : vector.toNat < CAPTURE_DOS_FUNCTIONS) {new : LinkPtr}
    {hnd : V86_HANDLER} {c c' : Chains} (h : scHookDosTrap vector new hnd c = some c') :
    (∀ v, (c'.head v).next = if v = vector.setWidth 8 then some new else (c.head v).next) ∧
      ∀ p, c'.link p = if p = new then ⟨hnd, none⟩ else c.link p := by
  rw [scHookDosTrap_run hvector] at h
  obtain rfl := Option.some.inj h
  refine ⟨fun v => ?_, fun p => ?_⟩
  · dsimp only
    rw [Function.update_apply]
    split
    · rfl
    · rfl
  · dsimp only
    rw [Function.update_apply]

/-- The hook of the server itself leaves its link behind vector 2Fh. -/
theorem keInit_linked {c c' : Chains} (h : scHookDosTrap 0x2F lnk handler c = some c') :
    Linked2F lnk handler c' := by
  obtain ⟨hnext, hlink⟩ := hooked_next (by decide) h
  have hown : c'.link lnk = ⟨handler, none⟩ := by
    rw [hlink, if_pos rfl]
  refine ⟨follows_singleton.mpr ⟨?_, ?_⟩, ?_⟩
  · rw [hnext, if_pos (by decide)]
  · rw [hown]
  · rw [hown]

/-- Of the chain of the server, a call of a driver can change what is behind the vector, but not the
link. -/
theorem step_chain {s s' : DosServer} {call : TableCall lnk} (h : call.step s = some s') :
    s'.chains.link lnk = s.chains.link lnk ∧
      ((s'.chains.head serverVector).next = some lnk ↔
        (s.chains.head serverVector).next = some lnk ∧ ¬ call.Displaces) := by
  cases call with
  | hook k own =>
    obtain ⟨c, hc, hs'⟩ := Option.bind_eq_some_iff.mp h
    obtain rfl := Option.some.inj hs'
    obtain ⟨hnext, hlink⟩ := hooked_next k.vector_lt hc
    refine ⟨(hlink lnk).trans (if_neg own.symm), ?_⟩
    show (c.head serverVector).next = _ ↔ _ ∧ ¬ k.index = serverVector
    rw [hnext]
    by_cases hv : serverVector = k.vector.setWidth 8
    · rw [if_pos hv]
      refine iff_of_false (fun heq => own (Option.some.inj heq)) fun hkept => hkept.2 hv.symm
    · rw [if_neg hv]
      exact (and_iff_left fun heq => hv heq.symm).symm
  | farCall handler =>
    obtain ⟨_, _, hs'⟩ := Option.bind_eq_some_iff.mp h
    obtain rfl := Option.some.inj hs'
    exact ⟨rfl, (and_iff_left id).symm⟩
  | detach =>
    obtain rfl := Option.some.inj h
    exact ⟨rfl, iff_of_false nofun fun hkept => hkept.2 trivial⟩

/-- After any run, the chain is the server's exactly if no call of the run displaced it, by
induction on the run. -/
theorem linked_iff {s s' : DosServer} (hs : Linked2F lnk handler s.chains)
    {calls : List (TableCall lnk)} (hend : final (fun s c => c.step s) s calls = some s') :
    Linked2F lnk handler s'.chains ↔ ∀ c ∈ calls, ¬ c.Displaces := by
  obtain ⟨hbehind, halone⟩ := follows_singleton.mp hs.follows
  -- no call writes to the link itself
  have hlink : s'.chains.link lnk = s.chains.link lnk :=
    final_inv (fun t : DosServer => t.chains.link lnk = s.chains.link lnk)
      (fun _ _ _ ht hstep => (step_chain hstep).1.trans ht) rfl hend
  have hiff : Linked2F lnk handler s'.chains ↔
      (s'.chains.head serverVector).next = some lnk := by
    constructor
    · intro h
      exact (follows_singleton.mp h.follows).1
    · intro h
      refine ⟨follows_singleton.mpr ⟨h, ?_⟩, ?_⟩
      · rw [hlink]
        exact halone
      · rw [hlink]
        exact hs.handler
  rw [hiff]
  refine final_iff_forall_mem (fun s => (s.chains.head serverVector).next = some lnk)
    (fun t c t' ht hstep => ?_) (fun t c t' ht hstep => ?_) hbehind hend
  · exact (step_chain hstep).2.trans (and_iff_right ht)
  · exact fun hkept => ht ((step_chain hstep).2.mp hkept).1

end Chain

/-! ## The far calls -/

/-- A slot that is given out, in a table in its bounds. -/
structure Given (k : Nat) (handler : DOS_FCALL_HANDLER) (t : FarCalls) : Prop where
  lt : k < t.hndInx.toNat
  slot : t.fcHandlers[k]? = some handler

/-- What a registration does to a table: the next slot is given out, until there is none. -/
theorem insert_spec {t : FarCalls} (hle : t.hndInx.toNat ≤ 15) (handler : DOS_FCALL_HANDLER) :
    ∃ t', (scInsertFarCallHandler handler).run t = some
        (if t.hndInx.toNat < 15 then FAR_CALL_BASE_ADDR + BitVec.ofNat 32 (t.hndInx.toNat + 1)
          else -1#32, t') ∧
      t'.hndInx.toNat = min (t.hndInx.toNat + 1) 15 ∧
      (t.hndInx.toNat < 15 → Given t.hndInx.toNat handler t') ∧
      ∀ i ≠ t.hndInx.toNat, t'.fcHandlers[i]? = t.fcHandlers[i]? := by
  by_cases hroom : t.hndInx.toNat < 15
  · have hin : t.hndInx.toNat < MAX_SUPPORTED_FAR_CALLS := Nat.lt_succ_of_lt hroom
    have hnext : (t.hndInx + 1#16).toNat = t.hndInx.toNat + 1 := by
      rw [BitVec.toNat_add, BitVec.toNat_ofNat]
      omega
    rw [if_pos hroom]
    refine ⟨_, scInsertFarCallHandler_run t handler hroom, ?_, fun _ => ⟨?_, ?_⟩, fun i hi => ?_⟩
    · rw [min_eq_left (by omega)]
      exact hnext
    · show t.hndInx.toNat < (t.hndInx + 1#16).toNat
      omega
    · exact Vector.getElem?_set_self hin
    · exact Vector.getElem?_set_ne hin hi.symm
  · rw [if_neg hroom]
    refine ⟨t, scInsertFarCallHandler_run_full t handler (by omega), ?_, fun h => absurd h hroom,
      fun _ _ => rfl⟩
    rw [min_eq_right (by omega)]
    omega

section FarCalls

variable {lnk : LinkPtr}

/-- Every call can be made while the table is in its bounds, and leaves it there. The entry of the
server is not changed by any. -/
theorem step_total {s : DosServer} (hle : s.farCalls.hndInx.toNat ≤ 15) (call : TableCall lnk) :
    ∃ s', call.step s = some s' ∧ s'.farCalls.hndInx.toNat ≤ 15 ∧
      s'.dpmiEntryFarcall = s.dpmiEntryFarcall := by
  cases call with
  | hook h _ =>
    obtain ⟨c, hc⟩ : ∃ c, scHookDosTrap h.vector h.link h.hnd s.chains = some c :=
      ⟨_, scHookDosTrap_run h.vector_lt h.link h.hnd s.chains⟩
    refine ⟨{ s with chains := c }, ?_, hle, rfl⟩
    unfold TableCall.step
    dsimp only
    rw [hc]
    rfl
  | farCall handler =>
    obtain ⟨t, ht, hnext, _⟩ := insert_spec hle handler
    refine ⟨{ s with farCalls := t }, ?_, ?_, rfl⟩
    · unfold TableCall.step
      dsimp only
      rw [ht]
      rfl
    · show t.hndInx.toNat ≤ 15
      omega
  | detach => exact ⟨_, rfl, hle, rfl⟩

/-- What a call does to the far-call table: a registration adds to it, and others leave it. -/
theorem step_farCalls {s s' : DosServer} {call : TableCall lnk} (h : call.step s = some s') :
    match call.farCall? with
    | none => s'.farCalls = s.farCalls
    | some handler => ∃ answer,
      (scInsertFarCallHandler handler).run s.farCalls = some (answer, s'.farCalls) := by
  cases call with
  | hook k _ =>
    obtain ⟨_, _, hs'⟩ := Option.bind_eq_some_iff.mp h
    obtain rfl := Option.some.inj hs'
    rfl
  | farCall handler =>
    obtain ⟨⟨answer, t⟩, ht, hs'⟩ := Option.bind_eq_some_iff.mp h
    obtain rfl := Option.some.inj hs'
    exact ⟨answer, ht⟩
  | detach =>
    obtain rfl := Option.some.inj h
    rfl

/-- No call takes a slot back from the handler it was given to. -/
theorem Given.step {k : Nat} {handler : DOS_FCALL_HANDLER} {s s' : DosServer}
    (h : s.farCalls.hndInx.toNat ≤ 15 ∧ Given k handler s.farCalls) {call : TableCall lnk}
    (hstep : call.step s = some s') :
    s'.farCalls.hndInx.toNat ≤ 15 ∧ Given k handler s'.farCalls := by
  obtain ⟨hle, hlt, hslot⟩ := h
  have hcall := step_farCalls hstep
  cases hfar : call.farCall? with
  | none =>
    rw [hfar] at hcall
    have hsame : s'.farCalls = s.farCalls := hcall
    rw [hsame]
    exact ⟨hle, hlt, hslot⟩
  | some handler' =>
    rw [hfar] at hcall
    obtain ⟨answer, hrun⟩ := hcall
    obtain ⟨t, ht, hnext, _, hothers⟩ := insert_spec hle handler'
    obtain rfl : t = s'.farCalls := congrArg Prod.snd (Option.some.inj (ht.symm.trans hrun))
    exact ⟨by omega, by omega, (hothers k (by omega)).trans hslot⟩

/-- The slot after the last is that of the first registration that follows, if there is one and the
table has room. -/
theorem next_slot {s s' : DosServer} (hroom : s.farCalls.hndInx.toNat < 15)
    {calls : List (TableCall lnk)} (hend : final (fun s c => c.step s) s calls = some s') :
    s'.farCalls.fcHandlers[s.farCalls.hndInx.toNat]? =
      (calls.filterMap farCall?).head?.or s.farCalls.fcHandlers[s.farCalls.hndInx.toNat]? := by
  induction calls generalizing s with
  | nil =>
    cases hend
    rfl
  | cons call calls ih =>
    obtain ⟨s₁, hstep, hend⟩ := Option.bind_eq_some_iff.mp hend
    have hcall := step_farCalls hstep
    cases hfar : call.farCall? with
    | none =>
      rw [hfar] at hcall
      have hsame : s₁.farCalls = s.farCalls := hcall
      rw [List.filterMap_cons_none hfar, ← hsame]
      exact ih (by rw [hsame]; exact hroom) hend
    | some handler =>
      rw [hfar] at hcall
      obtain ⟨answer, hrun⟩ := hcall
      obtain ⟨t, ht, hnext, hgiven, _⟩ := insert_spec (Nat.le_of_lt hroom) handler
      obtain rfl : t = s₁.farCalls := congrArg Prod.snd (Option.some.inj (ht.symm.trans hrun))
      rw [List.filterMap_cons_some hfar]
      exact (final_inv _ (fun _ _ _ h hstep => Given.step h hstep)
        ⟨by omega, hgiven hroom⟩ hend).2.slot

end FarCalls

/-- For every state of the two tables, every handler and every number and order of calls: the
server's link is behind INT 2Fh exactly if none of them hooks that vector or detaches the links, its
far call is never taken away, and the address it was answered leads to the handler of the first far
call after it. The premise is that the index is at most 15; with a full table the server has no far
call to lose. -/
theorem dosServer_run {lnk : LinkPtr} {handler : PTR} {s : DosServer}
    (hle : s.farCalls.hndInx.toNat ≤ 15) (calls : List (TableCall lnk)) :
    ∃ s₀ s', keInit_DOS_Server lnk handler s = some s₀ ∧
      final (fun s c => c.step s) s₀ calls = some s' ∧ Serves lnk handler s calls s' := by
  obtain ⟨c, hc⟩ : ∃ c, scHookDosTrap 0x2F lnk handler s.chains = some c :=
    ⟨_, scHookDosTrap_run (by decide) lnk handler s.chains⟩
  obtain ⟨t, ht, hnext, hgiven, hothers⟩ := insert_spec hle handler
  obtain ⟨entry, hentry⟩ : ∃ entry : DWORD, entry = if s.farCalls.hndInx.toNat < 15
      then FAR_CALL_BASE_ADDR + BitVec.ofNat 32 (s.farCalls.hndInx.toNat + 1)
    else -1#32 := ⟨_, rfl⟩
  rw [← hentry] at ht
  have hinit : keInit_DOS_Server lnk handler s = some ⟨c, t, entry⟩ := by
    unfold keInit_DOS_Server
    rw [hc, Option.bind_eq_bind, Option.bind_some, ht]
    rfl
  have hbound : t.hndInx.toNat ≤ 15 := by omega
  obtain ⟨s', hend, _, hkept⟩ := exists_final
    (fun r : DosServer => r.farCalls.hndInx.toNat ≤ 15 ∧ r.dpmiEntryFarcall = entry)
    (fun r call hr => by
      obtain ⟨r', hstep, hle', heq⟩ := step_total hr.1 call
      exact ⟨r', hstep, hle', heq.trans hr.2⟩) (s := ⟨c, t, entry⟩) ⟨hbound, rfl⟩ calls
  refine ⟨_, s', hinit, hend, linked_iff (keInit_linked hc) hend, fun hroom => ?_,
    hkept.trans hentry, fun hroom => ?_⟩
  · exact (final_inv _ (fun _ _ _ h hstep => Given.step h hstep) ⟨hbound, hgiven hroom⟩ hend).2.slot
  · have hslot := next_slot (s := ⟨c, t, entry⟩) (by dsimp only; omega) hend
    dsimp only at hslot
    have hindex : t.hndInx.toNat = s.farCalls.hndInx.toNat + 1 := by omega
    rw [hindex, hothers _ (by omega)] at hslot
    exact hslot

/-- The server's link, in the kernel's data. -/
def serverLink : LinkPtr := ⟨0xC0110000, by decide⟩

/-- A driver registers a far call after the server, and there is an error. -/
def driverCalls : List (TableCall serverLink) := [.farCall 0xC0150000, .detach]

/-- The server and a driver beside it, from the zero tables. -/
theorem dosServer_run_driver :
    ∃ s₀ s', keInit_DOS_Server serverLink 0xC0102000 ⟨.zero, .zero, 0⟩ = some s₀ ∧
      final (fun s c => c.step s) s₀ driverCalls = some s' ∧
      Serves serverLink 0xC0102000 ⟨.zero, .zero, 0⟩ driverCalls s' := by
  have hle : (DosServer.mk .zero .zero 0).farCalls.hndInx.toNat ≤ 15 := by decide
  exact dosServer_run hle driverCalls

end OS90.Laws
