import Mathlib.Data.List.Nodup
import OS90.Kernel.DosServer
import OS90.Lib.Run

/-!
# Trap hooks are not lost

Drivers hook vectors with links of their own, in any order. `Kept` is that following `next` from
the head of a vector's chain finds the links hooked on it, in the order of their registration and
nothing else, and that each has its handler.

`ScHookDosTrap` puts every new link right behind the head, and ends the chain there. So a chain is
its stub and the link hooked last, and the law holds for a vector exactly when it has been hooked
at most once (`trapChain_kept_iff`).

A null handler is an invalid entry of a chain. `DetachLaw` is that no run of hooks and detachments
after `InitV86` ever has one within reach of a vector, and that a detachment gives back the table of
stubs that `InitV86` has made.

A detachment sets the whole table to zero, the stubs with it: what it leaves is not that table, and
every vector has a null handler. Hooks alone keep the law, since they never write to a stub's
handler and end every chain at the link they add (`Hooked`). So the law is that of the runs in which
no error has detached the links (`detachLaw_iff`).
-/

namespace OS90.Laws

open OS90.Kernel OS90.Run

/-- A call of `ScHookDosTrap`. -/
structure Hook where
  vector : VINT
  vector_lt : vector.toNat < CAPTURE_DOS_FUNCTIONS
  link : LinkPtr
  hnd : V86_HANDLER

/-- Its place in the array. -/
def Hook.index (h : Hook) : BYTE := h.vector.setWidth 8

/-- Calls with links of their own. -/
structure Registrations where
  hooks : List Hook
  distinct : (hooks.map Hook.link).Nodup

/-- The calls one after the other. -/
def hookAll (hooks : List Hook) (c : Chains) : Option Chains :=
  hooks.foldlM (fun c h => scHookDosTrap h.vector h.link h.hnd c) c

/-- The links hooked on a vector, in order. -/
def linksOn (v : BYTE) (hooks : List Hook) : List LinkPtr :=
  (hooks.filter fun h => h.index = v).map Hook.link

def Kept (captStub : V86_HANDLER) (hooks : List Hook) (v : BYTE) (c : Chains) : Prop :=
  (c.head v).handler = captStub ∧ Follows c (c.head v).next (linksOn v hooks) ∧
    ∀ h ∈ hooks, h.index = v → (c.link h.link).handler = h.hnd

/-- What the calls so far have left: behind each stub the last link, and every link alone. -/
structure HooksInv (captStub : V86_HANDLER) (hooks : List Hook) (c : Chains) : Prop where
  head : ∀ v, c.head v = ⟨captStub, (linksOn v hooks).getLast?⟩
  link : ∀ h ∈ hooks, c.link h.link = ⟨h.hnd, none⟩

/-- One hook more is one link more on its own vector. -/
theorem linksOn_append (v : BYTE) (hooks : List Hook) (h : Hook) :
    linksOn v (hooks ++ [h]) = if h.index = v then linksOn v hooks ++ [h.link]
      else linksOn v hooks := by
  unfold linksOn
  rw [List.filter_append, List.map_append]
  by_cases hv : h.index = v
  · rw [if_pos hv]
    simp [hv]
  · rw [if_neg hv]
    simp [hv]

/-- After the initialisation there are no hooks, and every chain is the stub. -/
theorem initV86_inv (captStub : V86_HANDLER) (c : Chains) :
    HooksInv captStub [] (initV86 captStub c) :=
  ⟨fun v => initV86_head captStub c v, fun _ hh => absurd hh List.not_mem_nil⟩

/-- One more call, with a link that has not been used: the chain of its vector is the new link
alone, and the others are kept. -/
theorem HooksInv.hook {captStub : V86_HANDLER} {hooks : List Hook} {c : Chains}
    (hinv : HooksInv captStub hooks c) {h : Hook} (hnew : h.link ∉ hooks.map Hook.link) :
    ∃ c', scHookDosTrap h.vector h.link h.hnd c = some c' ∧
      HooksInv captStub (hooks ++ [h]) c' := by
  refine ⟨_, scHookDosTrap_run h.vector_lt h.link h.hnd c, fun v => ?_, fun k hk => ?_⟩
  · rw [linksOn_append]
    by_cases hv : h.index = v
    · subst hv
      rw [if_pos rfl, List.getLast?_concat]
      refine (Function.update_self _ _ _).trans ?_
      rw [hinv.head]
    · rw [if_neg hv, ← hinv.head v]
      exact Function.update_of_ne (Ne.symm hv) _ _
  · rcases List.mem_append.mp hk with hold | hlast
    · have hne : k.link ≠ h.link := fun heq => hnew (heq ▸ List.mem_map_of_mem hold)
      exact (Function.update_of_ne hne _ _).trans (hinv.link k hold)
    · rw [List.mem_singleton.mp hlast]
      exact Function.update_self _ _ _

/-- Any number of calls, by induction. All links together have to be distinct. -/
theorem HooksInv.hookAll {captStub : V86_HANDLER} {before hooks : List Hook} {c : Chains}
    (hinv : HooksInv captStub before c) (hdistinct : ((before ++ hooks).map Hook.link).Nodup) :
    ∃ c', hookAll hooks c = some c' ∧ HooksInv captStub (before ++ hooks) c' := by
  induction hooks generalizing before c with
  | nil =>
    rw [List.append_nil]
    exact ⟨c, rfl, hinv⟩
  | cons h hooks ih =>
    have hsplit : before ++ h :: hooks = (before ++ [h]) ++ hooks := by
      rw [List.append_assoc]
      rfl
    have hnew : h.link ∉ before.map Hook.link := by
      rw [List.map_append, List.map_cons] at hdistinct
      exact fun hmem => (List.nodup_append.mp hdistinct).2.2 _ hmem _ List.mem_cons_self rfl
    obtain ⟨c', hstep, hinv'⟩ := hinv.hook hnew
    rw [hsplit] at hdistinct ⊢
    obtain ⟨c'', hrest, hinv''⟩ := ih hinv' hdistinct
    refine ⟨c'', ?_, hinv''⟩
    unfold Laws.hookAll
    rw [List.foldlM_cons, hstep]
    exact hrest

/-- A chain of a stub and one link is all of the vector's links if there is no other. -/
theorem HooksInv.kept_iff {captStub : V86_HANDLER} {hooks : List Hook} {c : Chains}
    (hinv : HooksInv captStub hooks c) (hdistinct : (hooks.map Hook.link).Nodup) (v : BYTE) :
    Kept captStub hooks v c ↔ (linksOn v hooks).length ≤ 1 := by
  have hlinks : (linksOn v hooks).Nodup :=
    hdistinct.sublist (List.filter_sublist.map Hook.link)
  have halone : ∀ p ∈ linksOn v hooks, (c.link p).next = none := by
    intro p hp
    obtain ⟨h, hh, rfl⟩ := List.mem_map.mp hp
    rw [hinv.link h (List.mem_filter.mp hh).1]
  have hhandlers : ∀ h ∈ hooks, h.index = v → (c.link h.link).handler = h.hnd := by
    intro h hh _
    rw [hinv.link h hh]
  have hstub : (c.head v).handler = captStub := by
    rw [hinv.head]
  have hfollows : Follows c (c.head v).next (linksOn v hooks) ↔ (linksOn v hooks).length ≤ 1 := by
    rw [hinv.head]
    generalize linksOn v hooks = l at hlinks halone
    match l, hlinks, halone with
    | [], _, _ => exact iff_of_true trivial (Nat.zero_le 1)
    | [p], _, halone =>
      refine iff_of_true ⟨rfl, ?_⟩ (Nat.le_refl 1)
      show Follows c (c.link p).next []
      rw [halone p List.mem_cons_self]
      trivial
    | p :: q :: l, hlinks, _ =>
      refine iff_of_false (fun hfollows => ?_) (by simp)
      -- the link behind the stub is the last one, and not the first
      rw [List.getLast?_eq_some_getLast (List.cons_ne_nil p (q :: l))] at hfollows
      have hlast : (p :: q :: l).getLast (List.cons_ne_nil p (q :: l)) ∈ q :: l := by
        rw [List.getLast_cons (List.cons_ne_nil q l)]
        exact List.getLast_mem _
      rw [hfollows.1] at hlast
      exact (List.nodup_cons.mp hlinks).1 hlast
  unfold Kept
  rw [hfollows]
  exact ⟨fun h => h.2.1, fun h => ⟨hstub, h, hhandlers⟩⟩

/-- For every state before `InitV86` and every sequence of hooks with links of their own: all of
them are registered, and a vector's chain has kept its links exactly when it was hooked at most
once. That the links are distinct is a field of `Registrations`, and without it a chain could be
broken by its own link. -/
theorem trapChain_kept_iff (captStub : V86_HANDLER) (c : Chains) (r : Registrations) :
    ∃ c', hookAll r.hooks (initV86 captStub c) = some c' ∧
      ∀ v, Kept captStub r.hooks v c' ↔ (linksOn v r.hooks).length ≤ 1 := by
  have hempty : HooksInv captStub [] (initV86 captStub c) := initV86_inv captStub c
  have hdistinct : (([] ++ r.hooks).map Hook.link).Nodup := r.distinct
  obtain ⟨c', hrun, hinv⟩ := hempty.hookAll hdistinct
  exact ⟨c', hrun, fun v => hinv.kept_iff r.distinct v⟩

/-- Two drivers hook INT 21h. -/
def twoDrivers : Registrations where
  hooks := [⟨0x21, by decide, ⟨0xC0300000, by decide⟩, 0xC0301000⟩,
    ⟨0x21, by decide, ⟨0xC0400000, by decide⟩, 0xC0401000⟩]
  distinct := by decide

/-- Of two drivers that hook one vector, the first is lost. -/
theorem trapChain_twoDrivers :
    ∃ c', hookAll twoDrivers.hooks (initV86 0xC0102000 .zero) = some c' ∧
      ¬ Kept 0xC0102000 twoDrivers.hooks 0x21 c' := by
  obtain ⟨c', hrun, hinv⟩ :=
    (initV86_inv 0xC0102000 .zero).hookAll twoDrivers.distinct
  refine ⟨c', hrun, fun hkept => ?_⟩
  have hlength := (hinv.kept_iff twoDrivers.distinct 0x21).mp hkept
  exact absurd hlength (by decide)

/-! ## Detaching every link -/

/-- The address of a function. -/
abbrev HandlerPtr := { p : V86_HANDLER // p ≠ 0 }

inductive TrapEvent where
  /-- A driver hooks a vector, with a handler that is not null. -/
  | hook (h : Hook) (hnd : h.hnd ≠ 0)
  /-- A critical error. -/
  | detach

def trapStep (c : Chains) : TrapEvent → Option Chains
  | .hook h _ => scHookDosTrap h.vector h.link h.hnd c
  | .detach => some (scOnErrorDetatchLinks c)

/-- The nodes on the way from a vector's head along `next`, the head with them. -/
inductive Reaches (c : Chains) (v : BYTE) : V86_CHAIN_LINK → Prop
  | head : Reaches c v (c.head v)
  | next {l : V86_CHAIN_LINK} {p : LinkPtr} :
    Reaches c v l → l.next = some p → Reaches c v (c.link p)

/-- A detachment gives back the table of stubs. -/
def Restores (captStub : V86_HANDLER) (before c : Chains) (e : TrapEvent) : Prop :=
  e = .detach → ∀ c', trapStep c e = some c' → c'.head = (initV86 captStub before).head

/-- The law of a run from `InitV86` on, whatever was in memory before. -/
structure DetachLaw (captStub : V86_HANDLER) (before : Chains) (es : List TrapEvent) : Prop where
  handlers : ∀ c ∈ states trapStep (initV86 captStub before) es, ∀ v l, Reaches c v l →
    l.handler ≠ 0
  restored : EachStep trapStep (Restores captStub before) (initV86 captStub before) es

/-- What hooks leave: the stubs, and behind each of them one link at most. -/
structure Hooked (captStub : V86_HANDLER) (c : Chains) : Prop where
  stub : ∀ v, (c.head v).handler = captStub
  link : ∀ v p, (c.head v).next = some p → (c.link p).handler ≠ 0 ∧ (c.link p).next = none

/-- Every event can happen in every state of the chains. -/
theorem trapStep_total (c : Chains) (e : TrapEvent) : ∃ c', trapStep c e = some c' := by
  cases e with
  | hook h _ => exact ⟨_, scHookDosTrap_run h.vector_lt h.link h.hnd c⟩
  | detach => exact ⟨_, rfl⟩

section Hooked

variable {captStub : V86_HANDLER} {c c' : Chains}

/-- The same state as one that hooks lead to. -/
theorem initV86_hooked (before : Chains) : Hooked captStub (initV86 captStub before) := by
  constructor
  · intro v
    rw [initV86_head]
  · intro v p hp
    rw [initV86_head] at hp
    cases hp

/-- A hook replaces what is behind one stub, by a link that ends its chain. So no chain is ever
longer than two. -/
theorem Hooked.hook (hc : Hooked captStub c) (h : Hook) (hnd : h.hnd ≠ 0)
    (hstep : trapStep c (.hook h hnd) = some c') : Hooked captStub c' := by
  have hrun := scHookDosTrap_run h.vector_lt h.link h.hnd c
  obtain rfl := Option.some.inj (hrun.symm.trans hstep)
  -- the link may be in use already, behind this stub or another
  have hlink : ∀ p, (c.link p).handler ≠ 0 ∧ (c.link p).next = none ∨ p = h.link →
      (Function.update c.link h.link ⟨h.hnd, none⟩ p).handler ≠ 0 ∧
        (Function.update c.link h.link ⟨h.hnd, none⟩ p).next = none := by
    intro p hp
    by_cases hnew : p = h.link
    · subst hnew
      rw [Function.update_self]
      exact ⟨hnd, rfl⟩
    · rw [Function.update_of_ne hnew]
      exact hp.resolve_right hnew
  constructor
  · intro v
    by_cases hv : v = h.vector.setWidth 8
    · subst hv
      dsimp only
      rw [Function.update_self]
      exact hc.stub _
    · dsimp only
      rw [Function.update_of_ne hv]
      exact hc.stub v
  · intro v p hp
    refine hlink p ?_
    by_cases hv : v = h.vector.setWidth 8
    · subst hv
      dsimp only at hp
      rw [Function.update_self] at hp
      exact .inr (Option.some.inj hp).symm
    · dsimp only at hp
      rw [Function.update_of_ne hv] at hp
      exact .inl (hc.link v p hp)

/-- From a vector there is nothing to reach but its stub and the link behind that. -/
theorem Hooked.reaches (hc : Hooked captStub c) {v : BYTE} {l : V86_CHAIN_LINK}
    (hl : Reaches c v l) :
    l = c.head v ∨ ∃ p, (c.head v).next = some p ∧ l = c.link p := by
  induction hl with
  | head => exact .inl rfl
  | @next l p _ hnext ih =>
    rcases ih with rfl | ⟨q, hq, rfl⟩
    · exact .inr ⟨p, hnext, rfl⟩
    · rw [(hc.link v q hq).2] at hnext
      cases hnext

/-- Every link that is reached has a handler, provided that the stub every chain begins with has
one. -/
theorem Hooked.handler_ne_zero (hc : Hooked captStub c) (hstub : captStub ≠ 0) {v : BYTE}
    {l : V86_CHAIN_LINK} (hl : Reaches c v l) : l.handler ≠ 0 := by
  rcases hc.reaches hl with rfl | ⟨p, hp, rfl⟩
  · rw [hc.stub]
    exact hstub
  · exact (hc.link v p hp).1

/-- A detachment leaves no stub, for it clears the heads altogether. -/
theorem not_hooked_detach (hstub : captStub ≠ 0) : ¬ Hooked captStub (scOnErrorDetatchLinks c) :=
  fun h => hstub (h.stub 0).symm

end Hooked

section Runs

variable (captStub : HandlerPtr) (before : Chains)

/-- The stubs are there in every state of a run exactly when it has no detachment. -/
theorem hooked_states_iff {c : Chains} (hc : Hooked captStub c) (es : List TrapEvent) :
    (∀ r ∈ states trapStep c es, Hooked captStub r) ↔
      EachStep trapStep (fun _ e => e ≠ .detach) c es := by
  refine forall_states_iff (fun c e hc => ?_) hc es
  cases e with
  | hook h hnd => exact iff_of_true (by simp) fun c' hstep => hc.hook h hnd hstep
  | detach =>
    refine iff_of_false (fun h => h rfl) fun h => ?_
    exact not_hooked_detach captStub.property (h _ rfl)

/-- No detachment restores the table, and every other event has nothing to restore. -/
theorem restores_iff (c : Chains) (e : TrapEvent) :
    Restores captStub before c e ↔ e ≠ .detach := by
  constructor
  · rintro h rfl
    have hhead := congrFun (h rfl _ rfl) 0
    rw [initV86_head] at hhead
    exact captStub.property (congrArg V86_CHAIN_LINK.handler hhead).symm
  · intro hne h
    exact absurd h hne

/-- A run that keeps the law has no detachment in it. -/
theorem DetachLaw.each {es : List TrapEvent} (h : DetachLaw captStub before es) :
    EachStep trapStep (fun _ e => e ≠ .detach) (initV86 captStub before) es :=
  (EachStep.congr (fun _ => True) (fun _ _ _ _ _ _ => trivial)
    (fun c e _ => restores_iff captStub before c e) trivial es).mp h.restored

/-- For every run of hooks and detachments, in any order and with links in use any number of times:
the law holds exactly when the links have never been detached. The state before is that of `InitV86`
over anything. -/
theorem detachLaw_iff (es : List TrapEvent) :
    DetachLaw captStub before es ↔ TrapEvent.detach ∉ es := by
  have hmem : (∀ e ∈ es, e ≠ .detach) ↔ TrapEvent.detach ∉ es :=
    ⟨fun h hin => h _ hin rfl, fun h e he heq => h (heq ▸ he)⟩
  rw [← hmem, ← eachStep_iff_forall_mem trapStep_total (s := initV86 captStub before)]
  constructor
  · exact DetachLaw.each captStub before
  · intro heach
    refine ⟨fun c hc v l hl => ?_, ?_⟩
    · have hhooked := (hooked_states_iff captStub (initV86_hooked before) es).mpr heach
      exact (hhooked c hc).handler_ne_zero captStub.property hl
    · refine (EachStep.congr (fun _ => True) (fun _ _ _ _ _ _ => trivial)
        (fun c e _ => restores_iff captStub before c e) trivial es).mpr heach

end Runs

/-- A critical error as the only event of a run. -/
theorem detachLaw_error :
    ¬ DetachLaw 0xC0102000 .zero [.detach] := by
  intro hlaw
  have heach := hlaw.each ⟨0xC0102000, by decide⟩
  exact heach.1 rfl

end OS90.Laws
