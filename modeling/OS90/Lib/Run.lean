import Mathlib.Logic.Basic

/-!
# Runs of a partial transition function

A system is a step function `σ → ε → Option σ`: what one event does to a state, `none` when the
event cannot happen there. A run is a list of events. `EachStep step P s es` says that `P` holds
of every step the run really takes, the event together with the state it is taken in;
`states step s es` are the states it goes through, and `final step s es` is the last of them if
every event can happen.

`EachStep.congr` trades one step property for another under an invariant, which is how a law about
every step is shown to hold exactly when a condition on every step does. `forall_states_iff` does
the same for a law about every state a run reaches.
-/

namespace OS90.Run

variable {σ ε : Type*} (step : σ → ε → Option σ)

/-- `P` holds at every step of the run, in the state that step is taken in. A run ends at the
first event that cannot happen. -/
def EachStep (P : σ → ε → Prop) : σ → List ε → Prop
  | _, [] => True
  | s, e :: es => P s e ∧ ∀ s', step s e = some s' → EachStep P s' es

/-- The states a run goes through, the first of them the one it starts in. -/
def states : σ → List ε → List σ
  | s, [] => [s]
  | s, e :: es =>
    s :: match step s e with
      | none => []
      | some s' => states s' es

/-- The state a run ends in, if every event of it can happen. -/
def final : σ → List ε → Option σ
  | s, [] => some s
  | s, e :: es => (step s e).bind fun s' => final s' es

variable {step}

/-- The state a run starts from is one of its states. -/
theorem start_mem_states (s : σ) (es : List ε) : s ∈ states step s es := by
  cases es with
  | nil => exact List.mem_singleton_self s
  | cons e es => exact List.mem_cons_self

/-- What holds of all states of a run holds of the first, and of all states after the first event if
that can happen. -/
theorem forall_mem_states_cons {P : σ → Prop} {s : σ} {e : ε} {es : List ε} :
    (∀ r ∈ states step s (e :: es), P r) ↔
      P s ∧ ∀ s', step s e = some s' → ∀ r ∈ states step s' es, P r := by
  rw [states, List.forall_mem_cons]
  refine and_congr_right fun _ => ?_
  cases step s e with
  | none => exact iff_of_true (fun _ hr => absurd hr List.not_mem_nil) (fun _ h => nomatch h)
  | some s' =>
    constructor
    · rintro h _ ⟨⟩
      exact h
    · exact fun h => h s' rfl

/-- What holds at the start and is kept by the events of a run holds in every state of it. -/
theorem forall_states_of {Inv : σ → Prop} {Q : ε → Prop}
    (keeps : ∀ s e s', Inv s → Q e → step s e = some s' → Inv s') {s : σ} (hs : Inv s)
    (es : List ε) (hes : ∀ e ∈ es, Q e) : ∀ r ∈ states step s es, Inv r := by
  induction es generalizing s with
  | nil =>
    intro r hr
    rw [List.mem_singleton.mp hr]
    exact hs
  | cons e es ih =>
    obtain ⟨he, hes⟩ := List.forall_mem_cons.mp hes
    exact forall_mem_states_cons.mpr ⟨hs, fun s' hstep => ih (keeps s e s' hs he hstep) hes⟩

/-- What holds at the start and is kept by every step holds in every state of a run. -/
theorem forall_states {Inv : σ → Prop} (keeps : ∀ s e s', Inv s → step s e = some s' → Inv s')
    {s : σ} (hs : Inv s) (es : List ε) : ∀ r ∈ states step s es, Inv r :=
  forall_states_of (fun s e s' h (_ : True) hstep => keeps s e s' h hstep) hs es
    fun _ _ => trivial

/-- A step property that an invariant gives holds of every step of a run that keeps it. -/
theorem EachStep.of_inv {P : σ → ε → Prop} {Inv : σ → Prop} {Q : ε → Prop}
    (keeps : ∀ s e s', Inv s → Q e → step s e = some s' → Inv s')
    (holds : ∀ s e, Inv s → Q e → P s e) {s : σ} (hs : Inv s) (es : List ε)
    (hes : ∀ e ∈ es, Q e) : EachStep step P s es := by
  induction es generalizing s with
  | nil => trivial
  | cons e es ih =>
    obtain ⟨he, hes⟩ := List.forall_mem_cons.mp hes
    exact ⟨holds s e hs he, fun s' hstep => ih (keeps s e s' hs he hstep) hes⟩

/-- Two step properties that agree wherever an invariant holds agree on whole runs. The invariant
need only survive the steps at which the property itself holds. -/
theorem EachStep.congr {P Q : σ → ε → Prop} (Inv : σ → Prop)
    (keeps : ∀ s e s', Inv s → P s e → step s e = some s' → Inv s')
    (agree : ∀ s e, Inv s → (P s e ↔ Q s e)) {s : σ} (hs : Inv s) (es : List ε) :
    EachStep step P s es ↔ EachStep step Q s es := by
  induction es generalizing s with
  | nil => exact Iff.rfl
  | cons e es ih =>
    constructor
    · intro h
      obtain ⟨hp, hrest⟩ := h
      refine ⟨(agree s e hs).mp hp, fun s' h => ?_⟩
      exact (ih (keeps s e s' hs hp h)).mp (hrest s' h)
    · intro h
      obtain ⟨hq, hrest⟩ := h
      have hp := (agree s e hs).mpr hq
      exact ⟨hp, fun s' h => (ih (keeps s e s' hs hp h)).mpr (hrest s' h)⟩

/-- Where every event can happen, a condition on the events is one on the list of them. -/
theorem eachStep_iff_forall_mem (total : ∀ s e, ∃ s', step s e = some s') {Q : ε → Prop} {s : σ}
    {es : List ε} : EachStep step (fun _ e => Q e) s es ↔ ∀ e ∈ es, Q e := by
  induction es generalizing s with
  | nil => exact iff_of_true trivial (fun _ he => absurd he List.not_mem_nil)
  | cons e es ih =>
    rw [List.forall_mem_cons]
    refine and_congr_right fun _ => ?_
    obtain ⟨s', hs'⟩ := total s e
    constructor
    · intro h
      exact ih.mp (h s' hs')
    · intro h s'' _
      exact ih.mpr h

/-- Every state of a run is good exactly when every step of it meets the condition under which it
keeps a good state good. -/
theorem forall_states_iff {Good : σ → Prop} {Q : σ → ε → Prop}
    (agree : ∀ s e, Good s → (Q s e ↔ ∀ s', step s e = some s' → Good s')) {s : σ} (hs : Good s)
    (es : List ε) : (∀ r ∈ states step s es, Good r) ↔ EachStep step Q s es := by
  induction es generalizing s with
  | nil =>
    refine iff_of_true (fun r hr => ?_) trivial
    rw [List.mem_singleton.mp hr]
    exact hs
  | cons e es ih =>
    rw [forall_mem_states_cons]
    constructor
    · rintro ⟨_, hrest⟩
      have hgood : ∀ s', step s e = some s' → Good s' :=
        fun s' hstep => hrest s' hstep s' (start_mem_states s' es)
      refine ⟨(agree s e hs).mpr hgood, fun s' hstep => ?_⟩
      exact (ih (hgood s' hstep)).mp (hrest s' hstep)
    · rintro ⟨hq, hrest⟩
      refine ⟨hs, fun s' hstep => ?_⟩
      exact (ih ((agree s e hs).mp hq s' hstep)).mpr (hrest s' hstep)

/-- An invariant that survives the steps with the property holds where such a run ends. -/
theorem EachStep.final_inv {P : σ → ε → Prop} {Inv : σ → Prop}
    (keeps : ∀ s e s', Inv s → P s e → step s e = some s' → Inv s') {s s' : σ} (hs : Inv s)
    {es : List ε} (h : EachStep step P s es) (hend : final step s es = some s') : Inv s' := by
  induction es generalizing s with
  | nil =>
    cases hend
    exact hs
  | cons e es ih =>
    obtain ⟨hp, hrest⟩ := h
    obtain ⟨s₁, hstep, hend⟩ := Option.bind_eq_some_iff.mp hend
    exact ih (keeps s e s₁ hs hp hstep) (hrest s₁ hstep) hend

/-- Where an invariant lets every event happen, and every event keeps it, runs come to their end. -/
theorem exists_final (Inv : σ → Prop) (total : ∀ s e, Inv s → ∃ s', step s e = some s' ∧ Inv s')
    {s : σ} (hs : Inv s) (es : List ε) : ∃ s', final step s es = some s' ∧ Inv s' := by
  induction es generalizing s with
  | nil => exact ⟨s, rfl, hs⟩
  | cons e es ih =>
    obtain ⟨s₁, hstep, hs₁⟩ := total s e hs
    obtain ⟨s', hend, hs'⟩ := ih hs₁
    refine ⟨s', ?_, hs'⟩
    unfold final
    rw [hstep]
    exact hend

/-- What holds at the start and is kept by every step holds where a run ends. -/
theorem final_inv (Inv : σ → Prop) (keeps : ∀ s e s', Inv s → step s e = some s' → Inv s')
    {s s' : σ} (hs : Inv s) {es : List ε} (hend : final step s es = some s') : Inv s' := by
  induction es generalizing s with
  | nil =>
    cases hend
    exact hs
  | cons e es ih =>
    obtain ⟨s₁, hstep, hend⟩ := Option.bind_eq_some_iff.mp hend
    exact ih (keeps s e s₁ hs hstep) hend

/-- What one event can end and none can bring back holds where a run ends exactly when it has no
event that ends it. -/
theorem final_iff_forall_mem (Good : σ → Prop) {Q : ε → Prop}
    (agree : ∀ s e s', Good s → step s e = some s' → (Good s' ↔ Q e))
    (lost : ∀ s e s', ¬ Good s → step s e = some s' → ¬ Good s') {s s' : σ} (hs : Good s)
    {es : List ε} (hend : final step s es = some s') : Good s' ↔ ∀ e ∈ es, Q e := by
  induction es generalizing s with
  | nil =>
    cases hend
    exact iff_of_true hs fun _ he => absurd he List.not_mem_nil
  | cons e es ih =>
    obtain ⟨s₁, hstep, hend⟩ := Option.bind_eq_some_iff.mp hend
    have hfirst := agree s e s₁ hs hstep
    rw [List.forall_mem_cons]
    by_cases hs₁ : Good s₁
    · exact (ih hs₁ hend).trans (and_iff_right (hfirst.mp hs₁)).symm
    · exact iff_of_false (final_inv (fun s => ¬ Good s) lost hs₁ hend) fun h => hs₁ (hfirst.mpr h.1)

end OS90.Run
