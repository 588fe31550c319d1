import Mathlib.Data.List.Basic
import Mathlib.Logic.Basic
import Mathlib.Logic.Function.Basic

/-!
# Loops

A loop is its body, which goes round again in a new state or leaves with a result. `run` bounds the
number of rounds, so that it can be computed; `Leaves` is that some bound is enough. A loop has one
result at most (`Leaves.unique`). `run_of_invariant` is the rule for what holds if it ends,
`run_of_countup` the one for loops that end, with an invariant indexed by the rounds that are done,
and `not_leaves` the one for loops that never do. `Leaves.simulate` carries an end over to a loop
that goes round with it.

A table is a function, and a loop that fills it is a left fold of `Function.update` over the list
of its iterations. An entry no iteration writes is as before, an entry that the iterations writing
it agree on is their value, and when all iterations write one entry the last of them wins.
-/

namespace OS90.Loop

variable {σ ρ : Type*} (body : σ → σ ⊕ ρ)

/-- The loop, for so many rounds. -/
def run : Nat → σ → Option ρ
  | 0, _ => none
  | n + 1, s =>
    match body s with
    | .inl s' => run n s'
    | .inr r => some r

/-- The loop ends with a result. -/
def Leaves (s : σ) (r : ρ) : Prop := ∃ n, run body n s = some r

variable {body}

/-- A loop whose first round leaves is left. -/
theorem Leaves.out {s : σ} {r : ρ} (h : body s = .inr r) : Leaves body s r := by
  refine ⟨1, ?_⟩
  unfold run
  rw [h]

/-- A round in front of a loop that is left. -/
theorem Leaves.again {s s' : σ} {r : ρ} (h : body s = .inl s') (hrest : Leaves body s' r) :
    Leaves body s r := by
  obtain ⟨n, hn⟩ := hrest
  refine ⟨n + 1, ?_⟩
  unfold run
  rw [h]
  exact hn

/-- A greater bound on the rounds gives the same result, once there is one. -/
theorem run_mono {s : σ} {r : ρ} {n k : Nat} (h : run body n s = some r) (hnk : n ≤ k) :
    run body k s = some r := by
  induction n generalizing s k with
  | zero => cases h
  | succ n ih =>
    have hpos : 0 < k := Nat.lt_of_lt_of_le n.succ_pos hnk
    obtain ⟨k, rfl⟩ := Nat.exists_eq_succ_of_ne_zero (Nat.ne_of_gt hpos)
    unfold run at h ⊢
    cases hbody : body s with
    | inl s' =>
      rw [hbody] at h
      exact ih h (Nat.le_of_succ_le_succ hnk)
    | inr r' =>
      rw [hbody] at h
      exact h

/-- What a loop leaves with is one result: the bound on the rounds does not matter to it. -/
theorem Leaves.unique {s : σ} {r r' : ρ} (h : Leaves body s r) (h' : Leaves body s r') :
    r = r' := by
  obtain ⟨n, hn⟩ := h
  obtain ⟨k, hk⟩ := h'
  induction n generalizing s k with
  | zero => cases hn
  | succ n ih =>
    cases k with
    | zero => cases hk
    | succ k =>
      unfold run at hn hk
      cases hbody : body s with
      | inl s' =>
        rw [hbody] at hn hk
        exact ih hn k hk
      | inr r'' =>
        rw [hbody] at hn hk
        exact (Option.some.inj hn).symm.trans (Option.some.inj hk)

/-- `Inv k` holds with `k` rounds done. Each of the first `n` goes on or leaves, and the next one
leaves. -/
theorem run_of_countup (Inv : Nat → σ → Prop) (Post : ρ → Prop) {n : Nat}
    (round : ∀ k s, k < n → Inv k s →
      (∃ s', body s = .inl s' ∧ Inv (k + 1) s') ∨ ∃ r, body s = .inr r ∧ Post r)
    (last : ∀ s, Inv n s → ∃ r, body s = .inr r ∧ Post r) {s : σ} (hs : Inv 0 s) :
    ∃ r, run body (n + 1) s = some r ∧ Post r := by
  -- by the rounds that are left
  have hleft : ∀ left k s, k + left = n → Inv k s →
      ∃ r, run body (left + 1) s = some r ∧ Post r := by
    intro left
    induction left with
    | zero =>
      rintro k s rfl hinv
      obtain ⟨r, hr, hpost⟩ := last s hinv
      refine ⟨r, ?_, hpost⟩
      unfold run
      rw [hr]
    | succ left ih =>
      intro k s hk hinv
      unfold run
      rcases round k s (by omega) hinv with ⟨s', hs', hinv'⟩ | ⟨r, hr, hpost⟩
      · rw [hs']
        exact ih (k + 1) s' (by omega) hinv'
      · rw [hr]
        exact ⟨r, rfl, hpost⟩
  exact hleft n 0 s (Nat.zero_add n) hs

/-- The same for a loop that is left after `n` rounds only. -/
theorem Leaves.of_countup (Inv : Nat → σ → Prop) (Post : ρ → Prop) {n : Nat}
    (round : ∀ k s, k < n → Inv k s → ∃ s', body s = .inl s' ∧ Inv (k + 1) s')
    (last : ∀ s, Inv n s → ∃ r, body s = .inr r ∧ Post r) {s : σ} (hs : Inv 0 s) :
    ∃ r, Leaves body s r ∧ Post r := by
  obtain ⟨r, hr, hpost⟩ :=
    run_of_countup Inv Post (fun k s hk hinv => .inl (round k s hk hinv)) last hs
  exact ⟨r, ⟨n + 1, hr⟩, hpost⟩

/-- The rule for partial correctness: what every round keeps holds when the loop is left, whatever
the bound is. -/
theorem run_of_invariant (Inv : σ → Prop) (Post : ρ → Prop)
    (round : ∀ s s', Inv s → body s = .inl s' → Inv s')
    (last : ∀ s r, Inv s → body s = .inr r → Post r) {n : Nat} {s : σ} {r : ρ} (hs : Inv s)
    (h : run body n s = some r) : Post r := by
  induction n generalizing s with
  | zero => cases h
  | succ n ih =>
    unfold run at h
    cases hbody : body s with
    | inl s' =>
      rw [hbody] at h
      exact ih (round s s' hs hbody) h
    | inr r' =>
      rw [hbody] at h
      obtain rfl := Option.some.inj h
      exact last s r' hs hbody

/-- Two loops that go round together from related states leave with related results. -/
theorem Leaves.simulate {σ' ρ' : Type*} {body' : σ' → σ' ⊕ ρ'} (R : σ → σ' → Prop)
    (Post : ρ → ρ' → Prop)
    (round : ∀ s t s', R s t → body s = .inl s' → ∃ t', body' t = .inl t' ∧ R s' t')
    (last : ∀ s t r, R s t → body s = .inr r → ∃ r', body' t = .inr r' ∧ Post r r')
    {s : σ} {t : σ'} {r : ρ} (hst : R s t) (h : Leaves body s r) :
    ∃ r', Leaves body' t r' ∧ Post r r' := by
  obtain ⟨n, hn⟩ := h
  induction n generalizing s t with
  | zero => cases hn
  | succ n ih =>
    unfold run at hn
    cases hbody : body s with
    | inl s' =>
      rw [hbody] at hn
      obtain ⟨t', hbody', hst'⟩ := round s t s' hst hbody
      obtain ⟨r', hleaves, hpost⟩ := ih hst' hn
      exact ⟨r', hleaves.again hbody', hpost⟩
    | inr r₁ =>
      rw [hbody] at hn
      obtain rfl := Option.some.inj hn
      obtain ⟨r', hbody', hpost⟩ := last s t r₁ hst hbody
      exact ⟨r', .out hbody', hpost⟩

/-- A loop whose every round goes round again under an invariant is never left. -/
theorem not_leaves (Inv : σ → Prop) (round : ∀ s, Inv s → ∃ s', body s = .inl s' ∧ Inv s')
    {s : σ} (hs : Inv s) (r : ρ) : ¬ Leaves body s r := by
  rintro ⟨n, hn⟩
  induction n generalizing s with
  | zero => cases hn
  | succ n ih =>
    obtain ⟨s', hbody, hs'⟩ := round s hs
    unfold run at hn
    rw [hbody] at hn
    exact ih hs' hn

end OS90.Loop

namespace OS90.Update

variable {ι α β : Type*} [DecidableEq α] (key : ι → α) (val : ι → β)

/-- The table a loop leaves. -/
def fill (l : List ι) (t : α → β) : α → β :=
  l.foldl (fun t x => Function.update t (key x) (val x)) t

/-- What no element of the list has for its key is left as it was. -/
theorem fill_of_ne {l : List ι} {a : α} (h : ∀ x ∈ l, key x ≠ a) (t : α → β) :
    fill key val l t a = t a := by
  induction l generalizing t with
  | nil => rfl
  | cons x l ih =>
    have htail : fill key val l (Function.update t (key x) (val x)) a =
        Function.update t (key x) (val x) a :=
      ih (fun y hy => h y (List.mem_cons_of_mem x hy)) _
    exact htail.trans (Function.update_of_ne (h x List.mem_cons_self).symm _ _)

/-- An entry that some iteration writes has the value all such iterations agree on. -/
theorem fill_of_agree {l : List ι} {a : α} {b : β} (hmem : ∃ x ∈ l, key x = a)
    (hval : ∀ x ∈ l, key x = a → val x = b) (t : α → β) : fill key val l t a = b := by
  induction l generalizing t with
  | nil =>
    obtain ⟨x, hx, _⟩ := hmem
    cases hx
  | cons y l ih =>
    have hrest : ∀ x ∈ l, key x = a → val x = b := fun x hx => hval x (List.mem_cons_of_mem y hx)
    by_cases htail : ∃ x ∈ l, key x = a
    · exact ih htail hrest _
    · -- the entry is the first iteration's, and no later one has its key
      obtain ⟨x, hx, hkey⟩ := hmem
      obtain rfl := (List.mem_cons.mp hx).resolve_right fun hl => htail ⟨x, hl, hkey⟩
      have hne : ∀ z ∈ l, key z ≠ a := fun z hz heq => htail ⟨z, hz, heq⟩
      have hfirst := fill_of_ne key val hne (Function.update t (key x) (val x))
      rw [hkey, Function.update_self, hval x hx hkey] at hfirst
      rw [← hfirst]
      unfold fill
      rw [List.foldl_cons, hkey, hval x hx hkey]

/-- With keys that differ, an element of the list finds its own value at its key. -/
theorem fill_of_mem (hkey : Function.Injective key) {l : List ι} {x : ι} (hx : x ∈ l)
    (t : α → β) : fill key val l t (key x) = val x :=
  fill_of_agree key val ⟨x, hx, rfl⟩ (fun _ _ heq => congrArg val (hkey heq)) t

/-- Where keys collide the last element decides. -/
theorem fill_last (l : List ι) (x : ι) (t : α → β) :
    fill key val (l ++ [x]) t (key x) = val x := by
  unfold fill
  rw [List.foldl_append]
  exact Function.update_self _ _ _

end OS90.Update
