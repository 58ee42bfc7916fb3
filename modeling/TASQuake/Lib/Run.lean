import Mathlib.Data.List.Basic
import Mathlib.Data.Option.Basic

/-!
# Runs of a step function and their invariants

A system is given by a step function `step : σ → α → Option σ`; `none` is a step that does not
return.  `run` takes a list of actions, and `Guarded ok` says that every action meets the condition
`ok` in the state in which it is taken.  `invariant_run` is the induction that the safety results
use, `rel_run` the one for two systems that take the same actions, `history_run` is for invariants
that speak about the actions taken so far.  By `exact_run` and `guard_run` a property that a step
keeps exactly under a condition holds in all states of a run exactly if all its steps meet the
condition.
-/

namespace TASQuake.Lib

open Option List

variable {σ ε α β : Type}

/-! ## How a bind of `Option` or `Except` comes to succeed -/

theorem some_bind {a : α} {f : α → Option β} : (some a >>= f) = f a := rfl

theorem bind_eq_some {x : Option α} {f : α → Option β} {b : β} :
    (x >>= f) = some b ↔ ∃ a, x = some a ∧ f a = some b :=
  bind_eq_some_iff

theorem bind_of_eq {x : Option α} {a : α} (h : x = some a) (k : α → Option β) : x >>= k = k a := by
  rw [h]
  rfl

theorem bind_eq_ok_iff {x : Except ε α} {f : α → Except ε β} {b : β} :
    x.bind f = .ok b ↔ ∃ a, x = .ok a ∧ f a = .ok b := by
  cases x with
  | error e => exact ⟨nofun, fun ⟨_, h, _⟩ => absurd h nofun⟩
  | ok a => exact ⟨fun h => ⟨a, rfl, h⟩, fun ⟨_, ha, h⟩ => Except.ok.inj ha ▸ h⟩

/-! ## Runs -/

/-- The state after a list of actions, if every one of them returns. -/
def run (step : σ → α → Option σ) : σ → List α → Option σ
  | s, [] => some s
  | s, a :: as =>
    match step s a with
    | none => none
    | some s' => run step s' as

/-- Every action of the list meets `ok` in the state in which it is taken. -/
def Guarded (step : σ → α → Option σ) (ok : σ → α → Prop) : σ → List α → Prop
  | _, [] => True
  | s, a :: as => ok s a ∧ ∀ s', step s a = some s' → Guarded step ok s' as

instance Guarded.decidable (step : σ → α → Option σ) (ok : σ → α → Prop)
    [∀ s a, Decidable (ok s a)] : ∀ (s : σ) (as : List α), Decidable (Guarded step ok s as)
  | _, [] => .isTrue trivial
  | s, a :: as =>
    have : Decidable (∀ s', step s a = some s' → Guarded step ok s' as) :=
      match step s a with
      | none => .isTrue fun _ hs => nomatch hs
      | some t =>
        have := Guarded.decidable step ok t as
        decidable_of_iff (Guarded step ok t as)
          ⟨fun hg _ hs => some.inj hs ▸ hg, fun hg => hg t rfl⟩
    inferInstanceAs (Decidable (_ ∧ _))

section Rules

variable {step : σ → α → Option σ} {ok : σ → α → Prop}

theorem run_cons_eq_some {s s'' : σ} {a : α} {as : List α} :
    run step s (a :: as) = some s'' ↔ ∃ s', step s a = some s' ∧ run step s' as = some s'' := by
  simp only [run]
  cases step s a with
  | none => simp
  | some s' => simp

theorem guarded_nil (s : σ) : Guarded step ok s [] := trivial

theorem guarded_cons {s s' : σ} {a : α} {as : List α} (hok : ok s a) (hs : step s a = some s')
    (h : Guarded step ok s' as) : Guarded step ok s (a :: as) := by
  refine ⟨hok, fun t ht => ?_⟩
  rw [hs] at ht
  cases ht
  exact h

theorem guarded_of_forall_mem {as : List α} (h : ∀ a ∈ as, ∀ s, ok s a) {s : σ} :
    Guarded step ok s as := by
  induction as generalizing s with
  | nil => exact trivial
  | cons a as ih =>
    exact ⟨h a mem_cons_self s, fun _ _ => ih fun b hb => h b (mem_cons_of_mem _ hb)⟩

theorem guarded_of_forall (h : ∀ s a, ok s a) {s : σ} {as : List α} : Guarded step ok s as :=
  guarded_of_forall_mem fun a _ s => h s a

/-- **The invariant rule.**  A property that every guarded step preserves holds after every
guarded run. -/
theorem invariant_run {I : σ → Prop}
    (hstep : ∀ s a s', I s → ok s a → step s a = some s' → I s')
    {s s' : σ} {as : List α} (h : I s) (hg : Guarded step ok s as)
    (hr : run step s as = some s') : I s' := by
  induction as generalizing s with
  | nil =>
    cases hr
    exact h
  | cons a as ih =>
    obtain ⟨hok, hrest⟩ := hg
    obtain ⟨t, ht, hr⟩ := run_cons_eq_some.mp hr
    exact ih (hstep s a t h hok ht) (hrest t ht) hr

/-- A guard that, given an invariant, follows from another one. -/
theorem guarded_of_invariant {I : σ → Prop} {ok' : σ → α → Prop}
    (hstep : ∀ s a, I s → ok s a → ok' s a ∧ ∀ s', step s a = some s' → I s')
    {s : σ} {as : List α} (h : I s) (hg : Guarded step ok s as) : Guarded step ok' s as := by
  induction as generalizing s with
  | nil => exact trivial
  | cons a as ih =>
    obtain ⟨hok, hrest⟩ := hg
    obtain ⟨hok', hkeep⟩ := hstep s a h hok
    exact ⟨hok', fun t ht => ih (hkeep t ht) (hrest t ht)⟩

/-- **The guard rule.**  From a state with the properties `J` and `I`, a step that is `ok` returns a
state with both, and a step that leads to a state with `I` is `ok`.  Then a run reaches all its
states and they have the property `I` exactly if the run is guarded. -/
theorem guard_run {J I : σ → Prop}
    (hgood : ∀ s a, J s → I s → ok s a → ∃ s', step s a = some s' ∧ J s' ∧ I s')
    (hbad : ∀ s a s', J s → I s → step s a = some s' → I s' → ok s a)
    {s : σ} (hJ : J s) (hI : I s) {as : List α} :
    (∀ past, past <+: as → ∃ s', run step s past = some s' ∧ I s') ↔ Guarded step ok s as := by
  induction as generalizing s with
  | nil =>
    refine ⟨fun _ => trivial, fun _ past hpast => ?_⟩
    rw [prefix_nil.mp hpast]
    exact ⟨s, rfl, hI⟩
  | cons a as ih =>
    constructor
    · intro hstates
      obtain ⟨t, hrun, hIt⟩ := hstates [a] (cons_prefix_cons.mpr ⟨rfl, List.nil_prefix⟩)
      obtain ⟨t', ht', hrun⟩ := run_cons_eq_some.mp hrun
      cases hrun
      have hok : ok s a := hbad s a t hJ hI ht' hIt
      obtain ⟨u, hu, hJu, hIu⟩ := hgood s a hJ hI hok
      refine guarded_cons hok hu ((ih hJu hIu).mp fun past hpast => ?_)
      obtain ⟨s', hrun, hs'⟩ := hstates (a :: past) (cons_prefix_cons.mpr ⟨rfl, hpast⟩)
      obtain ⟨u', hu', hrun⟩ := run_cons_eq_some.mp hrun
      rw [hu, some.injEq] at hu'
      exact ⟨s', hu' ▸ hrun, hs'⟩
    · intro hguarded past hpast
      rcases prefix_cons_iff.mp hpast with rfl | ⟨rest, rfl, hprefix⟩
      · exact ⟨s, rfl, hI⟩
      · obtain ⟨u, hu, hJu, hIu⟩ := hgood s a hJ hI hguarded.1
        obtain ⟨s', hrun, hs'⟩ := (ih hJu hIu).mpr (hguarded.2 u hu) rest hprefix
        exact ⟨s', run_cons_eq_some.mpr ⟨u, hu, hrun⟩, hs'⟩

/-- **The lockstep rule.**  Two systems whose states stay related under every action, and which
return from the same actions, stay related over every run. -/
theorem rel_run {τ : Type} {step' : τ → α → Option τ} {r : σ → τ → Prop}
    (hstep : ∀ s t a, r s t → Option.Rel r (step s a) (step' t a))
    {s : σ} {t : τ} (h : r s t) (as : List α) : Option.Rel r (run step s as) (run step' t as) := by
  induction as generalizing s t with
  | nil => exact .some h
  | cons a as ih =>
    have hnext := hstep s t a h
    simp only [run]
    generalize step s a = x at hnext ⊢
    generalize step' t a = y at hnext ⊢
    cases hnext with
    | some hrel => exact ih hrel
    | none => exact .none

/-- **The history rule.**  If every action returns and takes what holds after the actions so far
to what holds with one more, then every run returns, and that holds after it. -/
theorem history_run {I : List α → σ → Prop}
    (hstep : ∀ as s a, I as s → ∃ s', step s a = some s' ∧ I (as ++ [a]) s')
    {s : σ} (h : I [] s) (as : List α) : ∃ s', run step s as = some s' ∧ I as s' := by
  suffices hall : ∀ before s, I before s → ∃ s', run step s as = some s' ∧ I (before ++ as) s' from
    hall [] s h
  clear h
  induction as with
  | nil =>
    intro before s hs
    exact ⟨s, rfl, (append_nil before).symm ▸ hs⟩
  | cons a as ih =>
    intro before s hs
    obtain ⟨t, ht, hnext⟩ := hstep before s a hs
    obtain ⟨s', hrun, hs'⟩ := ih (before ++ [a]) t hnext
    refine ⟨s', run_cons_eq_some.mpr ⟨t, ht, hrun⟩, ?_⟩
    rwa [append_assoc] at hs'

/-- **The exactness rule.**  Every guarded step returns and keeps `J`; from a state with the property
`I` it leads to one with the property exactly if it is `good`.  Then all states of a guarded run
have the property exactly if all its steps are good. -/
theorem exact_run {J : σ → Prop} {I : List α → σ → Prop} {good : List α → α → Prop}
    (hstep : ∀ as s a, J s → I as s → ok s a →
      ∃ s', step s a = some s' ∧ J s' ∧ (I (as ++ [a]) s' ↔ good as a))
    {s : σ} (hJ : J s) (hI : I [] s) {as : List α} (hg : Guarded step ok s as) :
    (∀ past, past <+: as → ∃ s', run step s past = some s' ∧ I past s') ↔
      ∀ past a, past ++ [a] <+: as → good past a := by
  suffices hall : ∀ before s, J s → I before s → Guarded step ok s as →
      ((∀ past, past <+: as → ∃ s', run step s past = some s' ∧ I (before ++ past) s') ↔
        ∀ past a, past ++ [a] <+: as → good (before ++ past) a) from hall [] s hJ hI hg
  clear hg hI hJ
  induction as with
  | nil =>
    intro before s _ hs _
    constructor
    · intro _ past a hpast
      exact absurd (prefix_nil.mp hpast) (by simp)
    · intro _ past hpast
      rw [prefix_nil.mp hpast]
      exact ⟨s, rfl, (append_nil before).symm ▸ hs⟩
  | cons a as ih =>
    intro before s hJ hs hguarded
    obtain ⟨t, ht, hJt, hiff⟩ := hstep before s a hJ hs hguarded.1
    by_cases hgood : good before a
    · have hrest := ih (before ++ [a]) t hJt (hiff.mpr hgood) (hguarded.2 t ht)
      simp only [append_assoc, singleton_append] at hrest
      constructor
      · intro hstates past b hpast
        rcases prefix_cons_iff.mp hpast with hnil | ⟨rest, hcons, hprefix⟩
        · exact absurd hnil (by simp)
        · cases past with
          | nil =>
            cases hcons
            exact (append_nil before).symm ▸ hgood
          | cons c past =>
            cases hcons
            refine hrest.mp (fun past hpast => ?_) past b hprefix
            obtain ⟨s', hrun, hs'⟩ := hstates (a :: past) (cons_prefix_cons.mpr ⟨rfl, hpast⟩)
            obtain ⟨t', ht', hrun⟩ := run_cons_eq_some.mp hrun
            rw [ht, some.injEq] at ht'
            exact ⟨s', ht' ▸ hrun, hs'⟩
      · intro hsteps past hpast
        rcases prefix_cons_iff.mp hpast with rfl | ⟨rest, rfl, hprefix⟩
        · exact ⟨s, rfl, (append_nil before).symm ▸ hs⟩
        · obtain ⟨s', hrun, hs'⟩ := hrest.mpr
            (fun past b hpast => hsteps (a :: past) b (cons_prefix_cons.mpr ⟨rfl, hpast⟩))
            rest hprefix
          exact ⟨s', run_cons_eq_some.mpr ⟨t, ht, hrun⟩, hs'⟩
    · have hfirst : [a] <+: a :: as := cons_prefix_cons.mpr ⟨rfl, List.nil_prefix⟩
      refine iff_of_false (fun hstates => ?_) (fun hsteps => ?_)
      · obtain ⟨s', hrun, hs'⟩ := hstates [a] hfirst
        obtain ⟨t', ht', hrun⟩ := run_cons_eq_some.mp hrun
        rw [ht, some.injEq] at ht'
        cases hrun
        exact hgood (hiff.mp (ht' ▸ hs'))
      · have hbad := hsteps [] a hfirst
        rw [append_nil] at hbad
        exact hgood hbad

end Rules

/-!
## While loops

`exists_whileLoop` is the rule for total correctness of a loop with fuel: an invariant that every
round keeps, and a measure that every round makes smaller.
-/

/-- `while (cond) body`, for at most `fuel - 1` rounds; `none` if a round fails or if the condition
still holds after them. -/
def whileLoop (cond : σ → Bool) (body : σ → Option σ) : ℕ → σ → Option σ
  | 0, _ => none
  | fuel + 1, s => if cond s then (body s).bind (whileLoop cond body fuel) else some s

/-- The states in which the condition is evaluated. -/
inductive Visits (cond : σ → Bool) (body : σ → Option σ) (s : σ) : σ → Prop
  | start : Visits cond body s s
  | round {t u : σ} : Visits cond body s t → cond t = true → body t = some u → Visits cond body s u

section Rules

variable {cond : σ → Bool} {body : σ → Option σ} {I : σ → Prop} {s t : σ}

/-- **The invariant rule.** -/
theorem Visits.invariant (hround : ∀ s t, I s → cond s = true → body s = some t → I t) (hs : I s)
    (h : Visits cond body s t) : I t := by
  induction h with
  | start => exact hs
  | round _ hcond hbody ih => exact hround _ _ ih hcond hbody

/-- **The rule for total correctness.** -/
theorem exists_whileLoop {measure : σ → ℕ}
    (hround : ∀ s, I s → cond s = true → ∃ t, body s = some t ∧ I t ∧ measure t < measure s)
    (hs : I s) {fuel : ℕ} (hfuel : measure s < fuel) :
    ∃ t, whileLoop cond body fuel s = some t ∧ I t ∧ cond t = false := by
  induction fuel generalizing s with
  | zero => exact absurd hfuel (Nat.not_lt_zero _)
  | succ fuel ih =>
    cases hcond : cond s with
    | false => exact ⟨s, by rw [whileLoop, hcond, if_neg Bool.false_ne_true], hs, hcond⟩
    | true =>
      obtain ⟨u, hbody, hu, hlt⟩ := hround s hs hcond
      obtain ⟨t, hloop, ht, hend⟩ := ih hu (Nat.lt_of_lt_of_le hlt (Nat.le_of_lt_succ hfuel))
      refine ⟨t, ?_, ht, hend⟩
      rw [whileLoop, if_pos hcond, hbody, bind_some, hloop]

end Rules

end TASQuake.Lib
