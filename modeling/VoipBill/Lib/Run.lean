import Mathlib.Data.List.Basic

/-!
# Runs of a labelled transition system

A component that takes step after step is given by a partial step function
`step : σ → α → Option σ`: `step s a = none` means that the action `a` is not
enabled in `s`.  A run is a list of actions, executed from left to right.

The two rules of this file are the only inductions over runs that the rest of
the development uses:

* `run_invariant`: what every enabled step keeps, every run keeps;
* `run_invariant_of_meets`: the same, for runs whose steps all satisfy a side
  condition on the state before the step and the action taken.
-/

namespace VoipBill
namespace Lib

variable {σ α : Type}

/-- Execute a list of actions from the left.  The run is undefined as soon as
one of its actions is not enabled. -/
def run (step : σ → α → Option σ) : σ → List α → Option σ
  | s, [] => some s
  | s, a :: as => (step s a).bind fun s' => run step s' as

@[simp] theorem run_nil (step : σ → α → Option σ) (s : σ) :
    run step s [] = some s := rfl

theorem run_cons (step : σ → α → Option σ) (s : σ) (a : α) (as : List α) :
    run step s (a :: as) = (step s a).bind fun s' => run step s' as := rfl

/-- A defined run of `a :: as` is an enabled step followed by a defined run. -/
theorem run_cons_eq_some {step : σ → α → Option σ} {s t : σ} {a : α} {as : List α}
    (h : run step s (a :: as) = some t) :
    ∃ s', step s a = some s' ∧ run step s' as = some t := by
  rw [run_cons] at h
  exact Option.bind_eq_some_iff.mp h

theorem run_append (step : σ → α → Option σ) (s : σ) (as bs : List α) :
    run step s (as ++ bs) = (run step s as).bind fun t => run step t bs := by
  induction as generalizing s with
  | nil => rfl
  | cons a as ih =>
      rw [List.cons_append, run_cons, run_cons]
      cases step s a with
      | none => rfl
      | some s' => exact ih s'

/-- All steps of the run satisfy `ok` in the state they are taken from. -/
def Meets (step : σ → α → Option σ) (ok : σ → α → Prop) : σ → List α → Prop
  | _, [] => True
  | s, a :: as => ok s a ∧ ∀ s', step s a = some s' → Meets step ok s' as

/-- **The conditional run rule.**  An invariant that every enabled step with
the side condition keeps is kept by every run whose steps all satisfy it. -/
theorem run_invariant_of_meets {step : σ → α → Option σ} {ok : σ → α → Prop}
    {Inv : σ → Prop}
    (hstep : ∀ s a s', Inv s → ok s a → step s a = some s' → Inv s')
    {s t : σ} {as : List α} (hs : Inv s) (hok : Meets step ok s as)
    (hrun : run step s as = some t) : Inv t := by
  induction as generalizing s with
  | nil =>
      rw [run_nil, Option.some.injEq] at hrun
      exact hrun ▸ hs
  | cons a as ih =>
      obtain ⟨s', hs', hrest⟩ := run_cons_eq_some hrun
      exact ih (hstep s a s' hs hok.1 hs') (hok.2 s' hs') hrest

/-- Actions that satisfy `ok` in every state. -/
theorem meets_of_forall {step : σ → α → Option σ} {ok : σ → α → Prop} {as : List α}
    (h : ∀ a ∈ as, ∀ s, ok s a) (s : σ) : Meets step ok s as := by
  induction as generalizing s with
  | nil => trivial
  | cons a as ih =>
      exact ⟨h a List.mem_cons_self s,
        fun s' _ => ih (fun b hb => h b (List.mem_cons_of_mem a hb)) s'⟩

theorem meets_append {step : σ → α → Option σ} {ok : σ → α → Prop} {s : σ} {as bs : List α}
    (has : Meets step ok s as) (hbs : ∀ t, run step s as = some t → Meets step ok t bs) :
    Meets step ok s (as ++ bs) := by
  induction as generalizing s with
  | nil => exact hbs s rfl
  | cons a as ih =>
      refine ⟨has.1, fun s' hs' => ih (has.2 s' hs') fun t ht => hbs t ?_⟩
      rw [run_cons, hs']
      exact ht

theorem meets_of_append {step : σ → α → Option σ} {ok : σ → α → Prop} {s : σ} {as bs : List α}
    (h : Meets step ok s (as ++ bs)) :
    Meets step ok s as ∧ ∀ t, run step s as = some t → Meets step ok t bs := by
  induction as generalizing s with
  | nil =>
      refine ⟨trivial, fun t ht => ?_⟩
      rw [run_nil, Option.some.injEq] at ht
      exact ht ▸ h
  | cons a as ih =>
      refine ⟨⟨h.1, fun s' hs' => (ih (h.2 s' hs')).1⟩, fun t ht => ?_⟩
      obtain ⟨s', hs', hrest⟩ := run_cons_eq_some ht
      exact (ih (h.2 s' hs')).2 t hrest

/-- **The run rule.**  An invariant that every enabled step keeps is kept by
every run. -/
theorem run_invariant {step : σ → α → Option σ} {Inv : σ → Prop}
    (hstep : ∀ s a s', Inv s → step s a = some s' → Inv s')
    {s t : σ} {as : List α} (hs : Inv s) (hrun : run step s as = some t) : Inv t := by
  have hmeets : Meets step (fun _ _ => True) s as := meets_of_forall (fun _ _ _ => trivial) s
  exact run_invariant_of_meets (fun s a s' h _ => hstep s a s' h) hs hmeets hrun

end Lib
end VoipBill
