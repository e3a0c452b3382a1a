import VoipBill.Lib.Hoare

/-!
# Two runs of a program

`Sim R x y`: started in states related by `R`, the programs `x` and `y` return
the same value or stop with the same error, in states that are related again.
With one program on both sides this says that its result depends only on what
`R` keeps equal.

The rules follow the syntax of the two programs, which have to be of one shape.
`SimAt` is the same for two given states: what comes next may then use how the first
part ended.  The same rules hold for `Option.Rel`, where a run may be undefined.
-/

namespace VoipBill
namespace Lib
namespace Hoare

variable {ε σ α β : Type} {R : σ → σ → Prop}

/-- Equal results in related states. -/
def Sim (R : σ → σ → Prop) (x y : Prog ε σ α) : Prop :=
  ∀ s t, R s t → (exec x s).1 = (exec y t).1 ∧ R (exec x s).2 (exec y t).2

/-- Equal results of two runs, in related states. -/
def SimAt (R : σ → σ → Prop) (x y : Prog ε σ α) (s t : σ) : Prop :=
  (exec x s).1 = (exec y t).1 ∧ R (exec x s).2 (exec y t).2

theorem SimAt.bind {x y : Prog ε σ α} {f g : α → Prog ε σ β} {s t : σ} (hxy : SimAt R x y s t)
    (hfg : ∀ a s' t', exec x s = (.ok a, s') → R s' t' → SimAt R (f a) (g a) s' t') :
    SimAt R (x >>= f) (y >>= g) s t := by
  obtain ⟨hvalue, hstate⟩ := hxy
  rw [SimAt, exec_bind, exec_bind]
  generalize hleft : exec x s = left at hvalue hstate
  generalize exec y t = right at hvalue hstate
  match left, right with
  | (.ok a, s'), (.ok b, t') =>
      cases Except.ok.inj hvalue
      exact hfg a s' t' hleft hstate
  | (.error e, s'), (.error e', t') =>
      cases Except.error.inj hvalue
      exact ⟨rfl, hstate⟩
  | (.ok _, _), (.error _, _) => exact absurd hvalue (by simp)
  | (.error _, _), (.ok _, _) => exact absurd hvalue (by simp)

theorem simAt_ite {c : Prop} [Decidable c] {x y x' y' : Prog ε σ α} {s t : σ}
    (hx : c → SimAt R x x' s t) (hy : ¬c → SimAt R y y' s t) :
    SimAt R (if c then x else y) (if c then x' else y') s t := by
  split
  case isTrue hc => exact hx hc
  case isFalse hc => exact hy hc

theorem sim_pure (a : α) : Sim R (pure a : Prog ε σ α) (pure a) := fun _ _ h => ⟨rfl, h⟩

theorem sim_throw (e : ε) : Sim R (throw e : Prog ε σ α) (throw e) := fun _ _ h => ⟨rfl, h⟩

theorem sim_modify {f g : σ → σ} (h : ∀ s t, R s t → R (f s) (g t)) :
    Sim R (modify f : Prog ε σ Unit) (modify g) := fun s t hst => ⟨rfl, h s t hst⟩

theorem sim_bind {x y : Prog ε σ α} {f g : α → Prog ε σ β} (hxy : Sim R x y)
    (hfg : ∀ a, Sim R (f a) (g a)) : Sim R (x >>= f) (y >>= g) :=
  fun s t hst => SimAt.bind (hxy s t hst) fun a s' t' _ hst' => hfg a s' t' hst'

/-- What follows a read has to be the same for the two states that are read. -/
theorem sim_get {f g : σ → Prog ε σ β} (h : ∀ s t, R s t → Sim R (f s) (g t)) :
    Sim R (get >>= f) (get >>= g) := fun s t hst => h s t hst s t hst

theorem sim_ite {c : Prop} [Decidable c] {x y x' y' : Prog ε σ α} (hx : Sim R x x')
    (hy : Sim R y y') : Sim R (if c then x else y) (if c then x' else y') := by
  split
  · exact hx
  · exact hy

theorem sim_mapM {f g : β → Prog ε σ α} (h : ∀ b, Sim R (f b) (g b)) (bs : List β) :
    Sim R (bs.mapM f) (bs.mapM g) := by
  induction bs with
  | nil => exact sim_pure []
  | cons b bs ih =>
      rw [List.mapM_cons, List.mapM_cons]
      exact sim_bind (h b) fun _ => sim_bind ih fun _ => sim_pure _

/-! ## Results that may be missing -/

section Rel

variable {γ δ : Type} {P : α → β → Prop} {Q : γ → δ → Prop} {x : Option α} {y : Option β}

theorem rel_bind {f : α → Option γ} {g : β → Option δ} (h : Option.Rel P x y)
    (hfg : ∀ a b, P a b → Option.Rel Q (f a) (g b)) : Option.Rel Q (x.bind f) (y.bind g) := by
  cases h with
  | none => exact .none
  | some hab => exact hfg _ _ hab

theorem rel_map {f : α → γ} {g : β → δ} (h : Option.Rel P x y)
    (hfg : ∀ a b, P a b → Q (f a) (g b)) : Option.Rel Q (x.map f) (y.map g) := by
  cases h with
  | none => exact .none
  | some hab => exact .some (hfg _ _ hab)

theorem map_eq_map_of_rel {f : α → γ} {g : β → γ} (h : Option.Rel P x y)
    (hfg : ∀ a b, P a b → f a = g b) : x.map f = y.map g := by
  cases h with
  | none => rfl
  | some hab => exact congrArg some (hfg _ _ hab)

end Rel

end Hoare
end Lib
end VoipBill
