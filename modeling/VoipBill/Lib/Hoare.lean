import Mathlib.Tactic

/-!
# Pre- and postconditions of programs that may stop

A `Prog ε σ α` works on a state `σ` and returns a value or stops with an error.
The state it has reached survives the error: what was written before a `throw`
stays written.

* `Triple P x Q E` — from a state with `P`, the program returns a value and a
  state related by `Q`, or stops in a state with `E`;
* `Avoids bad P x Q` — from a state with `P`, the program does not stop with the
  error `bad`, and what it returns is related to its state by `Q`;
* `Keeps f x` — the part `f` of the state is the same before and after, however
  the program ends.

The rules for `Keeps` follow the syntax of a program: its frame condition is
put together from those of its parts.
-/

namespace VoipBill
namespace Lib
namespace Hoare

variable {ε σ α β γ : Type}

abbrev Prog (ε σ α : Type) : Type := ExceptT ε (StateM σ) α

/-- Run a program: its result and the state it leaves. -/
def exec (x : Prog ε σ α) (s : σ) : Except ε α × σ := StateT.run (ExceptT.run x) s

@[simp] theorem exec_pure (a : α) (s : σ) : exec (pure a : Prog ε σ α) s = (.ok a, s) := rfl

@[simp] theorem exec_throw (e : ε) (s : σ) :
    exec (throw e : Prog ε σ α) s = (.error e, s) := rfl

@[simp] theorem exec_get (s : σ) : exec (get : Prog ε σ σ) s = (.ok s, s) := rfl

@[simp] theorem exec_modify (f : σ → σ) (s : σ) :
    exec (modify f : Prog ε σ Unit) s = (.ok (), f s) := rfl

theorem exec_bind (x : Prog ε σ α) (g : α → Prog ε σ β) (s : σ) :
    exec (x >>= g) s =
      match exec x s with
      | (.ok a, s') => exec (g a) s'
      | (.error e, s') => (.error e, s') := by
  simp only [exec, ExceptT.run_bind, StateT.run_bind]
  rcases StateT.run (ExceptT.run x) s with ⟨r, s'⟩
  cases r with
  | ok a => rfl
  | error e => rfl

theorem exec_bind_ok {x : Prog ε σ α} {g : α → Prog ε σ β} {s s' : σ} {a : α}
    (h : exec x s = (.ok a, s')) : exec (x >>= g) s = exec (g a) s' := by
  rw [exec_bind, h]

theorem exec_bind_error {x : Prog ε σ α} {g : α → Prog ε σ β} {s s' : σ} {e : ε}
    (h : exec x s = (.error e, s')) : exec (x >>= g) s = (.error e, s') := by
  rw [exec_bind, h]

/-! ## Triples -/

/-- What holds of the result and of the state a program leaves. -/
def Ends (Q : α → σ → Prop) (E : σ → Prop) : Except ε α × σ → Prop
  | (.ok a, s) => Q a s
  | (.error _, s) => E s

def Triple (P : σ → Prop) (x : Prog ε σ α) (Q : α → σ → Prop) (E : σ → Prop) : Prop :=
  ∀ s, P s → Ends Q E (exec x s)

section Triple

variable {P P' : σ → Prop} {Q R : α → σ → Prop} {S : β → σ → Prop} {E : σ → Prop}
  {x : Prog ε σ α} {g : α → Prog ε σ β}

theorem triple_bind (hx : Triple P x R E) (hg : ∀ a, Triple (R a) (g a) S E) :
    Triple P (x >>= g) S E := by
  intro s hs
  have hends := hx s hs
  rw [exec_bind]
  generalize exec x s = result at hends
  match result with
  | (.ok a, s') => exact hg a s' hends
  | (.error e, s') => exact hends

theorem triple_pure {a : α} (h : ∀ s, P s → Q a s) : Triple P (pure a : Prog ε σ α) Q E :=
  fun s hs => h s hs

theorem triple_throw {e : ε} (h : ∀ s, P s → E s) : Triple P (throw e : Prog ε σ α) Q E :=
  fun s hs => h s hs

/-- What follows a read knows the state it has read. -/
theorem triple_get_bind {g : σ → Prog ε σ β}
    (hg : ∀ s₀, Triple (fun s => P s ∧ s = s₀) (g s₀) S E) : Triple P (get >>= g) S E :=
  fun s hs => hg s s ⟨hs, rfl⟩

theorem triple_modify {Q : Unit → σ → Prop} {f : σ → σ} (h : ∀ s, P s → Q () (f s)) :
    Triple P (modify f : Prog ε σ Unit) Q E :=
  fun s hs => h s hs

theorem Triple.pre (h : Triple P x Q E) (hP : ∀ s, P' s → P s) : Triple P' x Q E :=
  fun s hs => h s (hP s hs)

theorem Triple.post {Q' : α → σ → Prop} (h : Triple P x Q E) (hQ : ∀ a s, Q a s → Q' a s) :
    Triple P x Q' E := by
  intro s hs
  have hends := h s hs
  generalize exec x s = result at hends
  match result with
  | (.ok a, s') => exact hQ a s' hends
  | (.error _, _) => exact hends

/-- A fact that the precondition implies may be used to prove the triple. -/
theorem triple_of_fact {fact : Prop} (hfact : ∀ s, P s → fact) (h : fact → Triple P x Q E) :
    Triple P x Q E :=
  fun s hs => h (hfact s hs) s hs

/-- The state a program starts in may be named and referred to afterwards. -/
theorem triple_start {R : σ → σ → Prop} (hR : ∀ s₀, P s₀ → R s₀ s₀)
    (h : ∀ s₀, P s₀ → Triple (R s₀) x Q E) : Triple P x Q E :=
  fun s hs => h s hs s (hR s hs)

/-- A loop that keeps an invariant relates every result to its argument. -/
theorem triple_mapM {I : σ → Prop} {f : β → Prog ε σ α} {T : β → α → Prop} {bs : List β}
    (h : ∀ b ∈ bs, Triple I (f b) (fun a s => I s ∧ T b a) E) :
    Triple I (bs.mapM f) (fun as s => I s ∧ List.Forall₂ T bs as) E := by
  induction bs with
  | nil => exact triple_pure fun _ hs => ⟨hs, .nil⟩
  | cons b bs ih =>
      rw [List.mapM_cons]
      refine triple_bind (h b List.mem_cons_self) fun a => ?_
      refine triple_of_fact (fun _ hs => hs.2) fun hfirst => ?_
      have hrest := (ih fun b' hb' => h b' (List.mem_cons_of_mem b hb')).pre
        fun s (hs : I s ∧ T b a) => hs.1
      exact triple_bind hrest fun _ => triple_pure fun _ hs => ⟨hs.1, .cons hfirst hs.2⟩

/-- A program that cannot stop returns. -/
theorem Triple.returns (h : Triple P x Q fun _ => False) {s : σ} (hs : P s) :
    ∃ a s', exec x s = (.ok a, s') ∧ Q a s' := by
  have hends := h s hs
  generalize exec x s = result at hends
  match result with
  | (.ok a, s') => exact ⟨a, s', rfl, hends⟩
  | (.error _, _) => exact absurd hends id

end Triple

/-! ## Programs that avoid an error -/

/-- The program does not stop with the error `bad`. -/
def Avoids (bad : ε) (P : σ → Prop) (x : Prog ε σ α) (Q : α → σ → Prop) : Prop :=
  ∀ s, P s → (exec x s).1 ≠ .error bad ∧ ∀ a s', exec x s = (.ok a, s') → Q a s'

section Avoids

variable {bad : ε} {P P' : σ → Prop} {Q R : α → σ → Prop} {S : β → σ → Prop}
  {x : Prog ε σ α} {g : α → Prog ε σ β}

theorem avoids_pure {a : α} (h : ∀ s, P s → Q a s) : Avoids bad P (pure a : Prog ε σ α) Q := by
  intro s hs
  refine ⟨by simp, fun a' s' heq => ?_⟩
  obtain ⟨hvalue, rfl⟩ := Prod.mk.inj heq
  exact Except.ok.inj hvalue ▸ h s hs

theorem avoids_throw {e : ε} (h : e ≠ bad) : Avoids bad P (throw e : Prog ε σ α) Q := by
  intro s _
  refine ⟨fun heq => h (Except.error.inj heq), fun a s' heq => ?_⟩
  exact absurd (congrArg Prod.fst heq) (by simp)

theorem avoids_modify {Q : Unit → σ → Prop} {f : σ → σ} (h : ∀ s, P s → Q () (f s)) :
    Avoids bad P (modify f : Prog ε σ Unit) Q := by
  intro s hs
  refine ⟨by simp, fun a s' heq => ?_⟩
  rw [← (Prod.mk.inj heq).2]
  exact h s hs

theorem avoids_bind (hx : Avoids bad P x R) (hg : ∀ a, Avoids bad (R a) (g a) S) :
    Avoids bad P (x >>= g) S := by
  intro s hs
  obtain ⟨hne, hreturns⟩ := hx s hs
  rw [exec_bind]
  generalize exec x s = result at hne hreturns
  match result with
  | (.ok a, s') => exact hg a s' (hreturns a s' rfl)
  | (.error e, s') =>
      refine ⟨fun heq => hne ?_, fun a s'' heq => absurd (congrArg Prod.fst heq) (by simp)⟩
      exact congrArg Except.error (Except.error.inj heq)

theorem avoids_get {g : σ → Prog ε σ β} (hg : ∀ s₀, Avoids bad P (g s₀) S) :
    Avoids bad P (get >>= g) S :=
  fun s hs => hg s s hs

theorem Avoids.pre (h : Avoids bad P x Q) (hP : ∀ s, P' s → P s) : Avoids bad P' x Q :=
  fun s hs => h s (hP s hs)

theorem avoids_of_fact {fact : Prop} (hfact : ∀ s, P s → fact) (h : fact → Avoids bad P x Q) :
    Avoids bad P x Q :=
  fun s hs => h (hfact s hs) s hs

/-- A loop that keeps an invariant relates every result to its argument. -/
theorem avoids_mapM {I : σ → Prop} {f : β → Prog ε σ α} {T : β → α → Prop} {bs : List β}
    (h : ∀ b ∈ bs, Avoids bad I (f b) (fun a s => I s ∧ T b a)) :
    Avoids bad I (bs.mapM f) (fun as s => I s ∧ List.Forall₂ T bs as) := by
  induction bs with
  | nil => exact avoids_pure fun _ hs => ⟨hs, .nil⟩
  | cons b bs ih =>
      rw [List.mapM_cons]
      refine avoids_bind (h b List.mem_cons_self) fun a => ?_
      refine avoids_of_fact (fun _ hs => hs.2) fun hfirst => ?_
      have hrest := (ih fun b' hb' => h b' (List.mem_cons_of_mem b hb')).pre
        fun s (hs : I s ∧ T b a) => hs.1
      exact avoids_bind hrest fun _ => avoids_pure fun _ hs => ⟨hs.1, .cons hfirst hs.2⟩

end Avoids

/-! ## Frame conditions -/

/-- The part `f` of the state is the same before and after. -/
def Keeps (f : σ → γ) (x : Prog ε σ α) : Prop := ∀ s, f (exec x s).2 = f s

section Keeps

variable {f : σ → γ} {x : Prog ε σ α} {g : α → Prog ε σ β}

theorem keeps_pure (a : α) : Keeps f (pure a : Prog ε σ α) := fun _ => rfl

theorem keeps_throw (e : ε) : Keeps f (throw e : Prog ε σ α) := fun _ => rfl

theorem keeps_get : Keeps f (get : Prog ε σ σ) := fun _ => rfl

theorem keeps_modify {h : σ → σ} (hf : ∀ s, f (h s) = f s) :
    Keeps f (modify h : Prog ε σ Unit) := hf

theorem keeps_bind (hx : Keeps f x) (hg : ∀ a, Keeps f (g a)) : Keeps f (x >>= g) := by
  intro s
  have hstate := hx s
  rw [exec_bind]
  generalize exec x s = result at hstate
  match result with
  | (.ok a, s') => exact (hg a s').trans hstate
  | (.error e, s') => exact hstate

theorem keeps_ite {c : Prop} [Decidable c] {y : Prog ε σ α} (hx : Keeps f x)
    (hy : Keeps f y) : Keeps f (if c then x else y) := by
  split
  · exact hx
  · exact hy

theorem keeps_mapM {h : β → Prog ε σ α} (hh : ∀ b, Keeps f (h b)) (bs : List β) :
    Keeps f (bs.mapM h) := by
  induction bs with
  | nil => exact keeps_pure []
  | cons b bs ih =>
      rw [List.mapM_cons]
      exact keeps_bind (hh b) fun _ => keeps_bind ih fun _ => keeps_pure _

/-- A part of a part that is kept is kept. -/
theorem Keeps.part {δ : Type} {h : σ → δ} (hx : Keeps f x) (g : γ → δ)
    (hg : ∀ s, h s = g (f s)) : Keeps h x := by
  intro s
  rw [hg, hg, hx s]

/-- **The frame rule.**  What depends only on a part that is kept can be used
after the program, and has to suffice if it stops. -/
theorem Keeps.andThen {P E : σ → Prop} {S : β → σ → Prop} (h : Keeps f x)
    (hP : ∀ {s s'}, f s' = f s → P s → P s') (hE : ∀ s, P s → E s)
    (hg : ∀ a, Triple P (g a) S E) : Triple P (x >>= g) S E := by
  refine triple_bind (R := fun _ => P) ?_ hg
  intro s hs
  have hstate := h s
  generalize exec x s = result at hstate
  match result with
  | (.ok a, s') => exact hP hstate hs
  | (.error e, s') => exact hE s' (hP hstate hs)

/-- The frame rule for the last part of a program. -/
theorem Keeps.triple {P E : σ → Prop} {Q : α → σ → Prop} (h : Keeps f x)
    (hP : ∀ {s s'}, f s' = f s → P s → P s') (hE : ∀ s, P s → E s)
    (hQ : ∀ a s, P s → Q a s) : Triple P x Q E := by
  intro s hs
  have hstate := h s
  generalize exec x s = result at hstate
  match result with
  | (.ok a, s') => exact hQ a s' (hP hstate hs)
  | (.error e, s') => exact hE s' (hP hstate hs)

/-- A part that is kept stays what it is. -/
theorem Keeps.value {E : σ → Prop} (h : Keeps f x) (c : γ) (hE : ∀ s, f s = c → E s) :
    Triple (fun s => f s = c) x (fun _ s => f s = c) E :=
  h.triple (fun heq hs => heq.trans hs) hE fun _ _ hs => hs

end Keeps

end Hoare
end Lib
end VoipBill
