import Mathlib.Logic.Relation
import Mathlib.Data.Fintype.Card
import Mathlib.Data.Set.Finite.Basic

/-!
# Cycles that can be reached

A recursion that follows a relation from one element to the next ends when the
start is accessible.  If only finitely many elements have a next one, this is so
exactly when no cycle can be reached from the start.
-/

namespace VoipBill
namespace Lib

open Relation

variable {α : Type} {r : α → α → Prop} {a b : α}

/-- Some cycle of the relation can be reached. -/
def ReachesCycle (r : α → α → Prop) (a : α) : Prop :=
  ∃ b, ReflTransGen r a b ∧ TransGen r b b

/-- The next element on the way to the cycle, or on the cycle itself, reaches it
too. -/
theorem ReachesCycle.exists_step (h : ReachesCycle r a) : ∃ b, r a b ∧ ReachesCycle r b := by
  obtain ⟨c, hpath, hcycle⟩ := h
  rcases ReflTransGen.cases_head hpath with rfl | ⟨b, hstep, hrest⟩
  · obtain ⟨b, hstep, hback⟩ := TransGen.head'_iff.mp hcycle
    exact ⟨b, hstep, b, .refl, TransGen.tail' hback hstep⟩
  · exact ⟨b, hstep, c, hrest, hcycle⟩

theorem not_reachesCycle_of_acc (h : Acc (fun x y => r y x) a) : ¬ReachesCycle r a := by
  induction h with
  | intro a _ ih =>
      intro hcycle
      obtain ⟨b, hstep, hrest⟩ := hcycle.exists_step
      exact ih b hstep hrest

theorem acc_of_not_reachesCycle {s : Set α} (hs : s.Finite) (hsource : ∀ a b, r a b → a ∈ s)
    (h : ¬ReachesCycle r a) : Acc (fun x y => r y x) a := by
  have : Finite { x // x ∈ s ∧ ReflTransGen r a x } := (hs.subset fun _ hx => hx.1).to_subtype
  let below : { x // x ∈ s ∧ ReflTransGen r a x } → { x // x ∈ s ∧ ReflTransGen r a x } → Prop :=
    fun x y => TransGen r y.1 x.1
  have : IsTrans _ below := ⟨fun _ _ _ hxy hyz => hyz.trans hxy⟩
  have : Std.Irrefl below := ⟨fun x hx => h ⟨x.1, x.2.2, hx⟩⟩
  have hwf : WellFounded below := Finite.wellFounded_of_trans_of_irrefl below
  have hreach : ∀ x : { x // x ∈ s ∧ ReflTransGen r a x }, Acc (fun x y => r y x) x.1 := by
    intro x
    induction x using hwf.induction with
    | _ x ih =>
        refine ⟨_, fun y hy => ?_⟩
        by_cases hmem : y ∈ s
        · exact ih ⟨y, hmem, x.2.2.tail hy⟩ (.single hy)
        · exact ⟨_, fun z hz => absurd (hsource y z hz) hmem⟩
  by_cases hmem : a ∈ s
  · exact hreach ⟨a, hmem, .refl⟩
  · exact ⟨_, fun z hz => absurd (hsource a z hz) hmem⟩

end Lib
end VoipBill
