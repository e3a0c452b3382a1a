import Mathlib.Data.List.Induction
import Mathlib.Tactic.Common

/-!
# Removing groups in one pass

A text with opening and closing brackets is read from left to right with a stack of the open
groups.  A closing bracket removes the innermost open group; without one it stays, and so do
groups that are never closed.

* `run`: the text so far, split at the open groups;
* `length_opens`, `onlyGroups_iff`: what the stack and the remaining text say about the marks;
* `exists_of_base`: a character outside of all groups cuts the text in two parts that are read
  independently;
* `HasGroup`: an opening bracket with a closing one behind it; exactly then something is
  removed (`text_of_not_hasGroup`, `length_text_lt`).
-/

namespace VoipBill
namespace Lib
namespace Brackets

/-- A character of a text, as a bracket or not. -/
inductive Mark (α : Type) where
  | opening (a : α)
  | closing (a : α)
  | plain (a : α)

variable {α : Type}

def Mark.value : Mark α → α
  | opening a => a
  | closing a => a
  | plain a => a

/-- What is left outside of the open groups, and the open groups, the innermost first. -/
@[ext] structure State (α : Type) where
  base : List α := []
  opens : List (List α) := []

def State.step (s : State α) : Mark α → State α
  | .opening a => { s with opens := [a] :: s.opens }
  | .closing a =>
      match s.opens with
      | [] => { s with base := s.base ++ [a] }
      | _ :: opens => { s with opens := opens }
  | .plain a =>
      match s.opens with
      | [] => { s with base := s.base ++ [a] }
      | group :: opens => { s with opens := (group ++ [a]) :: opens }

/-- Everything that is left. -/
def State.text (s : State α) : List α := s.base ++ s.opens.reverse.flatten

def run (m : List (Mark α)) : State α := m.foldl State.step {}

theorem run_concat (m : List (Mark α)) (x : Mark α) : run (m ++ [x]) = (run m).step x := by
  rw [run, List.foldl_append]
  rfl

/-! ## Depth -/

/-- The groups that are open at the end. -/
def unclosed (m : List (Mark α)) : Nat :=
  m.foldl (fun n x => match x with
    | .opening _ => n + 1
    | .closing _ => n - 1
    | .plain _ => n) 0

/-- The depth after one more mark, if nothing is outside of all groups. -/
def groupStep : Option Nat → Mark α → Option Nat
  | none, _ => none
  | some n, .opening _ => some (n + 1)
  | some 0, _ => none
  | some (n + 1), .closing _ => some n
  | some (n + 1), .plain _ => some (n + 1)

/-- The marks are a row of complete groups. -/
def OnlyGroups (m : List (Mark α)) : Prop := m.foldl groupStep (some 0) = some 0

instance (m : List (Mark α)) : Decidable (OnlyGroups m) :=
  inferInstanceAs (Decidable (m.foldl groupStep (some 0) = some 0))

theorem length_opens (m : List (Mark α)) : (run m).opens.length = unclosed m := by
  induction m using List.reverseRecOn with
  | nil => rfl
  | append_singleton m x ih =>
      rw [run_concat, unclosed, List.foldl_append, ← unclosed, ← ih]
      cases x with
      | opening a => rfl
      | closing a => cases hopens : (run m).opens <;> simp [State.step, hopens]
      | plain a => cases hopens : (run m).opens <;> simp [State.step, hopens]

theorem foldl_groupStep_eq_some_iff (m : List (Mark α)) (n : Nat) :
    m.foldl groupStep (some 0) = some n ↔ (run m).base = [] ∧ (run m).opens.length = n := by
  induction m using List.reverseRecOn generalizing n with
  | nil => simp [run, eq_comm]
  | append_singleton m x ih =>
      rw [run_concat, List.foldl_append, List.foldl_cons, List.foldl_nil]
      by_cases hbase : (run m).base = []
      · rw [(ih (run m).opens.length).mpr ⟨hbase, rfl⟩]
        cases x with
        | opening a => simp [groupStep, State.step, hbase]
        | closing a => cases hopens : (run m).opens <;> simp [groupStep, State.step, hopens, hbase]
        | plain a => cases hopens : (run m).opens <;> simp [groupStep, State.step, hopens, hbase]
      · have hnone : m.foldl groupStep (some 0) = none := by
          rw [Option.eq_none_iff_forall_ne_some]
          exact fun k hk => hbase ((ih k).mp hk).1
        rw [hnone]
        cases x with
        | opening a => simp [groupStep, State.step, hbase]
        | closing a => cases hopens : (run m).opens <;> simp [groupStep, State.step, hopens, hbase]
        | plain a => cases hopens : (run m).opens <;> simp [groupStep, State.step, hopens, hbase]

/-- A row of complete groups leaves nothing. -/
theorem onlyGroups_iff (m : List (Mark α)) : OnlyGroups m ↔ run m = {} := by
  rw [OnlyGroups, foldl_groupStep_eq_some_iff, List.length_eq_zero_iff, State.ext_iff]

theorem foldl_groupStep_none (m : List (Mark α)) : m.foldl groupStep none = none := by
  induction m with
  | nil => rfl
  | cons x m ih => exact ih

/-- A row of complete groups begins with an opening bracket. -/
theorem OnlyGroups.head {x : Mark α} {m : List (Mark α)} (h : OnlyGroups (x :: m)) :
    ∃ a, x = .opening a := by
  cases x with
  | opening a => exact ⟨a, rfl⟩
  | closing a => exact absurd ((foldl_groupStep_none m).symm.trans h) (by simp)
  | plain a => exact absurd ((foldl_groupStep_none m).symm.trans h) (by simp)

/-- A row of complete groups ends with a closing bracket. -/
theorem OnlyGroups.last {m : List (Mark α)} {x : Mark α} (h : OnlyGroups (m ++ [x])) :
    ∃ a, x = .closing a := by
  rw [onlyGroups_iff, run_concat] at h
  cases x with
  | closing a => exact ⟨a, rfl⟩
  | opening a => exact absurd (congrArg State.opens h) (by simp [State.step])
  | plain a =>
      cases hopens : (run m).opens with
      | nil => exact absurd (congrArg State.base h) (by simp [State.step, hopens])
      | cons group opens => exact absurd (congrArg State.opens h) (by simp [State.step, hopens])

/-! ## Parts of a text -/

/-- The remaining text in front is not looked at. -/
theorem step_base (b : List α) (s : State α) (x : Mark α) :
    State.step ⟨b ++ s.base, s.opens⟩ x = ⟨b ++ (s.step x).base, (s.step x).opens⟩ := by
  cases x with
  | opening a => rfl
  | closing a =>
      cases hopens : s.opens <;> simp [State.step, hopens]
  | plain a =>
      cases hopens : s.opens <;> simp [State.step, hopens]

/-- After a text without open groups the rest is read as if it were alone. -/
theorem run_append {u : List (Mark α)} {b : List α} (h : run u = ⟨b, []⟩) (v : List (Mark α)) :
    run (u ++ v) = ⟨b ++ (run v).base, (run v).opens⟩ := by
  induction v using List.reverseRecOn with
  | nil =>
      rw [List.append_nil, h]
      simp [run]
  | append_singleton v x ih => rw [← List.append_assoc, run_concat, ih, run_concat, step_base]

/-- What is outside of all groups stays. -/
theorem base_append (m v : List (Mark α)) : ∃ rest, (run (m ++ v)).base = (run m).base ++ rest := by
  induction v using List.reverseRecOn with
  | nil => exact ⟨[], by simp⟩
  | append_singleton v x ih =>
      obtain ⟨rest, hrest⟩ := ih
      rw [← List.append_assoc, run_concat]
      cases x with
      | opening a => exact ⟨rest, hrest⟩
      | closing a =>
          cases hopens : (run (m ++ v)).opens with
          | nil => exact ⟨rest ++ [a], by simp [State.step, hopens, hrest]⟩
          | cons group opens => exact ⟨rest, by simp [State.step, hopens, hrest]⟩
      | plain a =>
          cases hopens : (run (m ++ v)).opens with
          | nil => exact ⟨rest ++ [a], by simp [State.step, hopens, hrest]⟩
          | cons group opens => exact ⟨rest, by simp [State.step, hopens, hrest]⟩

/-- One more mark leaves what is outside of all groups, or puts itself behind it. -/
theorem step_cases (s : State α) (x : Mark α) :
    (s.step x).base = s.base ∨
      s.opens = [] ∧ (∀ a, x ≠ .opening a) ∧ s.step x = ⟨s.base ++ [x.value], []⟩ := by
  cases x with
  | opening a => exact Or.inl rfl
  | closing a =>
      cases hopens : s.opens with
      | nil => exact Or.inr ⟨rfl, by simp, by simp [State.step, hopens, Mark.value]⟩
      | cons group opens => exact Or.inl (by simp [State.step, hopens])
  | plain a =>
      cases hopens : s.opens with
      | nil => exact Or.inr ⟨rfl, by simp, by simp [State.step, hopens, Mark.value]⟩
      | cons group opens => exact Or.inl (by simp [State.step, hopens])

/-- **Cutting.**  A character outside of all groups is a mark of the text that opens no group,
in front of which no group is open, and what is left behind it comes from the marks behind it
alone. -/
theorem exists_of_base {m : List (Mark α)} {b b' : List α} {c : α}
    (h : (run m).base = b ++ c :: b') :
    ∃ u x v, m = u ++ x :: v ∧ run u = ⟨b, []⟩ ∧ x.value = c ∧ (∀ a, x ≠ .opening a) ∧
      run v = ⟨b', (run m).opens⟩ := by
  induction m using List.reverseRecOn generalizing b' with
  | nil => exact absurd h (by simp [run])
  | append_singleton m x ih =>
      rw [run_concat] at h ⊢
      rcases step_cases (run m) x with hkept | ⟨hopens, hx, hstep⟩
      · obtain ⟨u, y, v, rfl, hu, hy, hplain, hv⟩ := ih (hkept.symm.trans h)
        refine ⟨u, y, v ++ [x], by simp, hu, hy, hplain, ?_⟩
        -- the last mark acts on what is left behind the character as on the whole
        have hframe := step_base (b ++ [c]) ⟨b', (run (u ++ y :: v)).opens⟩ x
        have hwhole : (⟨b ++ [c] ++ b', (run (u ++ y :: v)).opens⟩ : State α) =
            run (u ++ y :: v) := by
          ext1
          · simp [hkept.symm.trans h]
          · rfl
        rw [hwhole] at hframe
        rw [run_concat, hv]
        ext1
        · have hbase := congrArg State.base hframe
          rw [h, List.append_assoc, List.singleton_append, List.append_cancel_left_eq,
            List.cons_inj_right] at hbase
          exact hbase.symm
        · exact (congrArg State.opens hframe).symm
      · rw [hstep] at h ⊢
        rcases List.eq_nil_or_concat b' with rfl | ⟨init, a, rfl⟩
        · obtain ⟨hbase, hvalue⟩ := List.append_inj' h rfl
          refine ⟨m, x, [], by simp, ?_, by simpa using hvalue, hx, rfl⟩
          ext1
          · exact hbase
          · exact hopens
        · have hbefore : (run m).base ++ [x.value] = b ++ c :: init.concat a := h
          have hsplit : (run m).base ++ [x.value] = (b ++ c :: init) ++ [a] := by
            rw [hbefore]
            simp
          obtain ⟨hbase, hvalue⟩ := List.append_inj' hsplit rfl
          obtain ⟨u, y, v, rfl, hu, hy, hplain, hv⟩ := ih hbase
          refine ⟨u, y, v ++ [x], by simp, hu, hy, hplain, ?_⟩
          rw [run_concat, hv, hopens]
          have hlast : x.value = a := by simpa using hvalue
          rcases step_cases ⟨init, []⟩ x with hsame | ⟨-, -, hnew⟩
          · -- with no group open the mark is put behind
            cases x with
            | opening e => exact absurd rfl (hx e)
            | closing e => exact absurd hsame (by simp [State.step])
            | plain e => exact absurd hsame (by simp [State.step])
          · rw [hnew, hlast, List.concat_eq_append]

/-- Open groups consist of characters that close nothing. -/
theorem of_mem_opens {m : List (Mark α)} {P : α → Prop} (h : ∀ x ∈ m, (∀ a, x ≠ .closing a) →
    P x.value) : ∀ group ∈ (run m).opens, ∀ a ∈ group, P a := by
  induction m using List.reverseRecOn with
  | nil => simp [run]
  | append_singleton m x ih =>
      have hbefore := ih fun y hy => h y (List.mem_append_left _ hy)
      have hlast := h x (by simp)
      rw [run_concat]
      cases x with
      | opening a =>
          intro group hgroup c hc
          rcases List.mem_cons.mp hgroup with rfl | hold
          · rw [List.mem_singleton.mp hc]
            exact hlast (by simp)
          · exact hbefore group hold c hc
      | closing a =>
          cases hopens : (run m).opens with
          | nil => simp [State.step, hopens]
          | cons group opens =>
              intro other hother
              rw [hopens] at hbefore
              simp only [State.step, hopens] at hother
              exact hbefore other (List.mem_cons_of_mem _ hother)
      | plain a =>
          cases hopens : (run m).opens with
          | nil => simp [State.step, hopens]
          | cons group opens =>
              intro other hother c hc
              rw [hopens] at hbefore
              simp only [State.step, hopens] at hother
              rcases List.mem_cons.mp hother with rfl | hold
              · rcases List.mem_append.mp hc with hin | hnew
                · exact hbefore group List.mem_cons_self c hin
                · rw [List.mem_singleton.mp hnew]
                  exact hlast (by simp)
              · exact hbefore other (List.mem_cons_of_mem _ hold) c hc

/-! ## Something to remove -/

/-- An opening bracket has a closing one somewhere behind it. -/
def HasGroup (m : List (Mark α)) : Prop :=
  ∃ u v w a b, m = u ++ .opening a :: (v ++ .closing b :: w)

theorem hasGroup_concat {m : List (Mark α)} {x : Mark α} : HasGroup (m ++ [x]) ↔
    HasGroup m ∨ (∃ a, .opening a ∈ m) ∧ ∃ b, x = .closing b := by
  constructor
  · rintro ⟨u, v, w, a, b, h⟩
    rcases List.eq_nil_or_concat w with rfl | ⟨w', y, rfl⟩
    · have hsplit : m ++ [x] = (u ++ .opening a :: v) ++ [.closing b] := by
        rw [h]
        simp
      obtain ⟨rfl, hx⟩ := List.append_inj' hsplit rfl
      exact Or.inr ⟨⟨a, by simp⟩, b, by simpa using hx⟩
    · have hsplit : m ++ [x] = (u ++ .opening a :: (v ++ .closing b :: w')) ++ [y] := by
        rw [h]
        simp
      exact Or.inl ⟨u, v, w', a, b, (List.append_inj' hsplit rfl).1⟩
  · rintro (⟨u, v, w, a, b, rfl⟩ | ⟨⟨a, ha⟩, b, rfl⟩)
    · exact ⟨u, v, w ++ [x], a, b, by simp⟩
    · obtain ⟨u, v, rfl⟩ := List.append_of_mem ha
      exact ⟨u, v, [], a, b, by simp⟩

/-- An opening bracket is still open, or was closed. -/
theorem opening_mem_iff (m : List (Mark α)) :
    ((run m).opens ≠ [] → ∃ a, .opening a ∈ m) ∧
      ((∃ a, .opening a ∈ m) → (run m).opens ≠ [] ∨ HasGroup m) := by
  induction m using List.reverseRecOn with
  | nil => simp [run]
  | append_singleton m x ih =>
      obtain ⟨hopen, hclosed⟩ := ih
      rw [run_concat, hasGroup_concat]
      cases x with
      | opening a => exact ⟨fun _ => ⟨a, by simp⟩, fun _ => Or.inl (by simp [State.step])⟩
      | closing a =>
          refine ⟨fun h => ?_, ?_⟩
          · obtain ⟨c, hc⟩ := hopen fun hnil => h (by simp [State.step, hnil])
            exact ⟨c, List.mem_append_left _ hc⟩
          · rintro ⟨c, hc⟩
            have hold : .opening c ∈ m := by simpa using hc
            exact Or.inr (Or.inr ⟨⟨c, hold⟩, a, rfl⟩)
      | plain a =>
          have hsame : (State.step (run m) (.plain a)).opens ≠ [] ↔ (run m).opens ≠ [] := by
            cases hopens : (run m).opens <;> simp [State.step, hopens]
          rw [hsame]
          refine ⟨fun h => ?_, ?_⟩
          · obtain ⟨c, hc⟩ := hopen h
            exact ⟨c, List.mem_append_left _ hc⟩
          · rintro ⟨c, hc⟩
            have hold : .opening c ∈ m := by simpa using hc
            exact (hclosed ⟨c, hold⟩).imp_right Or.inl

/-- A closing bracket makes a group of what is open before it. -/
theorem hasGroup_concat_closing (m : List (Mark α)) (b : α) :
    HasGroup (m ++ [.closing b]) ↔ HasGroup m ∨ (run m).opens ≠ [] := by
  obtain ⟨hopen, hclosed⟩ := opening_mem_iff m
  rw [hasGroup_concat]
  constructor
  · rintro (h | ⟨h, -⟩)
    · exact Or.inl h
    · exact (hclosed h).symm
  · rintro (h | h)
    · exact Or.inl h
    · exact Or.inr ⟨hopen h, b, rfl⟩

theorem text_step (s : State α) (x : Mark α) (h : s.opens = [] ∨ ∀ a, x ≠ .closing a) :
    (s.step x).text = s.text ++ [x.value] := by
  cases x with
  | opening a => simp [State.step, State.text, Mark.value]
  | closing a =>
      have hopens : s.opens = [] := h.resolve_right (by simp)
      simp [State.step, State.text, Mark.value, hopens]
  | plain a => cases hopens : s.opens <;> simp [State.step, State.text, Mark.value, hopens]

/-- Without a group nothing is removed. -/
theorem text_of_not_hasGroup {m : List (Mark α)} (h : ¬ HasGroup m) :
    (run m).text = m.map Mark.value := by
  induction m using List.reverseRecOn with
  | nil => rfl
  | append_singleton m x ih =>
      have hbefore : ¬ HasGroup m := fun hm => h (hasGroup_concat.mpr (Or.inl hm))
      have hlast : (run m).opens = [] ∨ ∀ a, x ≠ .closing a := by
        by_contra hnot
        obtain ⟨hopens, hclosing⟩ := not_or.mp hnot
        obtain ⟨b, hb⟩ := not_forall.mp hclosing
        obtain rfl := not_not.mp hb
        exact h ((hasGroup_concat_closing m b).mpr (Or.inr hopens))
      rw [run_concat, text_step _ _ hlast, ih hbefore, List.map_append]
      rfl

/-- A closing bracket of an open group removes it. -/
theorem text_close {s : State α} (h : s.opens ≠ []) (b : α) :
    (s.step (.closing b)).text.Sublist s.text := by
  obtain ⟨group, opens, hcons⟩ := List.exists_cons_of_ne_nil h
  simp [State.step, State.text, hcons]

/-- A mark is put behind the text, or is a closing bracket that removes a group. -/
theorem text_step_cases (m : List (Mark α)) (x : Mark α) :
    (run (m ++ [x])).text = (run m).text ++ [x.value] ∧ (HasGroup (m ++ [x]) ↔ HasGroup m) ∨
      (run (m ++ [x])).text.Sublist (run m).text := by
  rw [run_concat]
  by_cases hclosing : ∃ b, x = .closing b
  · obtain ⟨b, rfl⟩ := hclosing
    by_cases hopens : (run m).opens = []
    · refine Or.inl ⟨text_step _ _ (Or.inl hopens), ?_⟩
      rw [hasGroup_concat_closing]
      exact or_iff_left (not_not.mpr hopens)
    · exact Or.inr (text_close hopens b)
  · refine Or.inl ⟨text_step _ _ (Or.inr fun a ha => hclosing ⟨a, ha⟩), ?_⟩
    rw [hasGroup_concat]
    exact or_iff_left fun h => hclosing h.2

/-- What is left stands in the text in this order. -/
theorem text_sublist (m : List (Mark α)) : (run m).text.Sublist (m.map Mark.value) := by
  induction m using List.reverseRecOn with
  | nil => exact List.Sublist.refl _
  | append_singleton m x ih =>
      rw [List.map_append, List.map_cons, List.map_nil]
      rcases text_step_cases m x with ⟨htext, -⟩ | hdrop
      · rw [htext]
        exact ih.append (List.Sublist.refl _)
      · exact (hdrop.trans ih).trans (List.sublist_append_left _ _)

/-- A group makes the text shorter. -/
theorem length_text_lt {m : List (Mark α)} (h : HasGroup m) : (run m).text.length < m.length := by
  induction m using List.reverseRecOn with
  | nil =>
      obtain ⟨u, v, w, a, b, heq⟩ := h
      simp at heq
  | append_singleton m x ih =>
      rw [List.length_append, List.length_singleton]
      rcases text_step_cases m x with ⟨htext, hgroup⟩ | hdrop
      · have hshort := ih (hgroup.mp h)
        rw [htext, List.length_append, List.length_singleton]
        omega
      · have hbefore := (text_sublist m).length_le
        have hafter := hdrop.length_le
        rw [List.length_map] at hbefore
        omega

end Brackets
end Lib
end VoipBill
