import Mathlib.Tactic

/-!
# Synchronising a table through a set of changed keys

A table in memory is mirrored by a remote one.  Changed keys are marked; a
synchronisation takes the marked rows (or, when a full clear was requested, all
rows), writes them, and after a failure marks them again.  Rows change and clears
are requested at any time in between.

`Covered` says that no update is lost: a key whose remote row is not what is
written for the row in memory is marked, or among the rows that are taken, or a
clear is pending.  Every operation keeps it, and a successful write leaves only
marked keys behind (`Covered.commit`).
-/

namespace VoipBill
namespace Lib
namespace ChangeSet

variable {κ ρ σ : Type}

/-- The rows taken by the running synchronisation, and whether it clears. -/
structure Taken (κ ρ : Type) where
  rows : κ → Option ρ
  clears : Prop

structure State (κ ρ σ : Type) where
  rows : κ → Option ρ
  changed : Set κ
  clear : Prop
  remote : κ → Option σ
  taken : Option (Taken κ ρ)

variable (written : ρ → σ)

/-- The remote row of a key is what is written for its row in memory. -/
def State.Synced (s : State κ ρ σ) (k : κ) : Prop := s.remote k = (s.rows k).map written

/-- No update is lost. -/
structure Covered (s : State κ ρ σ) : Prop where
  /-- Keys that are not synchronised are marked, taken, or to be cleared. -/
  marked : ∀ k, ¬ s.Synced written k →
    k ∈ s.changed ∨ (∃ t ∈ s.taken, t.rows k ≠ none) ∨ s.clear
  present : ∀ k, s.rows k = none → s.remote k = none
  takenPresent : ∀ t ∈ s.taken, ∀ k, s.rows k = none → t.rows k = none
  /-- A taken row has not changed unless it is marked again. -/
  unchanged : ∀ t ∈ s.taken, ∀ k, k ∉ s.changed → ∀ r, t.rows k = some r → s.rows k = some r
  /-- A synchronisation that clears has taken all rows. -/
  whole : ∀ t ∈ s.taken, t.clears → ∀ k, k ∉ s.changed → t.rows k = none → s.rows k = none

variable {written}

/-- Nothing to do: both tables agree and no synchronisation runs. -/
theorem Covered.of_synced {s : State κ ρ σ} (hsynced : ∀ k, s.Synced written k)
    (htaken : s.taken = none) : Covered written s where
  marked := fun k hk => absurd (hsynced k) hk
  present := fun k hk => by rw [hsynced k, hk, Option.map_none]
  takenPresent := by simp [htaken]
  unchanged := by simp [htaken]
  whole := by simp [htaken]

/-- Rows are changed: every key with another row is marked, and no row is removed. -/
theorem Covered.touch {s s' : State κ ρ σ} (h : Covered written s)
    (hrows : ∀ k, k ∉ s'.changed → s'.rows k = s.rows k)
    (hkept : ∀ k, s'.rows k = none → s.rows k = none)
    (hchanged : s.changed ⊆ s'.changed) (hclear : s.clear → s'.clear)
    (hremote : s'.remote = s.remote) (htaken : s'.taken = s.taken) : Covered written s' where
  marked := by
    intro k hk
    by_cases hmark : k ∈ s'.changed
    · exact Or.inl hmark
    · have hbefore : ¬ s.Synced written k := by
        rw [State.Synced, ← hremote, ← hrows k hmark]
        exact hk
      rcases h.marked k hbefore with hchange | htake | hclears
      · exact Or.inl (hchanged hchange)
      · exact Or.inr (Or.inl (by rw [htaken]; exact htake))
      · exact Or.inr (Or.inr (hclear hclears))
  present := fun k hk => by rw [hremote]; exact h.present k (hkept k hk)
  takenPresent := fun t ht k hk => h.takenPresent t (htaken ▸ ht) k (hkept k hk)
  unchanged := by
    intro t ht k hmark r hr
    rw [hrows k hmark]
    exact h.unchanged t (htaken ▸ ht) k (fun hchange => hmark (hchanged hchange)) r hr
  whole := by
    intro t ht hclears k hmark hnone
    rw [hrows k hmark]
    exact h.whole t (htaken ▸ ht) hclears k (fun hchange => hmark (hchanged hchange)) hnone

/-- A synchronisation takes the marked rows, or all rows when a clear is pending. -/
theorem Covered.take {s s' : State κ ρ σ} {t : Taken κ ρ} (h : Covered written s)
    (htaken : s.taken = none) (hrows : ∀ k, k ∉ s.changed → s'.rows k = s.rows k)
    (hkept : ∀ k, s'.rows k = none → s.rows k = none) (hremote : s'.remote = s.remote)
    (htaken' : s'.taken = some t) (hclears : s.clear → t.clears)
    (hunclear : ¬ t.clears → ∀ k ∈ s.changed, t.rows k ≠ none)
    (hwhole : t.clears → t.rows = s'.rows) (hcurrent : ∀ k r, t.rows k = some r → s'.rows k = some r) :
    Covered written s' where
  marked := by
    intro k hk
    refine Or.inr (Or.inl ⟨t, htaken', ?_⟩)
    by_cases hclear : t.clears
    · -- every row is taken, and a key without a row has no remote row
      rw [hwhole hclear]
      intro hnone
      refine hk ?_
      rw [State.Synced, hnone, hremote, h.present k (hkept k hnone), Option.map_none]
    · by_cases hmark : k ∈ s.changed
      · exact hunclear hclear k hmark
      · have hbefore : ¬ s.Synced written k := by
          rw [State.Synced, ← hremote, ← hrows k hmark]
          exact hk
        -- a key that was not changed was in step before
        rcases h.marked k hbefore with hchange | ⟨other, hother, -⟩ | hpending
        · exact absurd hchange hmark
        · rw [htaken] at hother
          simp at hother
        · exact absurd (hclears hpending) hclear
  present := fun k hk => by rw [hremote]; exact h.present k (hkept k hk)
  takenPresent := by
    intro t' ht' k hk
    obtain rfl : t = t' := by simpa [htaken'] using ht'
    cases hrow : t.rows k with
    | none => rfl
    | some r =>
        rw [hcurrent k r hrow] at hk
        simp at hk
  unchanged := by
    intro t' ht' k _ r hr
    obtain rfl : t = t' := by simpa [htaken'] using ht'
    exact hcurrent k r hr
  whole := by
    intro t' ht' hclear k _ hnone
    obtain rfl : t = t' := by simpa [htaken'] using ht'
    rw [← hwhole hclear]
    exact hnone

/-- **A successful write**: the taken rows are written, after a clear only they are
left.  Every key is synchronised then unless it is marked or a clear is pending. -/
theorem Covered.commit {s s' : State κ ρ σ} {t : Taken κ ρ} (h : Covered written s)
    (htaken : s.taken = some t) (hrows : s'.rows = s.rows) (hchanged : s'.changed = s.changed)
    (hclear : s.clear → s'.clear) (htaken' : s'.taken = none)
    (hwritten : ∀ k r, t.rows k = some r → s'.remote k = some (written r))
    (hother : ∀ k, t.rows k = none →
      s'.remote k = s.remote k ∨ t.clears ∧ s'.remote k = none) :
    Covered written s' := by
  have hmem : t ∈ s.taken := by rw [htaken]; rfl
  have hpresent : ∀ k, s.rows k = none → s'.remote k = none := by
    intro k hk
    rcases hother k (h.takenPresent t hmem k hk) with hsame | ⟨-, hnone⟩
    · rw [hsame]
      exact h.present k hk
    · exact hnone
  refine ⟨fun k hk => ?_, fun k hk => hpresent k (hrows ▸ hk), by simp [htaken'],
    by simp [htaken'], by simp [htaken']⟩
  · by_cases hmark : k ∈ s.changed
    · exact Or.inl (hchanged ▸ hmark)
    cases hrow : t.rows k with
    | some r =>
        refine absurd ?_ hk
        rw [State.Synced, hwritten k r hrow, hrows, h.unchanged t hmem k hmark r hrow,
          Option.map_some]
    | none =>
        -- a row that was not taken is missing on both sides, or was left alone
        by_cases hclears : t.clears
        · have hnone := h.whole t hmem hclears k hmark hrow
          refine absurd ?_ hk
          rw [State.Synced, hpresent k hnone, hrows, hnone, Option.map_none]
        · have hsame : s'.remote k = s.remote k :=
            (hother k hrow).resolve_right fun hboth => hclears hboth.1
          have hbefore : ¬ s.Synced written k := by
            rw [State.Synced, ← hsame, ← hrows]
            exact hk
          rcases h.marked k hbefore with hchange | ⟨other, hin, hne⟩ | hpending
          · exact absurd hchange hmark
          · obtain rfl : t = other := by simpa [htaken] using hin
            exact absurd hrow hne
          · exact Or.inr (Or.inr (hclear hpending))

/-- After a failure the taken keys are marked again. -/
theorem Covered.restore {s s' : State κ ρ σ} {t : Taken κ ρ} (h : Covered written s)
    (htaken : s.taken = some t) (hrows : s'.rows = s.rows) (hremote : s'.remote = s.remote)
    (hchanged : ∀ k, k ∈ s.changed ∨ t.rows k ≠ none → k ∈ s'.changed)
    (hclear : s.clear → s'.clear) (htaken' : s'.taken = none) : Covered written s' := by
  refine ⟨fun k hk => ?_, fun k hk => ?_, by simp [htaken'], by simp [htaken'],
    by simp [htaken']⟩
  · have hbefore : ¬ s.Synced written k := by
      rw [State.Synced, ← hremote, ← hrows]
      exact hk
    rcases h.marked k hbefore with hchange | ⟨other, hin, hne⟩ | hpending
    · exact Or.inl (hchanged k (Or.inl hchange))
    · obtain rfl : t = other := by simpa [htaken] using hin
      exact Or.inl (hchanged k (Or.inr hne))
    · exact Or.inr (Or.inr (hclear hpending))
  · rw [hremote]
    rw [hrows] at hk
    exact h.present k hk

end ChangeSet
end Lib
end VoipBill
