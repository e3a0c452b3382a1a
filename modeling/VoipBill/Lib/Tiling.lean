import Mathlib.Order.Interval.Set.Basic

/-!
# Windows around points

A `Tiling` gives every valid point a closed window around it, such that windows that meet are
equal: a line is cut into intervals, of which only those with a valid point count.

* `Tiling.disjoint_of_notMem`: the windows of two points are disjoint if one of the points is
  not in the window of the other;
* `Tiling.whole`: one window for all points;
* `Tiling.clip`: windows cut off at two bounds.
-/

namespace VoipBill
namespace Lib

/-- A window `first t` to `last t` for every valid point `t`. -/
structure Tiling (T : Type) [LinearOrder T] where
  valid : T → Prop
  first : T → T
  last : T → T
  mem : ∀ t, valid t → t ∈ Set.Icc (first t) (last t)
  same : ∀ t t' s, valid t → valid t' → s ∈ Set.Icc (first t) (last t) →
    s ∈ Set.Icc (first t') (last t') → first t = first t' ∧ last t = last t'

namespace Tiling

variable {T : Type} [LinearOrder T]

theorem disjoint_of_notMem (tiling : Tiling T) {t t' : T} (h : tiling.valid t)
    (h' : tiling.valid t') (hnot : t ∉ Set.Icc (tiling.first t') (tiling.last t')) :
    tiling.last t < tiling.first t' ∨ tiling.last t' < tiling.first t := by
  by_contra hmeet
  obtain ⟨hmeet, hmeet'⟩ := not_or.mp hmeet
  have hmem := tiling.mem t h
  have hmem' := tiling.mem t' h'
  -- the later of the two first points is in both windows
  have hin : max (tiling.first t) (tiling.first t') ∈ Set.Icc (tiling.first t) (tiling.last t) :=
    ⟨le_max_left _ _, max_le (hmem.1.trans hmem.2) (not_lt.mp hmeet)⟩
  have hin' : max (tiling.first t) (tiling.first t') ∈
      Set.Icc (tiling.first t') (tiling.last t') :=
    ⟨le_max_right _ _, max_le (not_lt.mp hmeet') (hmem'.1.trans hmem'.2)⟩
  obtain ⟨hfirst, hlast⟩ := tiling.same t t' _ h h' hin hin'
  rw [hfirst, hlast] at hmem
  exact hnot hmem

/-- One window. -/
def whole (first last : T) : Tiling T where
  valid t := t ∈ Set.Icc first last
  first _ := first
  last _ := last
  mem _ h := h
  same _ _ _ _ _ _ _ := ⟨rfl, rfl⟩

/-- The windows of a tiling between two bounds. -/
def clip (tiling : Tiling T) (first last : T) : Tiling T where
  valid t := tiling.valid t ∧ t ∈ Set.Icc first last
  first t := max (tiling.first t) first
  last t := min (tiling.last t) last
  mem t h := by
    have hmem := tiling.mem t h.1
    exact ⟨max_le hmem.1 h.2.1, le_min hmem.2 h.2.2⟩
  same t t' s h h' hs hs' := by
    have hin : s ∈ Set.Icc (tiling.first t) (tiling.last t) :=
      ⟨(le_max_left _ _).trans hs.1, hs.2.trans (min_le_left _ _)⟩
    have hin' : s ∈ Set.Icc (tiling.first t') (tiling.last t') :=
      ⟨(le_max_left _ _).trans hs'.1, hs'.2.trans (min_le_left _ _)⟩
    obtain ⟨hfirst, hlast⟩ := tiling.same t t' s h.1 h'.1 hin hin'
    rw [hfirst, hlast]
    exact ⟨rfl, rfl⟩

end Tiling
end Lib
end VoipBill
