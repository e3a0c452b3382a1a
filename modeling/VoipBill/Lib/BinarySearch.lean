import Mathlib.Tactic

/-!
# Binary search on a part of a list

`std::lower_bound`, `std::upper_bound` and `std::equal_range` on the positions from `first`
on, with the comparator and the value that is searched joined into predicates on elements.

* `Descends` and `Climbs`: a predicate that holds of an initial, of a final segment;
* `lowerBound_spec`: the position found separates the two segments;
* `equalRange_spec`: the positions found enclose the elements that are neither less nor
  greater, also where an element is both;
* `Selects`: a part that consists of the elements with a property, which searches narrow one
  after another: by a key (`Selects.narrowKey`) or by a point of an interval
  (`Selects.narrowInterval`).
-/

namespace VoipBill
namespace Lib
namespace BinarySearch

variable {α : Type*}

/-- The element at a position satisfies a predicate. -/
def At (p : α → Bool) (data : List α) (i : Nat) : Prop := ∃ a, data[i]? = some a ∧ p a = true

instance (p : α → Bool) (data : List α) (i : Nat) : Decidable (At p data i) :=
  match h : data[i]? with
  | none => isFalse fun ⟨_, hsome, _⟩ => by simp [h] at hsome
  | some a =>
      if hp : p a = true then isTrue ⟨a, h, hp⟩
      else isFalse fun ⟨b, hsome, hb⟩ => hp (by rw [h] at hsome; exact Option.some.inj hsome ▸ hb)

theorem at_not_iff {p : α → Bool} {data : List α} {i : Nat} (hi : i < data.length) :
    At (fun a => !p a) data i ↔ ¬ At p data i := by
  constructor
  · rintro ⟨a, ha, hnot⟩ ⟨b, hb, hp⟩
    rw [ha] at hb
    rw [← Option.some.inj hb] at hp
    simp [hp] at hnot
  · intro hnot
    refine ⟨data[i], List.getElem?_eq_getElem hi, ?_⟩
    cases hp : p data[i] with
    | false => simp [hp]
    | true => exact absurd ⟨data[i], List.getElem?_eq_getElem hi, hp⟩ hnot

/-- The loop of `lower_bound`; `fuel` is at least the number of elements left. -/
def lowerBoundLoop (less : α → Bool) (data : List α) : Nat → Nat → Nat → Nat
  | 0, first, _ => first
  | fuel + 1, first, len =>
      if len = 0 then first
      else
        let half := len / 2
        let middle := first + half
        if At less data middle then lowerBoundLoop less data fuel (middle + 1) (len - half - 1)
        else lowerBoundLoop less data fuel first half

def lowerBound (less : α → Bool) (data : List α) (first last : Nat) : Nat :=
  lowerBoundLoop less data (last - first) first (last - first)

/-- The same loop with the comparison the other way round. -/
def upperBound (greater : α → Bool) (data : List α) (first last : Nat) : Nat :=
  lowerBound (fun a => !greater a) data first last

/-- The loop of `equal_range`. -/
def equalRangeLoop (less greater : α → Bool) (data : List α) : Nat → Nat → Nat → Nat × Nat
  | 0, first, _ => (first, first)
  | fuel + 1, first, len =>
      if len = 0 then (first, first)
      else
        let half := len / 2
        let middle := first + half
        if At less data middle then
          equalRangeLoop less greater data fuel (middle + 1) (len - half - 1)
        else if At greater data middle then equalRangeLoop less greater data fuel first half
        else
          (lowerBound less data first middle,
            upperBound greater data (middle + 1) (first + len))

def equalRange (less greater : α → Bool) (data : List α) (range : Nat × Nat) : Nat × Nat :=
  equalRangeLoop less greater data (range.2 - range.1) range.1 (range.2 - range.1)

/-- The predicate holds of an initial segment of the part. -/
def Descends (p : α → Bool) (data : List α) (first last : Nat) : Prop :=
  ∀ i j, first ≤ i → i ≤ j → j < last → At p data j → At p data i

/-- The predicate holds of a final segment of the part. -/
def Climbs (p : α → Bool) (data : List α) (first last : Nat) : Prop :=
  ∀ i j, first ≤ i → i ≤ j → j < last → At p data i → At p data j

theorem Descends.part {p : α → Bool} {data : List α} {first last first' last' : Nat}
    (h : Descends p data first last) (hfirst : first ≤ first') (hlast : last' ≤ last) :
    Descends p data first' last' :=
  fun i j hi hij hj => h i j (hfirst.trans hi) hij (hj.trans_le hlast)

theorem Climbs.part {p : α → Bool} {data : List α} {first last first' last' : Nat}
    (h : Climbs p data first last) (hfirst : first ≤ first') (hlast : last' ≤ last) :
    Climbs p data first' last' :=
  fun i j hi hij hj => h i j (hfirst.trans hi) hij (hj.trans_le hlast)

theorem Climbs.not {p : α → Bool} {data : List α} {first last : Nat}
    (h : Climbs p data first last) (hlast : last ≤ data.length) :
    Descends (fun a => !p a) data first last := by
  intro i j hi hij hj hnot
  rw [at_not_iff (by omega)] at hnot ⊢
  exact fun hp => hnot (h i j hi hij hj hp)

/-! ## The position of a boundary -/

theorem lowerBoundLoop_spec {less : α → Bool} {data : List α} :
    ∀ (fuel first len : Nat), len ≤ fuel → Descends less data first (first + len) →
      first ≤ lowerBoundLoop less data fuel first len ∧
      lowerBoundLoop less data fuel first len ≤ first + len ∧
      ∀ i, first ≤ i → i < first + len →
        (i < lowerBoundLoop less data fuel first len ↔ At less data i)
  | 0, first, len, hfuel, _ => by
      obtain rfl : len = 0 := by omega
      exact ⟨le_refl _, Nat.le_add_right _ _, fun i hi hlt => by omega⟩
  | fuel + 1, first, len, hfuel, hless => by
      rw [lowerBoundLoop]
      by_cases hlen : len = 0
      · rw [if_pos hlen]
        exact ⟨le_refl _, Nat.le_add_right _ _, fun i hi hlt => by omega⟩
      · rw [if_neg hlen]
        dsimp only
        by_cases hmiddle : At less data (first + len / 2)
        · rw [if_pos hmiddle]
          -- everything up to the middle is less, the search goes on behind it
          obtain ⟨hle, hge, hiff⟩ := lowerBoundLoop_spec fuel (first + len / 2 + 1)
            (len - len / 2 - 1) (by omega) (hless.part (by omega) (by omega))
          refine ⟨by omega, by omega, fun i hi hlt => ?_⟩
          by_cases hside : i ≤ first + len / 2
          · exact iff_of_true (by omega) (hless i _ hi hside (by omega) hmiddle)
          · exact hiff i (by omega) (by omega)
        · rw [if_neg hmiddle]
          obtain ⟨hle, hge, hiff⟩ := lowerBoundLoop_spec fuel first (len / 2) (by omega)
            (hless.part (le_refl _) (by omega))
          refine ⟨hle, by omega, fun i hi hlt => ?_⟩
          by_cases hside : i < first + len / 2
          · exact hiff i hi hside
          · refine iff_of_false (by omega) fun hat => hmiddle ?_
            exact hless _ i (by omega) (by omega) hlt hat

/-- The position that `lower_bound` finds separates the elements that are less from those
that are not. -/
theorem lowerBound_spec {less : α → Bool} {data : List α} {first last : Nat}
    (hrange : first ≤ last) (hless : Descends less data first last) :
    first ≤ lowerBound less data first last ∧ lowerBound less data first last ≤ last ∧
      ∀ i, first ≤ i → i < last → (i < lowerBound less data first last ↔ At less data i) := by
  have hlast : first + (last - first) = last := by omega
  have h := lowerBoundLoop_spec (last - first) first (last - first) (le_refl _)
    (by rw [hlast]; exact hless)
  rwa [hlast] at h

theorem upperBound_spec {greater : α → Bool} {data : List α} {first last : Nat}
    (hrange : first ≤ last) (hlast : last ≤ data.length)
    (hgreater : Climbs greater data first last) :
    first ≤ upperBound greater data first last ∧ upperBound greater data first last ≤ last ∧
      ∀ i, first ≤ i → i < last →
        (i < upperBound greater data first last ↔ ¬ At greater data i) := by
  obtain ⟨hle, hge, hiff⟩ := lowerBound_spec hrange (hgreater.not hlast)
  refine ⟨hle, hge, fun i hi hlt => ?_⟩
  rw [upperBound, hiff i hi hlt]
  exact at_not_iff (by omega)

/-! ## The range of the equivalent elements -/

/-- The positions of a part that a range encloses are those of the elements that are
neither less nor greater. -/
structure Encloses (less greater : α → Bool) (data : List α) (first last : Nat)
    (range : Nat × Nat) : Prop where
  first_le : first ≤ range.1
  le : range.1 ≤ range.2
  le_last : range.2 ≤ last
  mem_iff : ∀ i, first ≤ i → i < last →
    ((range.1 ≤ i ∧ i < range.2) ↔ ¬ At less data i ∧ ¬ At greater data i)

theorem equalRangeLoop_spec {less greater : α → Bool} {data : List α} :
    ∀ (fuel first len : Nat), len ≤ fuel → first + len ≤ data.length →
      Descends less data first (first + len) → Climbs greater data first (first + len) →
      Encloses less greater data first (first + len)
        (equalRangeLoop less greater data fuel first len)
  | 0, first, len, hfuel, _, _, _ => by
      obtain rfl : len = 0 := by omega
      exact ⟨le_refl _, le_refl _, Nat.le_add_right _ _, fun i hi hlt => by omega⟩
  | fuel + 1, first, len, hfuel, hlast, hless, hgreater => by
      rw [equalRangeLoop]
      by_cases hlen : len = 0
      · rw [if_pos hlen]
        exact ⟨le_refl _, le_refl _, Nat.le_add_right _ _, fun i hi hlt => by omega⟩
      · rw [if_neg hlen]
        dsimp only
        by_cases hbelow : At less data (first + len / 2)
        · rw [if_pos hbelow]
          have h := equalRangeLoop_spec fuel (first + len / 2 + 1) (len - len / 2 - 1)
            (by omega) (by omega) (hless.part (by omega) (by omega))
            (hgreater.part (by omega) (by omega))
          have hfirst := h.first_le
          have hend := h.le_last
          refine ⟨by omega, h.le, by omega, fun i hi hlt => ?_⟩
          by_cases hside : i ≤ first + len / 2
          · refine iff_of_false (by omega) fun hneither => hneither.1 ?_
            exact hless i _ hi hside (by omega) hbelow
          · exact h.mem_iff i (by omega) (by omega)
        · rw [if_neg hbelow]
          by_cases habove : At greater data (first + len / 2)
          · rw [if_pos habove]
            have h := equalRangeLoop_spec fuel first (len / 2) (by omega) (by omega)
              (hless.part (le_refl _) (by omega)) (hgreater.part (le_refl _) (by omega))
            have hend := h.le_last
            refine ⟨h.first_le, h.le, by omega, fun i hi hlt => ?_⟩
            by_cases hside : i < first + len / 2
            · exact h.mem_iff i hi hside
            · refine iff_of_false (by omega) fun hneither => hneither.2 ?_
              exact hgreater _ i (by omega) (by omega) hlt habove
          · rw [if_neg habove]
            -- the middle is neither, so the range ends on its two sides
            obtain ⟨hlo, hlo', hbelowIff⟩ := lowerBound_spec (Nat.le_add_right first (len / 2))
              (hless.part (le_refl _) (show first + len / 2 ≤ first + len by omega))
            obtain ⟨hhi, hhi', haboveIff⟩ := upperBound_spec
              (show first + len / 2 + 1 ≤ first + len by omega) hlast
              (hgreater.part (by omega) (le_refl _))
            refine ⟨hlo, by dsimp only; omega, hhi', fun i hi hlt => ?_⟩
            dsimp only
            rcases Nat.lt_trichotomy i (first + len / 2) with hside | rfl | hside
            · have hnotGreater : ¬ At greater data i := fun hat =>
                habove (hgreater i _ hi hside.le (by omega) hat)
              have hiff := hbelowIff i hi hside
              constructor
              · exact fun hin => ⟨fun hat => by have := hiff.mpr hat; omega, hnotGreater⟩
              · intro hneither
                have hge : ¬ i < lowerBound less data first (first + len / 2) := fun hlow =>
                  hneither.1 (hiff.mp hlow)
                omega
            · exact iff_of_true ⟨hlo', by omega⟩ ⟨hbelow, habove⟩
            · have hnotLess : ¬ At less data i := fun hat =>
                hbelow (hless _ i (by omega) hside.le hlt hat)
              have hiff := haboveIff i (by omega) hlt
              constructor
              · exact fun hin => ⟨hnotLess, hiff.mp hin.2⟩
              · exact fun hneither => ⟨by omega, hiff.mpr hneither.2⟩

/-- **What `equal_range` finds** on a part that both comparisons divide. -/
theorem equalRange_spec {less greater : α → Bool} {data : List α} {range : Nat × Nat}
    (hrange : range.1 ≤ range.2) (hlast : range.2 ≤ data.length)
    (hless : Descends less data range.1 range.2)
    (hgreater : Climbs greater data range.1 range.2) :
    Encloses less greater data range.1 range.2 (equalRange less greater data range) := by
  have heq : range.1 + (range.2 - range.1) = range.2 := by omega
  have h := equalRangeLoop_spec (range.2 - range.1) range.1 (range.2 - range.1) (le_refl _)
    (by rw [heq]; exact hlast) (by rw [heq]; exact hless) (by rw [heq]; exact hgreater)
  rwa [heq] at h

/-! ## Searches one after another -/

/-- The elements with a property are those of one part of the list. -/
structure Selects (data : List α) (range : Nat × Nat) (q : α → Prop) : Prop where
  le : range.1 ≤ range.2
  le_length : range.2 ≤ data.length
  mem_iff : ∀ i (hi : i < data.length), (range.1 ≤ i ∧ i < range.2) ↔ q data[i]

theorem selects_all (data : List α) : Selects data (0, data.length) fun _ => True where
  le := Nat.zero_le _
  le_length := le_refl _
  mem_iff := fun i hi => iff_of_true ⟨Nat.zero_le i, hi⟩ trivial

theorem at_iff {p : α → Bool} {data : List α} {i : Nat} (hi : i < data.length) :
    At p data i ↔ p data[i] = true := by
  constructor
  · rintro ⟨a, ha, hp⟩
    rw [List.getElem?_eq_getElem hi] at ha
    rwa [Option.some.inj ha]
  · exact fun hp => ⟨data[i], List.getElem?_eq_getElem hi, hp⟩

section Narrow

variable {less greater : α → Bool} {data : List α} {range : Nat × Nat} {q : α → Prop}

/-- What holds of the elements with a property in their order holds of positions of the part. -/
theorem Selects.pairwise {R : α → α → Prop} (h : Selects data range q) (hrefl : ∀ a, R a a)
    (hR : data.Pairwise fun a b => q a → q b → R a b) {i j : Nat} (hi : range.1 ≤ i) (hij : i ≤ j)
    (hj : j < range.2) (hilen : i < data.length) (hjlen : j < data.length) :
    R data[i] data[j] := by
  obtain rfl | hlt := hij.eq_or_lt
  · exact hrefl _
  · exact List.pairwise_iff_getElem.mp hR i j hilen hjlen hlt
      ((h.mem_iff i hilen).mp ⟨hi, by omega⟩) ((h.mem_iff j hjlen).mp ⟨by omega, hj⟩)

/-- A search among the elements with a property, where the comparisons are in order. -/
theorem Selects.narrow (h : Selects data range q)
    (hless : data.Pairwise fun a b => q a → q b → less b = true → less a = true)
    (hgreater : data.Pairwise fun a b => q a → q b → greater a = true → greater b = true) :
    Selects data (equalRange less greater data range)
      fun a => q a ∧ less a = false ∧ greater a = false := by
  have hlength := h.le_length
  have hdescends : Descends less data range.1 range.2 := by
    intro i j hi hij hj hat
    rw [at_iff (by omega)] at hat ⊢
    exact h.pairwise (fun _ => id) hless hi hij hj (by omega) (by omega) hat
  have hclimbs : Climbs greater data range.1 range.2 := by
    intro i j hi hij hj hat
    rw [at_iff (by omega)] at hat ⊢
    exact h.pairwise (fun _ => id) hgreater hi hij hj (by omega) (by omega) hat
  have hfound := equalRange_spec h.le hlength hdescends hclimbs
  have hfirst := hfound.first_le
  have hlast := hfound.le_last
  refine ⟨hfound.le, by omega, fun i hi => ?_⟩
  by_cases hin : range.1 ≤ i ∧ i < range.2
  · have hq := (h.mem_iff i hi).mp hin
    rw [hfound.mem_iff i hin.1 hin.2, at_iff hi, at_iff hi, Bool.not_eq_true, Bool.not_eq_true]
    exact ⟨fun hneither => ⟨hq, hneither⟩, fun hall => hall.2⟩
  · have hq : ¬ q data[i] := fun hq => hin ((h.mem_iff i hi).mpr hq)
    exact iff_of_false (by omega) fun hall => hq hall.1

theorem Selects.congr {q' : α → Prop} (h : Selects data range q) (hq : ∀ a, q a ↔ q' a) :
    Selects data range q' :=
  ⟨h.le, h.le_length, fun i hi => (h.mem_iff i hi).trans (hq _)⟩

/-- A search for the elements with a key, where the keys ascend. -/
theorem Selects.narrowKey {κ : Type*} [LinearOrder κ] {key : α → κ} {value : κ}
    (h : Selects data range q) (hless : ∀ a, less a = true ↔ key a < value)
    (hgreater : ∀ a, greater a = true ↔ value < key a)
    (hsorted : data.Pairwise fun a b => q a → q b → key a ≤ key b) :
    Selects data (equalRange less greater data range) fun a => q a ∧ key a = value := by
  refine (h.narrow (hsorted.imp fun {a b} hle ha hb hlt => ?_)
    (hsorted.imp fun {a b} hle ha hb hlt => ?_)).congr fun a => ?_
  · rw [hless] at hlt ⊢
    exact (hle ha hb).trans_lt hlt
  · rw [hgreater] at hlt ⊢
    exact hlt.trans_le (hle ha hb)
  · rw [Bool.eq_false_iff, Ne, hless, Bool.eq_false_iff, Ne, hgreater, not_lt, not_lt]
    exact and_congr_right fun _ => ⟨fun hneither => le_antisymm hneither.2 hneither.1,
      fun heq => ⟨heq.ge, heq.le⟩⟩

/-- A search for the elements whose interval contains a point, where the intervals of the
elements with a property are in order. -/
theorem Selects.narrowInterval {κ : Type*} [LinearOrder κ] {lower upper : α → κ} {value : κ}
    (h : Selects data range q) (hless : ∀ a, less a = true ↔ upper a < value)
    (hgreater : ∀ a, greater a = true ↔ value < lower a)
    (hupper : data.Pairwise fun a b => q a → q b → upper b < value → upper a < value)
    (hlower : data.Pairwise fun a b => q a → q b → lower a ≤ lower b) :
    Selects data (equalRange less greater data range)
      fun a => q a ∧ lower a ≤ value ∧ value ≤ upper a := by
  refine (h.narrow (hupper.imp fun {a b} himp ha hb hlt => ?_)
    (hlower.imp fun {a b} hle ha hb hlt => ?_)).congr fun a => ?_
  · rw [hless] at hlt ⊢
    exact himp ha hb hlt
  · rw [hgreater] at hlt ⊢
    exact hlt.trans_le (hle ha hb)
  · rw [Bool.eq_false_iff, Ne, hless, Bool.eq_false_iff, Ne, hgreater, not_lt, not_lt]
    exact and_congr_right fun _ => and_comm

end Narrow

/-- `*begin` if the range is not empty. -/
def front (data : List α) (range : Nat × Nat) : Option α :=
  if range.1 < range.2 then data[range.1]? else none

section Front

variable {data : List α} {range : Nat × Nat} {q : α → Prop}

theorem Selects.front_eq_none_iff (h : Selects data range q) :
    front data range = none ↔ ∀ a ∈ data, ¬ q a := by
  have hlength := h.le_length
  unfold front
  by_cases hlt : range.1 < range.2
  · have hfirst : range.1 < data.length := by omega
    rw [if_pos hlt, List.getElem?_eq_getElem hfirst]
    refine iff_of_false (by simp) fun hnone => ?_
    exact hnone _ (List.getElem_mem hfirst) ((h.mem_iff _ hfirst).mp ⟨le_refl _, hlt⟩)
  · rw [if_neg hlt]
    refine iff_of_true rfl fun a hmem hq => ?_
    obtain ⟨i, hi, rfl⟩ := List.getElem_of_mem hmem
    have hin := (h.mem_iff i hi).mpr hq
    omega

theorem Selects.of_front (h : Selects data range q) {a : α} (hfront : front data range = some a) :
    a ∈ data ∧ q a := by
  have hlength := h.le_length
  unfold front at hfront
  by_cases hlt : range.1 < range.2
  · rw [if_pos hlt] at hfront
    obtain ⟨hi, rfl⟩ := List.getElem?_eq_some_iff.mp hfront
    exact ⟨List.getElem_mem hi, (h.mem_iff _ hi).mp ⟨le_refl _, hlt⟩⟩
  · rw [if_neg hlt] at hfront
    exact absurd hfront (by simp)

end Front

end BinarySearch
end Lib
end VoipBill
