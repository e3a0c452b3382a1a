import VoipBill.Lib.BinarySearch

/-!
# Searches by key against scans

A table that is sorted by several keys is searched key by key, each search narrowing the part
the one before it has found.  The searches find what a scan of the whole table finds.

* `slice` and `front` of a part that consists of the elements with a property are the filter
  of the table by it and its first element;
* `keyRange`: one search for a key; `upTo`: a search for the elements up to a key;
* `equalRange_congr`: only elements that are not less are compared the other way round;
* `longest`: a search for the longest beginning of a text.
-/

namespace VoipBill
namespace Lib
namespace BinarySearch

variable {α : Type*}

/-! ## The elements of a part -/

def slice (data : List α) (range : Nat × Nat) : List α := (data.take range.2).drop range.1

theorem filter_eq_self_of_range {p : α → Bool} {l : List α}
    (h : ∀ i (hi : i < l.length), p l[i] = true) : l.filter p = l := by
  rw [List.filter_eq_self]
  intro a ha
  obtain ⟨i, hi, rfl⟩ := List.getElem_of_mem ha
  exact h i hi

theorem filter_eq_nil_of_range {p : α → Bool} {l : List α}
    (h : ∀ i (hi : i < l.length), p l[i] = false) : l.filter p = [] := by
  rw [List.filter_eq_nil_iff]
  intro a ha
  obtain ⟨i, hi, rfl⟩ := List.getElem_of_mem ha
  simp [h i hi]

/-- A part that consists of the elements with a property is a filter of the list. -/
theorem Selects.slice_eq_filter {data : List α} {range : Nat × Nat} {p : α → Bool}
    (h : Selects data range fun a => p a = true) : slice data range = data.filter p := by
  obtain ⟨first, last⟩ := range
  have hle : first ≤ last := h.le
  have hlength : last ≤ data.length := h.le_length
  -- before the part, the part, and behind it
  have hsplit : data = data.take first ++ ((data.take last).drop first ++ data.drop last) := by
    rw [← List.append_assoc]
    conv_lhs => rw [← List.take_append_drop last data]
    congr 1
    conv_lhs => rw [← List.take_append_drop first (data.take last)]
    rw [List.take_take, min_eq_left hle]
  have hbefore : (data.take first).filter p = [] := by
    refine filter_eq_nil_of_range fun i hi => ?_
    rw [List.length_take] at hi
    rw [List.getElem_take, Bool.eq_false_iff]
    intro hp
    have hin := (h.mem_iff i (by omega)).mpr hp
    dsimp only at hin
    omega
  have hinside : ((data.take last).drop first).filter p = (data.take last).drop first := by
    refine filter_eq_self_of_range fun i hi => ?_
    rw [List.length_drop, List.length_take] at hi
    rw [List.getElem_drop, List.getElem_take]
    exact (h.mem_iff (first + i) (by omega)).mp ⟨by dsimp only; omega, by dsimp only; omega⟩
  have hbehind : (data.drop last).filter p = [] := by
    refine filter_eq_nil_of_range fun i hi => ?_
    rw [List.length_drop] at hi
    rw [List.getElem_drop, Bool.eq_false_iff]
    intro hp
    have hin := (h.mem_iff (last + i) (by omega)).mpr hp
    dsimp only at hin
    omega
  conv_rhs => rw [hsplit]
  rw [List.filter_append, List.filter_append, hbefore, hinside, hbehind, List.append_nil,
    List.nil_append]
  rfl

theorem front_eq_head? (data : List α) (range : Nat × Nat) :
    front data range = (slice data range).head? := by
  rw [front, slice, List.head?_drop, List.getElem?_take]

/-- The first element of such a part is the first one a scan finds. -/
theorem Selects.front_eq_find? {data : List α} {range : Nat × Nat} {p : α → Bool}
    (h : Selects data range fun a => p a = true) : front data range = data.find? p := by
  rw [front_eq_head?, h.slice_eq_filter, List.head?_filter]

theorem Selects.find?_slice {data : List α} {range : Nat × Nat} {p : α → Bool}
    (h : Selects data range fun a => p a = true) (p' : α → Bool) :
    (slice data range).find? p' = data.find? fun a => p a && p' a := by
  rw [h.slice_eq_filter, List.find?_filter]
  congr 1
  funext a
  simp

theorem Selects.filter_slice {data : List α} {range : Nat × Nat} {p : α → Bool}
    (h : Selects data range fun a => p a = true) (p' : α → Bool) :
    (slice data range).filter p' = data.filter fun a => p a && p' a := by
  rw [h.slice_eq_filter, List.filter_filter]
  congr 1
  funext a
  rw [Bool.and_comm]

/-! ## One search -/

section Key

variable {κ : Type*} [LinearOrder κ]

/-- `equal_range` by a key. -/
def keyRange (key : α → κ) (value : κ) (data : List α) (range : Nat × Nat) : Nat × Nat :=
  equalRange (fun left => decide (key left < value)) (fun right => decide (value < key right))
    data range

theorem Selects.keyRange [DecidableEq κ] {key : α → κ} {data : List α} {range : Nat × Nat} {p : α → Bool}
    (h : Selects data range fun a => p a = true) (value : κ)
    (hsorted : data.Pairwise fun a b => p a → p b → key a ≤ key b) :
    Selects data (keyRange key value data range) fun a => (p a && decide (key a = value)) = true :=
  (h.narrowKey (fun _ => decide_eq_true_iff) (fun _ => decide_eq_true_iff) hsorted).congr
    fun a => by simp

/-- The part up to `upper_bound` by a key. -/
def upTo (key : α → κ) (value : κ) (data : List α) (range : Nat × Nat) : Nat × Nat :=
  (range.1, upperBound (fun right => decide (value < key right)) data range.1 range.2)

theorem Selects.upTo {key : α → κ} {data : List α} {range : Nat × Nat} {p : α → Bool}
    (h : Selects data range fun a => p a = true) (value : κ)
    (hsorted : data.Pairwise fun a b => p a → p b → key a ≤ key b) :
    Selects data (upTo key value data range) fun a => (p a && decide (key a ≤ value)) = true := by
  have hlength := h.le_length
  have hclimbs : Climbs (fun right => decide (value < key right)) data range.1 range.2 := by
    intro i j hi hij hj hat
    rw [at_iff (by omega), decide_eq_true_eq] at hat ⊢
    exact hat.trans_le
      (h.pairwise (R := fun a b => key a ≤ key b) (fun _ => le_refl _) hsorted hi hij hj
        (by omega) (by omega))
  obtain ⟨hfirst, hlast, hiff⟩ := upperBound_spec h.le hlength hclimbs
  refine ⟨hfirst, by show upperBound _ data range.1 range.2 ≤ _; omega, fun i hi => ?_⟩
  show range.1 ≤ i ∧ i < upperBound _ data range.1 range.2 ↔ _
  rw [Bool.and_eq_true, decide_eq_true_eq]
  by_cases hin : range.1 ≤ i ∧ i < range.2
  · have hp := (h.mem_iff i hi).mp hin
    rw [hiff i hin.1 hin.2, at_iff hi, decide_eq_true_eq, not_lt]
    exact ⟨fun hle => ⟨hp, hle.2⟩, fun hle => ⟨hin.1, hle.2⟩⟩
  · have hp : ¬ p data[i] = true := fun hp => hin ((h.mem_iff i hi).mpr hp)
    exact iff_of_false (by omega) fun hand => hp hand.1

theorem selects_true (data : List α) :
    Selects data (0, data.length) fun a => (fun _ => true) a = true :=
  (selects_all data).congr fun _ => by simp

end Key

/-! ## Tables sorted by several keys -/

section Order

variable {κ₁ κ₂ κ₃ : Type*} [LinearOrder κ₁] [LinearOrder κ₂] [LinearOrder κ₃]

/-- `order by` two keys. -/
def Asc₂ (key₁ : α → κ₁) (key₂ : α → κ₂) (a b : α) : Prop :=
  key₁ a < key₁ b ∨ key₁ a = key₁ b ∧ key₂ a ≤ key₂ b

/-- `order by` three keys. -/
def Asc₃ (key₁ : α → κ₁) (key₂ : α → κ₂) (key₃ : α → κ₃) (a b : α) : Prop :=
  key₁ a < key₁ b ∨ key₁ a = key₁ b ∧ Asc₂ key₂ key₃ a b

variable {key₁ : α → κ₁} {key₂ : α → κ₂} {key₃ : α → κ₃} {a b : α}

theorem Asc₂.fst_le (h : Asc₂ key₁ key₂ a b) : key₁ a ≤ key₁ b := by
  rcases h with hlt | ⟨heq, -⟩
  · exact hlt.le
  · exact heq.le

theorem Asc₂.snd_le (h : Asc₂ key₁ key₂ a b) (heq : key₁ a = key₁ b) : key₂ a ≤ key₂ b := by
  rcases h with hlt | ⟨-, hle⟩
  · exact absurd heq hlt.ne
  · exact hle

theorem Asc₃.fst_le (h : Asc₃ key₁ key₂ key₃ a b) : key₁ a ≤ key₁ b := by
  rcases h with hlt | ⟨heq, -⟩
  · exact hlt.le
  · exact heq.le

theorem Asc₃.snd (h : Asc₃ key₁ key₂ key₃ a b) (heq : key₁ a = key₁ b) : Asc₂ key₂ key₃ a b := by
  rcases h with hlt | ⟨-, hasc⟩
  · exact absurd heq hlt.ne
  · exact hasc

instance [DecidableEq κ₁] : Decidable (Asc₂ key₁ key₂ a b) :=
  inferInstanceAs (Decidable (_ ∨ _))

instance [DecidableEq κ₁] [DecidableEq κ₂] : Decidable (Asc₃ key₁ key₂ key₃ a b) :=
  inferInstanceAs (Decidable (_ ∨ _))

/-- Two searches in a table sorted by their keys. -/
theorem selects_keyRange₂ [DecidableEq κ₁] [DecidableEq κ₂] {data : List α} {key₁ : α → κ₁} {key₂ : α → κ₂}
    (hsorted : data.Pairwise (Asc₂ key₁ key₂)) (value₁ : κ₁) (value₂ : κ₂) :
    Selects data (keyRange key₂ value₂ data (keyRange key₁ value₁ data (0, data.length)))
      fun a => (decide (key₁ a = value₁) && decide (key₂ a = value₂)) = true := by
  have hfirst := (selects_true data).keyRange value₁ (hsorted.imp fun h _ _ => h.fst_le)
  have hsecond := hfirst.keyRange value₂ (hsorted.imp fun h ha hb => h.snd_le (by
    simp only [Bool.true_and, decide_eq_true_eq] at ha hb
    exact ha.trans hb.symm))
  simpa only [Bool.true_and] using hsecond

theorem selects_keyRange₁ [DecidableEq κ₁] {data : List α} {key₁ : α → κ₁}
    (hsorted : data.Pairwise fun a b => key₁ a ≤ key₁ b) (value₁ : κ₁) :
    Selects data (keyRange key₁ value₁ data (0, data.length))
      fun a => decide (key₁ a = value₁) = true := by
  have hfirst := (selects_true data).keyRange value₁ (hsorted.imp fun h _ _ => h)
  simpa only [Bool.true_and] using hfirst

/-- A search for a key, and up to a second one. -/
theorem selects_upTo₂ [DecidableEq κ₁] {data : List α} {key₁ : α → κ₁} {key₂ : α → κ₂}
    (hsorted : data.Pairwise (Asc₂ key₁ key₂)) (value₁ : κ₁) (value₂ : κ₂) :
    Selects data (upTo key₂ value₂ data (keyRange key₁ value₁ data (0, data.length)))
      fun a => (decide (key₁ a = value₁) && decide (key₂ a ≤ value₂)) = true := by
  have hfirst := (selects_true data).keyRange value₁ (hsorted.imp fun h _ _ => h.fst_le)
  have hsecond := hfirst.upTo value₂ (hsorted.imp fun h ha hb => h.snd_le (by
    simp only [Bool.true_and, decide_eq_true_eq] at ha hb
    exact ha.trans hb.symm))
  simpa only [Bool.true_and] using hsecond

end Order

/-! ## Comparisons that are not asked for -/

theorem at_congr {p p' : α → Bool} {data : List α} {i : Nat}
    (h : ∀ a, data[i]? = some a → p a = p' a) : At p data i ↔ At p' data i := by
  constructor
  · rintro ⟨a, ha, hp⟩
    exact ⟨a, ha, by rw [← h a ha, hp]⟩
  · rintro ⟨a, ha, hp⟩
    exact ⟨a, ha, by rw [h a ha, hp]⟩

theorem lowerBoundLoop_congr {less less' : α → Bool} {data : List α} :
    ∀ (fuel first len : Nat), (∀ i, first ≤ i → i < first + len → (At less data i ↔ At less' data i)) →
      lowerBoundLoop less data fuel first len = lowerBoundLoop less' data fuel first len
  | 0, _, _, _ => rfl
  | fuel + 1, first, len, h => by
      rw [lowerBoundLoop, lowerBoundLoop]
      by_cases hlen : len = 0
      · rw [if_pos hlen, if_pos hlen]
      · rw [if_neg hlen, if_neg hlen]
        dsimp only
        have hleft := lowerBoundLoop_congr fuel first (len / 2) fun i hi hlt =>
          h i hi (by omega)
        have hright := lowerBoundLoop_congr fuel (first + len / 2 + 1) (len - len / 2 - 1)
          fun i hi hlt => h i (by omega) (by omega)
        rw [hleft, hright]
        exact if_congr (h _ (by omega) (by omega)) rfl rfl

/-- An element is compared the other way round only if it is not less. -/
theorem equalRangeLoop_congr {less greater greater' : α → Bool} {data : List α}
    (hgreater : ∀ a, less a = false → greater a = greater' a) :
    ∀ (fuel first len : Nat), first + len ≤ data.length → Descends less data first (first + len) →
      equalRangeLoop less greater data fuel first len =
        equalRangeLoop less greater' data fuel first len
  | 0, _, _, _, _ => rfl
  | fuel + 1, first, len, hlength, hless => by
      rw [equalRangeLoop, equalRangeLoop]
      by_cases hlen : len = 0
      · rw [if_pos hlen, if_pos hlen]
      rw [if_neg hlen, if_neg hlen]
      dsimp only
      by_cases hbelow : At less data (first + len / 2)
      · rw [if_pos hbelow, if_pos hbelow]
        exact equalRangeLoop_congr hgreater fuel _ _ (by omega)
          (hless.part (by omega) (by omega))
      rw [if_neg hbelow, if_neg hbelow]
      -- neither the middle nor what is behind it is less
      have hsame : ∀ i, first + len / 2 ≤ i → i < first + len →
          (At greater data i ↔ At greater' data i) := by
        intro i hi hlt
        refine at_congr fun a ha => hgreater a ?_
        rw [Bool.eq_false_iff]
        exact fun hp => hbelow (hless _ i (by omega) hi hlt ⟨a, ha, hp⟩)
      have hleft := equalRangeLoop_congr hgreater fuel first (len / 2) (by omega)
        (hless.part (le_refl _) (by omega))
      have hupper : upperBound greater data (first + len / 2 + 1) (first + len) =
          upperBound greater' data (first + len / 2 + 1) (first + len) := by
        rw [upperBound, upperBound, lowerBound, lowerBound]
        refine lowerBoundLoop_congr _ _ _ fun i hi hlt => ?_
        rw [at_not_iff (by omega), at_not_iff (by omega), hsame i (by omega) (by omega)]
      rw [hleft, hupper]
      exact if_congr (hsame _ (by omega) (by omega)) rfl rfl

theorem equalRange_congr {less greater greater' : α → Bool} {data : List α}
    (hgreater : ∀ a, less a = false → greater a = greater' a) {range : Nat × Nat}
    (hrange : range.1 ≤ range.2) (hlength : range.2 ≤ data.length)
    (hless : Descends less data range.1 range.2) :
    equalRange less greater data range = equalRange less greater' data range := by
  have heq : range.1 + (range.2 - range.1) = range.2 := by omega
  exact equalRangeLoop_congr hgreater _ _ _ (by rw [heq]; exact hlength)
    (by rw [heq]; exact hless)

/-! ## The longest beginning of a text -/

/-- Try the first `len` characters, then fewer. -/
def longest {β ρ : Type*} (find : List β → Option ρ) (text : List β) : Nat → Option ρ
  | 0 => none
  | len + 1 =>
      match find (text.take (len + 1)) with
      | some result => some result
      | none => longest find text len

theorem longest_congr {β ρ : Type*} {find find' : List β → Option ρ}
    (h : ∀ start, start ≠ [] → find start = find' start) (text : List β) {len : Nat}
    (hlen : len ≤ text.length) : longest find text len = longest find' text len := by
  induction len with
  | zero => rfl
  | succ len ih =>
      have hstart : text.take (len + 1) ≠ [] := by
        intro hnil
        have hzero := congrArg List.length hnil
        rw [List.length_take, List.length_nil] at hzero
        omega
      rw [longest, longest, h _ hstart, ih (by omega)]

theorem longest_eq_findSome? {β ρ : Type*} (find : List β → Option ρ) (text : List β) (len : Nat) :
    longest find text len =
      (List.range len).reverse.findSome? fun i => find (text.take (i + 1)) := by
  induction len with
  | zero => rfl
  | succ len ih =>
      rw [longest, List.range_succ, List.reverse_append, List.reverse_singleton,
        List.singleton_append, List.findSome?_cons, ih]
      cases find (text.take (len + 1)) with
      | none => rfl
      | some result => rfl

end BinarySearch
end Lib
end VoipBill
