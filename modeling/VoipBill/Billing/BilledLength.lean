import VoipBill.Model.BillingCall

/-!
# The billed length of a version 5 call

`getCallLengthNNP` bills nothing for the free seconds, then the paid minimum, and from
there on it rounds to the tariffication interval: up, or (type 1) to the nearest multiple.

* `roundToInterval`: the rounding alone, which is monotone;
* `getCallLengthNNP_of_rounded`: the lengths that are rounded;
* `billedLengthSound_iff`: only the shortest rounded length decides whether the whole
  function is monotone and keeps the paid minimum.
-/

namespace VoipBill

namespace BillingCall

/-- The interval in use: `0` in the package stands for one second. -/
def intervalSeconds (nnpPackage : NNPPackage) : Int :=
  if nnpPackage.tarificationIntervalSeconds = 0 then 1
  else nnpPackage.tarificationIntervalSeconds

/-- The last branches of `getCallLengthNNP`: a multiple of the interval, the nearest one
if `nearest`, else the next. -/
def roundToInterval (nearest : Prop) [Decidable nearest] (interval len : Int) : Int :=
  if len % interval = 0 then len
  else if len % interval ≤ interval / 2 ∧ nearest then len - len % interval
  else len - len % interval + interval

/-- What is asked of the billed length: a longer call is not billed for less, and a call
past the free seconds is billed for the paid minimum at least. -/
def BilledLengthSound (nnpPackage : NNPPackage) : Prop :=
  (∀ l₁ l₂ : Int, l₁ ≤ l₂ →
    getCallLengthNNP l₁ nnpPackage ≤ getCallLengthNNP l₂ nnpPackage) ∧
  ∀ len : Int, 0 < len → |nnpPackage.tarificationFreeSeconds| < len →
    |nnpPackage.tarificationMinPaidSeconds| ≤ getCallLengthNNP len nnpPackage

/-- The shortest length that is rounded. -/
def firstRounded (nnpPackage : NNPPackage) : Int :=
  max |nnpPackage.tarificationFreeSeconds| |nnpPackage.tarificationMinPaidSeconds| + 1

/-- The package rounds to the nearest multiple of its interval, and the multiple below the
shortest rounded length is both the nearest one and below the paid minimum. -/
def RoundsBelowMinimum (nnpPackage : NNPPackage) : Prop :=
  let b := firstRounded nnpPackage
  let i := intervalSeconds nnpPackage
  nnpPackage.tarificationType = 1 ∧ b % i ≤ i / 2 ∧
    b - b % i < |nnpPackage.tarificationMinPaidSeconds|

instance (nnpPackage : NNPPackage) : Decidable (RoundsBelowMinimum nnpPackage) :=
  inferInstanceAs (Decidable (_ ∧ _ ∧ _))

theorem intervalSeconds_pos {nnpPackage : NNPPackage}
    (h : 0 ≤ nnpPackage.tarificationIntervalSeconds) : 0 < intervalSeconds nnpPackage := by
  unfold intervalSeconds
  split
  · exact Int.one_pos
  · omega

/-! ## The rounding -/

section Rounding

variable {nearest : Prop} [Decidable nearest] {interval : Int}

/-- The rounded length lies between the two multiples around the length. -/
theorem roundToInterval_between (hi : 0 < interval) (len : Int) :
    len - len % interval ≤ roundToInterval nearest interval len ∧
      roundToInterval nearest interval len ≤ len - len % interval + interval := by
  have hr : 0 ≤ len % interval := Int.emod_nonneg len (by omega)
  have hlt : len % interval < interval := Int.emod_lt_of_pos len hi
  unfold roundToInterval
  split
  · omega
  · split
    · omega
    · omega

theorem sub_emod_eq (len : Int) : len - len % interval = interval * (len / interval) := by
  have h := Int.emod_add_mul_ediv len interval
  omega

theorem roundToInterval_mono (hi : 0 < interval) {l₁ l₂ : Int} (h : l₁ ≤ l₂) :
    roundToInterval nearest interval l₁ ≤ roundToInterval nearest interval l₂ := by
  have hq : l₁ / interval ≤ l₂ / interval := Int.ediv_le_ediv hi h
  have hnext : roundToInterval nearest interval l₁ ≤ l₁ - l₁ % interval + interval :=
    (roundToInterval_between hi l₁).2
  have hlast : l₂ - l₂ % interval ≤ roundToInterval nearest interval l₂ :=
    (roundToInterval_between hi l₂).1
  rcases lt_or_eq_of_le hq with hlt | heq
  · -- the multiple after the first length is not past the one before the second
    have hmul : interval * (l₁ / interval + 1) ≤ interval * (l₂ / interval) :=
      Int.mul_le_mul_of_nonneg_left hlt hi.le
    rw [mul_add, mul_one, ← sub_emod_eq, ← sub_emod_eq] at hmul
    omega
  · -- both lengths lie between the same two multiples
    have hsame : l₁ - l₁ % interval = l₂ - l₂ % interval := by
      rw [sub_emod_eq, sub_emod_eq, heq]
    have hr : 0 ≤ l₁ % interval := Int.emod_nonneg l₁ (by omega)
    have hlt : l₂ % interval < interval := Int.emod_lt_of_pos l₂ hi
    unfold roundToInterval
    by_cases hn : nearest
    · simp only [hn, and_true]
      split <;> split <;> try split
      all_goals omega
    · simp only [hn, and_false, if_false]
      split <;> split
      all_goals omega

end Rounding

/-! ## The billed length -/

variable {nnpPackage : NNPPackage}

theorem getCallLengthNNP_of_free {len : Int}
    (h : len ≤ |nnpPackage.tarificationFreeSeconds|) : getCallLengthNNP len nnpPackage = 0 := by
  unfold getCallLengthNNP
  simp only [h, if_true, ite_self]

theorem getCallLengthNNP_of_minimum {len : Int}
    (hf : |nnpPackage.tarificationFreeSeconds| < len)
    (hm : len ≤ |nnpPackage.tarificationMinPaidSeconds|) :
    getCallLengthNNP len nnpPackage = |nnpPackage.tarificationMinPaidSeconds| := by
  have h0 : 0 ≤ |nnpPackage.tarificationFreeSeconds| := abs_nonneg _
  unfold getCallLengthNNP
  simp only [if_neg (show ¬ len ≤ 0 by omega), if_neg (not_le.mpr hf), if_pos hm]

theorem getCallLengthNNP_of_rounded (hi : 0 ≤ nnpPackage.tarificationIntervalSeconds)
    {len : Int} (h : firstRounded nnpPackage ≤ len) :
    getCallLengthNNP len nnpPackage =
      roundToInterval (nnpPackage.tarificationType = 1) (intervalSeconds nnpPackage) len := by
  have h0 : 0 ≤ |nnpPackage.tarificationFreeSeconds| := abs_nonneg _
  have hf : |nnpPackage.tarificationFreeSeconds| < len :=
    (Int.lt_add_one_of_le (le_max_left _ _)).trans_le h
  have hm : |nnpPackage.tarificationMinPaidSeconds| < len :=
    (Int.lt_add_one_of_le (le_max_right _ _)).trans_le h
  have hlen : 0 ≤ len := by omega
  have hpos : 0 < intervalSeconds nnpPackage := intervalSeconds_pos hi
  have hmul : len / intervalSeconds nnpPackage * intervalSeconds nnpPackage =
      len - len % intervalSeconds nnpPackage := by
    rw [sub_emod_eq, mul_comm]
  unfold getCallLengthNNP roundToInterval
  rw [show (if nnpPackage.tarificationIntervalSeconds = 0 then 1
    else nnpPackage.tarificationIntervalSeconds) = intervalSeconds nnpPackage from rfl]
  simp only [if_neg (show ¬ len ≤ 0 by omega), if_neg (not_le.mpr hf), if_neg (not_le.mpr hm),
    Int.tmod_eq_emod_of_nonneg hlen, Int.tdiv_eq_ediv_of_nonneg hlen,
    Int.tdiv_eq_ediv_of_nonneg hpos.le, add_mul, one_mul, hmul]

theorem roundToInterval_firstRounded_lt_iff
    (hi : 0 ≤ nnpPackage.tarificationIntervalSeconds) :
    roundToInterval (nnpPackage.tarificationType = 1) (intervalSeconds nnpPackage)
        (firstRounded nnpPackage) < |nnpPackage.tarificationMinPaidSeconds| ↔
      RoundsBelowMinimum nnpPackage := by
  have hpos : 0 < intervalSeconds nnpPackage := intervalSeconds_pos hi
  have hm : |nnpPackage.tarificationMinPaidSeconds| < firstRounded nnpPackage :=
    Int.lt_add_one_of_le (le_max_right _ _)
  have hlt := Int.emod_lt_of_pos (firstRounded nnpPackage) hpos
  unfold RoundsBelowMinimum roundToInterval
  by_cases htype : nnpPackage.tarificationType = 1
  · simp only [htype, and_true, true_and]
    split
    · omega
    · split
      · omega
      · omega
  · simp only [htype, and_false, if_false, false_and, iff_false]
    split
    · omega
    · omega

/-- Where the shortest rounded length keeps the minimum, so does every longer one. -/
theorem minimum_le_of_rounded (hi : 0 ≤ nnpPackage.tarificationIntervalSeconds)
    (hkeeps : ¬ RoundsBelowMinimum nnpPackage) {len : Int}
    (h : firstRounded nnpPackage ≤ len) :
    |nnpPackage.tarificationMinPaidSeconds| ≤ getCallLengthNNP len nnpPackage := by
  rw [getCallLengthNNP_of_rounded hi h]
  have hfirst := not_lt.mp (mt (roundToInterval_firstRounded_lt_iff hi).mp hkeeps)
  exact hfirst.trans (roundToInterval_mono (intervalSeconds_pos hi) h)

/-- A length past the free seconds is billed by the minimum or is rounded. -/
theorem minimum_or_rounded {len : Int} (hf : |nnpPackage.tarificationFreeSeconds| < len) :
    len ≤ |nnpPackage.tarificationMinPaidSeconds| ∨ firstRounded nnpPackage ≤ len := by
  unfold firstRounded
  omega

theorem minimum_le_of_paid (hi : 0 ≤ nnpPackage.tarificationIntervalSeconds)
    (hkeeps : ¬ RoundsBelowMinimum nnpPackage) {len : Int}
    (hf : |nnpPackage.tarificationFreeSeconds| < len) :
    |nnpPackage.tarificationMinPaidSeconds| ≤ getCallLengthNNP len nnpPackage := by
  rcases minimum_or_rounded hf with hm | hr
  · exact (getCallLengthNNP_of_minimum hf hm).ge
  · exact minimum_le_of_rounded hi hkeeps hr

theorem getCallLengthNNP_mono (hi : 0 ≤ nnpPackage.tarificationIntervalSeconds)
    (hkeeps : ¬ RoundsBelowMinimum nnpPackage) {l₁ l₂ : Int} (h : l₁ ≤ l₂) :
    getCallLengthNNP l₁ nnpPackage ≤ getCallLengthNNP l₂ nnpPackage := by
  have hmin : 0 ≤ |nnpPackage.tarificationMinPaidSeconds| := abs_nonneg _
  by_cases hf₁ : l₁ ≤ |nnpPackage.tarificationFreeSeconds|
  · rw [getCallLengthNNP_of_free hf₁]
    by_cases hf₂ : l₂ ≤ |nnpPackage.tarificationFreeSeconds|
    · exact (getCallLengthNNP_of_free hf₂).ge
    · exact hmin.trans (minimum_le_of_paid hi hkeeps (not_le.mp hf₂))
  · have hf₁ := not_le.mp hf₁
    rcases minimum_or_rounded hf₁ with hm₁ | hr₁
    · -- the first is billed for the minimum, which the second keeps
      rw [getCallLengthNNP_of_minimum hf₁ hm₁]
      exact minimum_le_of_paid hi hkeeps (hf₁.trans_le h)
    · rw [getCallLengthNNP_of_rounded hi hr₁, getCallLengthNNP_of_rounded hi (hr₁.trans h)]
      exact roundToInterval_mono (intervalSeconds_pos hi) h

/-- The billed length is monotone and keeps the paid minimum exactly when the shortest
rounded length is not rounded down below that minimum. -/
theorem billedLengthSound_iff (nnpPackage : NNPPackage)
    (hi : 0 ≤ nnpPackage.tarificationIntervalSeconds) :
    BilledLengthSound nnpPackage ↔ ¬ RoundsBelowMinimum nnpPackage := by
  constructor
  · rintro ⟨-, hminimum⟩ hbelow
    have hf : |nnpPackage.tarificationFreeSeconds| < firstRounded nnpPackage :=
      Int.lt_add_one_of_le (le_max_left _ _)
    have hfree : 0 ≤ |nnpPackage.tarificationFreeSeconds| := abs_nonneg _
    have hpaid := hminimum (firstRounded nnpPackage) (by omega) hf
    rw [getCallLengthNNP_of_rounded hi le_rfl] at hpaid
    exact absurd ((roundToInterval_firstRounded_lt_iff hi).mpr hbelow) (not_lt.mpr hpaid)
  · intro hkeeps
    constructor
    · intro l₁ l₂ h
      exact getCallLengthNNP_mono hi hkeeps h
    · intro len _ hf
      exact minimum_le_of_paid hi hkeeps hf

/-- A package that is billed by whole minutes after a minute paid at least. -/
def wholeMinutePackage : NNPPackage :=
  { id := 1, tarificationIntervalSeconds := 60, tarificationMinPaidSeconds := 60 }

theorem billedLengthSound_wholeMinutePackage : BilledLengthSound wholeMinutePackage :=
  (billedLengthSound_iff wholeMinutePackage (by decide)).mpr (by decide)

/-- A package with ten seconds paid at least, then rounded to the nearest minute. -/
def nearestMinutePackage : NNPPackage :=
  { id := 2, tarificationIntervalSeconds := 60, tarificationType := 1,
    tarificationMinPaidSeconds := 10 }

/-- Ten seconds are billed as ten, eleven as none. -/
theorem not_billedLengthSound_nearestMinutePackage :
    getCallLengthNNP 10 nearestMinutePackage = 10 ∧
      getCallLengthNNP 11 nearestMinutePackage = 0 ∧
      ¬ BilledLengthSound nearestMinutePackage := by
  have h10 : getCallLengthNNP 10 nearestMinutePackage = 10 := by decide
  have h11 : getCallLengthNNP 11 nearestMinutePackage = 0 := by decide
  constructor
  · exact h10
  · constructor
    · exact h11
    · rintro ⟨hmono, -⟩
      have h := hmono 10 11 (by decide)
      rw [h10, h11] at h
      exact absurd h (by decide)

end BillingCall

end VoipBill
