import VoipBill.Model.BillingCall

/-!
# Country prefixes

`NNPCountryCodeList` keeps the phone prefixes of the countries with their codes, sorted
by prefix.  The country of a number is that of the longest of its first four digits
that is a country prefix.
-/

namespace VoipBill

/-- `std::lower_bound`: the first entry whose prefix is not below. -/
def lowerBound (list : List (Int × Int)) (phonePrefix : Int) : Option (Int × Int) :=
  list.find? fun entry => !decide (entry.1 < phonePrefix)

/-- Prefixes with the codes of their countries, after `sort_prefix_list`. -/
structure NNPCountryCodeList where
  prefixList : List (Int × Int)
  sorted : prefixList.Pairwise fun left right => left.1 ≤ right.1

namespace NNPCountryCodeList

variable (list : NNPCountryCodeList)

def getCodeByPrefix (phonePrefix : Int) : Int × Int :=
  match lowerBound list.prefixList phonePrefix with
  | some entry => if entry.1 = phonePrefix then entry else (0, 0)
  | none => (0, 0)

/-- The number the first `len` digits of a phone number form. -/
def phonePrefix (phonenumber : Int) (len : Nat) : Int := atoll ((sprintfLld phonenumber).take len)

def getPrefixByNumber (number : Int) : Int × Int :=
  [1, 2, 3, 4].foldl (fun validPrefix i =>
    let entry := list.getCodeByPrefix (phonePrefix number i)
    if entry.1 ≠ 0 ∧ entry.1 = phonePrefix number i then entry else validPrefix) (0, 0)

/-- The country of a number is unknown, or an entry of the list. -/
theorem getPrefixByNumber_cases (number : Int) :
    list.getPrefixByNumber number = (0, 0) ∨
      (list.getPrefixByNumber number).1 ≠ 0 ∧
        list.getCodeByPrefix (list.getPrefixByNumber number).1 = list.getPrefixByNumber number := by
  -- what holds of the result so far, for each of the four lengths
  have hstep : ∀ (lens : List Nat) (best : Int × Int),
      (best = (0, 0) ∨ best.1 ≠ 0 ∧ list.getCodeByPrefix best.1 = best) →
      let result := lens.foldl (fun validPrefix i =>
        let entry := list.getCodeByPrefix (phonePrefix number i)
        if entry.1 ≠ 0 ∧ entry.1 = phonePrefix number i then entry else validPrefix) best
      result = (0, 0) ∨ result.1 ≠ 0 ∧ list.getCodeByPrefix result.1 = result := by
    intro lens
    induction lens with
    | nil => exact fun best h => h
    | cons len lens ih =>
        intro best h
        rw [List.foldl_cons]
        refine ih _ ?_
        dsimp only
        split
        case isTrue hfound =>
          refine Or.inr ⟨hfound.1, ?_⟩
          rw [hfound.2]
        case isFalse => exact h
  exact hstep [1, 2, 3, 4] (0, 0) (Or.inl rfl)

end NNPCountryCodeList

/-- Look the countries of numbers up in this list: `getNNPCountryPrefix` and
`getNNPCountryCode` of the repository. -/
def PricingEnv.withCountries (env : PricingEnv) (list : NNPCountryCodeList) : PricingEnv :=
  { env with
    repository := { env.repository with
      data := { env.repository.data with
        nnpCountryPrefix := list.getPrefixByNumber
        nnpCountryCode := fun countryPrefix => (list.getCodeByPrefix countryPrefix).2 } } }

end VoipBill
