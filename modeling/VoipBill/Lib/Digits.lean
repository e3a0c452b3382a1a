import Mathlib.Tactic

/-!
# Decimal digit strings

Numbers as strings of decimal digits, most significant first.

* `value_cons_le_iff`: strings of one length are compared digit by digit;
* `value_digits`, `digits_value`: a number and its digits determine each other.
-/

namespace VoipBill
namespace Lib
namespace Digits

/-- The number a digit string stands for. -/
def value : List (Fin 10) → Nat
  | [] => 0
  | d :: ds => d * 10 ^ ds.length + value ds

/-- The decimal digits of a number. -/
def digits (n : Nat) : List (Fin 10) :=
  (Nat.toDigits 10 n).map fun c => Fin.ofNat 10 (c.toNat - '0'.toNat)

@[simp] theorem value_nil : value [] = 0 := rfl

theorem value_cons (d : Fin 10) (ds : List (Fin 10)) :
    value (d :: ds) = d * 10 ^ ds.length + value ds := rfl

theorem value_lt (ds : List (Fin 10)) : value ds < 10 ^ ds.length := by
  induction ds with
  | nil => simp
  | cons d ds ih =>
      have hd : (d : Nat) ≤ 9 := by omega
      have hmul : (d : Nat) * 10 ^ ds.length ≤ 9 * 10 ^ ds.length := Nat.mul_le_mul_right _ hd
      rw [value_cons, List.length_cons, pow_succ]
      omega

theorem value_concat (ds : List (Fin 10)) (d : Fin 10) :
    value (ds ++ [d]) = 10 * value ds + d := by
  induction ds with
  | nil => simp [value]
  | cons e ds ih =>
      rw [List.cons_append, value_cons, ih, value_cons, List.length_append, List.length_singleton,
        pow_succ]
      ring

/-- Strings of one length are compared by their first digit, then by the rest. -/
theorem value_cons_le_iff {d e : Fin 10} {ds es : List (Fin 10)} (h : ds.length = es.length) :
    value (d :: ds) ≤ value (e :: es) ↔ d < e ∨ d = e ∧ value ds ≤ value es := by
  have hds := value_lt ds
  have hes := value_lt es
  rw [value_cons, value_cons, h]
  rw [h] at hds
  generalize 10 ^ es.length = base at hds hes
  rcases lt_trichotomy d e with hlt | rfl | hgt
  · have hmul : ((d : Nat) + 1) * base ≤ e * base := Nat.mul_le_mul_right _ hlt
    rw [Nat.add_mul, one_mul] at hmul
    constructor
    · exact fun _ => Or.inl hlt
    · intro _
      omega
  · simp
  · have hmul : ((e : Nat) + 1) * base ≤ d * base := Nat.mul_le_mul_right _ hgt
    rw [Nat.add_mul, one_mul] at hmul
    constructor
    · intro hle
      omega
    · rintro (hlt | ⟨rfl, -⟩)
      · exact absurd hlt (not_lt_of_gt hgt)
      · exact absurd hgt (lt_irrefl _)

/-- The digit of a digit character. -/
theorem ofNat_digitChar {n : Nat} (h : n < 10) :
    Fin.ofNat 10 ((Nat.digitChar n).toNat - '0'.toNat) = Fin.ofNat 10 n := by
  interval_cases n <;> rfl

theorem digits_of_lt {n : Nat} (h : n < 10) : digits n = [Fin.ofNat 10 n] := by
  rw [digits, Nat.toDigits_of_lt_base h, List.map_singleton, ofNat_digitChar h]

theorem digits_of_le {n : Nat} (h : 10 ≤ n) :
    digits n = digits (n / 10) ++ [Fin.ofNat 10 (n % 10)] := by
  rw [digits, Nat.toDigits_of_base_le (by norm_num) h, List.map_append, List.map_singleton,
    ofNat_digitChar (Nat.mod_lt _ (by norm_num))]
  rfl

theorem digits_ne_nil (n : Nat) : digits n ≠ [] := by
  rw [digits, Ne, List.map_eq_nil_iff]
  exact Nat.toDigits_ne_nil

/-- A number is the value of its digits. -/
@[simp] theorem value_digits (n : Nat) : value (digits n) = n := by
  induction n using Nat.strong_induction_on with
  | _ n ih =>
      by_cases h : n < 10
      · rw [digits_of_lt h, ← List.nil_append [_], value_concat]
        simp [Nat.mod_eq_of_lt h]
      · have hle : 10 ≤ n := by omega
        rw [digits_of_le hle, value_concat, ih (n / 10) (by omega)]
        simp only [Fin.ofNat_eq_cast, Fin.val_natCast, Nat.mod_mod]
        omega

/-- Digit strings that are the digits of a number: not empty, and without a leading zero. -/
def Proper (ds : List (Fin 10)) : Prop := ds.length = 1 ∨ ds.head? ≠ some 0 ∧ ds ≠ []

theorem value_pos {ds : List (Fin 10)} (hne : ds ≠ []) (h : ds.head? ≠ some 0) : 0 < value ds := by
  cases ds with
  | nil => exact absurd rfl hne
  | cons d ds =>
      have hd : 0 < (d : Nat) := by
        have hzero : d ≠ 0 := by simpa using h
        exact Nat.pos_of_ne_zero fun hval => hzero (Fin.ext hval)
      have hpow : 0 < 10 ^ ds.length := by positivity
      have hmul := Nat.mul_pos hd hpow
      rw [value_cons]
      omega

/-- A proper digit string is the digits of its value. -/
theorem digits_value {ds : List (Fin 10)} (h : Proper ds) : digits (value ds) = ds := by
  induction ds using List.reverseRecOn with
  | nil =>
      rcases h with hlen | ⟨-, hne⟩
      · simp at hlen
      · exact absurd rfl hne
  | append_singleton ds d ih =>
      have hd : (d : Nat) < 10 := d.isLt
      by_cases hnil : ds = []
      · subst hnil
        rw [value_concat, value_nil, Nat.mul_zero, Nat.zero_add, digits_of_lt hd]
        simp
      · have hhead : ds.head? ≠ some 0 := by
          rcases h with hlen | ⟨hhead, -⟩
          · rw [List.length_append, List.length_singleton] at hlen
            exact absurd (List.length_eq_zero_iff.mp (by omega)) hnil
          · rwa [List.head?_append_of_ne_nil _ hnil] at hhead
        have hpos := value_pos hnil hhead
        have hdiv : (10 * value ds + d) / 10 = value ds := by omega
        have hmod : (10 * value ds + d) % 10 = d := by omega
        rw [value_concat, digits_of_le (by omega), hdiv, hmod, ih (Or.inr ⟨hhead, hnil⟩)]
        simp

/-- A number with more digits than one is at least the power of ten below it. -/
theorem pow_le_of_length {m len : Nat} (h : (digits m).length = len + 1) (hlen : 0 < len) :
    10 ^ len ≤ m := by
  rw [digits, List.length_map] at h
  by_contra hlt
  have hle := (Nat.length_toDigits_le_iff (by norm_num) hlen).mpr (not_le.mp hlt)
  omega

end Digits
end Lib
end VoipBill
