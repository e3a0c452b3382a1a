import Mathlib.Tactic

/-!
# Text with positions

The part of a C++ string that parsers by position use.  Positions are 64-bit:
a search without a hit answers `npos`, and a sum of positions wraps around, so
a parser that goes on with `npos` lands near the beginning of the text.

`lexicalCast` reads a whole text as a decimal number; a sign is accepted also
for an unsigned type, where a negative number wraps around.
-/

namespace VoipBill
namespace Lib
namespace Text

/-- The position that stands for no hit. -/
def npos : Nat := 2 ^ 64 - 1

/-- The sum of two positions. -/
def plus (a b : Nat) : Nat := (a + b) % 2 ^ 64

/-- Offset of the first occurrence of `needle`. -/
def indexOf (needle : List Char) : List Char → Option Nat
  | [] => if needle = [] then some 0 else none
  | c :: text =>
      if needle.isPrefixOf (c :: text) then some 0 else (indexOf needle text).map (· + 1)

/-- `text.find(needle, position)`. -/
def find (text needle : List Char) (position : Nat) : Nat :=
  if position ≤ text.length then
    match indexOf needle (text.drop position) with
    | some offset => position + offset
    | none => npos
  else npos

/-- `text.substr(position, length)`; a position behind the end is an exception. -/
def substr (text : List Char) (position length : Nat) : Option (List Char) :=
  if position ≤ text.length then some ((text.drop position).take length) else none

/-- The value of a non-empty row of decimal digits. -/
def digits (text : List Char) : Option Nat :=
  if text ≠ [] ∧ text.all Char.isDigit then
    some (text.foldl (fun n c => 10 * n + (c.toNat - 48)) 0)
  else none

/-- The sign and the magnitude of a number. -/
def signed : List Char → Option (Bool × Nat)
  | '-' :: text => (digits text).map fun n => (true, n)
  | '+' :: text => (digits text).map fun n => (false, n)
  | text => (digits text).map fun n => (false, n)

/-- `lexical_cast` to an unsigned type of the given width. -/
def lexicalCastUnsigned (width : Nat) (text : List Char) : Option Nat :=
  (signed text).bind fun (negative, n) =>
    if n < 2 ^ width then some (if negative then (2 ^ width - n) % 2 ^ width else n) else none

/-- `lexical_cast<int>`. -/
def lexicalCastInt (text : List Char) : Option Int :=
  (signed text).bind fun (negative, n) =>
    if negative then (if n ≤ 2 ^ 31 then some (-(n : Int)) else none)
    else if n < 2 ^ 31 then some (n : Int) else none

/-- `a.find(b, p)` does not look in front of the position. -/
theorem le_find {text needle : List Char} {position : Nat} (h : position ≤ npos) :
    position ≤ find text needle position := by
  unfold find
  split
  · split
    · exact Nat.le_add_right _ _
    · exact h
  · exact h

theorem indexOf_bound {needle : List Char} (hneedle : needle ≠ []) :
    ∀ {text : List Char} {offset : Nat}, indexOf needle text = some offset →
      offset + needle.length ≤ text.length
  | [], offset, h => by
      rw [indexOf, if_neg hneedle] at h
      exact absurd h (by simp)
  | c :: text, offset, h => by
      rw [indexOf] at h
      by_cases hprefix : needle.isPrefixOf (c :: text)
      · rw [if_pos hprefix, Option.some.injEq] at h
        have hle := (List.isPrefixOf_iff_prefix.mp hprefix).length_le
        omega
      · rw [if_neg hprefix, Option.map_eq_some_iff] at h
        obtain ⟨below, hbelow, hoffset⟩ := h
        have hle := indexOf_bound hneedle hbelow
        rw [List.length_cons]
        omega

/-- A hit lies inside the text with all its characters. -/
theorem find_bound {text needle : List Char} {position : Nat} (hneedle : needle ≠ [])
    (h : find text needle position ≠ npos) :
    find text needle position + needle.length ≤ text.length := by
  unfold find at h ⊢
  by_cases hposition : position ≤ text.length
  · rw [if_pos hposition] at h ⊢
    cases hindex : indexOf needle (text.drop position) with
    | none => rw [hindex] at h; exact absurd rfl h
    | some offset =>
        have hle := indexOf_bound hneedle hindex
        rw [List.length_drop] at hle
        show position + offset + needle.length ≤ text.length
        omega
  · rw [if_neg hposition] at h
    exact absurd rfl h

theorem indexOf_drop {needle : List Char} (hneedle : needle ≠ []) :
    ∀ {text : List Char} {offset k : Nat}, indexOf needle text = some offset → k ≤ offset →
      indexOf needle (text.drop k) = some (offset - k)
  | [], offset, k, h, _ => by
      rw [indexOf, if_neg hneedle] at h
      exact absurd h (by simp)
  | c :: text, offset, 0, h, _ => by simpa using h
  | c :: text, offset, k + 1, h, hk => by
      rw [indexOf] at h
      by_cases hprefix : needle.isPrefixOf (c :: text)
      · rw [if_pos hprefix, Option.some.injEq] at h
        omega
      · rw [if_neg hprefix, Option.map_eq_some_iff] at h
        obtain ⟨below, hbelow, hoffset⟩ := h
        have hdrop := indexOf_drop hneedle (k := k) hbelow (by omega)
        rw [List.drop_succ_cons, hdrop]
        congr 1
        omega

/-- A search from a later position that is not behind the hit finds the same hit. -/
theorem find_of_le {text needle : List Char} {position later : Nat} (hneedle : needle ≠ [])
    (hhit : find text needle position ≠ npos) (hfrom : position ≤ later)
    (hto : later ≤ find text needle position) :
    find text needle later = find text needle position := by
  have hbound := find_bound hneedle hhit
  unfold find at hhit hto hbound ⊢
  by_cases hposition : position ≤ text.length
  · rw [if_pos hposition] at hhit hto hbound ⊢
    cases hindex : indexOf needle (text.drop position) with
    | none => rw [hindex] at hhit; exact absurd rfl hhit
    | some offset =>
        simp only [hindex] at hto hbound ⊢
        have hlater : later ≤ text.length := by omega
        have hdrop := indexOf_drop hneedle (k := later - position) hindex (by omega)
        rw [List.drop_drop, show position + (later - position) = later by omega] at hdrop
        rw [if_pos hlater, hdrop]
        show later + (offset - (later - position)) = position + offset
        omega
  · rw [if_neg hposition] at hhit
    exact absurd rfl hhit

/-- Without a hit from one position there is none from a later one. -/
theorem indexOf_drop_none {needle : List Char} :
    ∀ {text : List Char} {k : Nat}, indexOf needle text = none → k ≤ text.length →
      indexOf needle (text.drop k) = none
  | text, 0, h, _ => by simpa using h
  | [], k + 1, _, hk => absurd hk (by simp)
  | c :: text, k + 1, h, hk => by
      rw [indexOf] at h
      by_cases hprefix : needle.isPrefixOf (c :: text)
      · rw [if_pos hprefix] at h
        exact absurd h (by simp)
      · rw [if_neg hprefix, Option.map_eq_none_iff] at h
        rw [List.drop_succ_cons]
        exact indexOf_drop_none h (by simpa using hk)

theorem find_eq_npos_of_le {text needle : List Char} {position later : Nat}
    (hshort : text.length < npos)
    (h : find text needle position = npos) (hfrom : position ≤ later) :
    find text needle later = npos := by
  unfold find at h ⊢
  by_cases hlater : later ≤ text.length
  · have hposition : position ≤ text.length := by omega
    rw [if_pos hposition] at h
    rw [if_pos hlater]
    cases hindex : indexOf needle (text.drop position) with
    | some offset =>
        by_cases hneedle : needle = []
        · subst hneedle
          have hzero : ∀ rest : List Char, indexOf [] rest = some 0 := by
            intro rest
            cases rest <;> simp [indexOf]
          rw [hzero, Option.some.injEq] at hindex
          subst hindex
          rw [hzero] at h
          simp only at h
          omega
        · have hle := indexOf_bound hneedle hindex
          rw [List.length_drop] at hle
          rw [hindex] at h
          simp only at h
          omega
    | none =>
        have hdrop := indexOf_drop_none (k := later - position) hindex
          (by rw [List.length_drop]; omega)
        rw [List.drop_drop, show position + (later - position) = later by omega] at hdrop
        rw [hdrop]
  · rw [if_neg hlater]

end Text
end Lib
end VoipBill
