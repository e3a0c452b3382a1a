import Mathlib.Tactic

/-!
# Formatted numbers

`sscanf` reads numbers from a text by a format: a number, a fixed character, or any amount of
white space.  It stops at the first part that does not match and answers the numbers read so
far.

* `Numeral`: a text of digits, leading zeros allowed, and its number;
* `sscanf_int`, `sscanf_literal`, `sscanf_space`: a text that matches a part of the format is
  read on from the next one.
-/

namespace VoipBill
namespace Lib
namespace Scan

/-- A part of a format: `%d`, a character that has to follow, or white space. -/
inductive Directive where
  | int
  | literal (c : Char)
  | space

/-- White space: a blank, or a control character from tab to carriage return. -/
def isSpace (c : Char) : Bool := decide (c.toNat = 32 ∨ 9 ≤ c.toNat ∧ c.toNat ≤ 13)

/-- The number of a row of digits. -/
def natOfDigits (text : List Char) : Nat :=
  text.foldl (fun n c => 10 * n + (c.toNat - 48)) 0

/-- What `%d` stores: the number is read with 64 bits and kept with 32. -/
def store (n : Int) : Int := (max (-2 ^ 63) (min n (2 ^ 63 - 1))).bmod (2 ^ 32)

/-- The sign of a number and what follows it. -/
def readSign : List Char → Bool × List Char
  | '-' :: text => (true, text)
  | '+' :: text => (false, text)
  | text => (false, text)

/-- `%d`: white space, a sign and one digit at least; the number and the text behind it. -/
def readInt (text : List Char) : Option (Int × List Char) :=
  let (negative, text) := readSign (text.dropWhile isSpace)
  let number := text.takeWhile Char.isDigit
  if number = [] then none
  else some (store (if negative then -(natOfDigits number : Int) else natOfDigits number),
    text.dropWhile Char.isDigit)

/-- The numbers that are stored, up to the first part of the format that does not match. -/
def sscanf : List Directive → List Char → List Int
  | [], _ => []
  | .int :: format, text =>
      match readInt text with
      | some (n, rest) => n :: sscanf format rest
      | none => []
  | .literal c :: format, text =>
      match text with
      | d :: rest => if d = c then sscanf format rest else []
      | [] => []
  | .space :: format, text => sscanf format (text.dropWhile isSpace)

/-- A text of digits that stands for a number. -/
structure Numeral (text : List Char) (n : Nat) : Prop where
  ne_nil : text ≠ []
  isDigit : ∀ c ∈ text, c.isDigit = true
  value : natOfDigits text = n

theorem natOfDigits_concat (text : List Char) (c : Char) :
    natOfDigits (text ++ [c]) = 10 * natOfDigits text + (c.toNat - 48) := by
  rw [natOfDigits, List.foldl_append]
  rfl

/-- The digits of a number. -/
theorem numeral_toDigits (n : Nat) : Numeral (Nat.toDigits 10 n) n := by
  have hdigit : ∀ c ∈ Nat.toDigits 10 n, c.isDigit = true := fun c hmem =>
    Nat.isDigit_of_mem_toDigits (by norm_num) (by norm_num) hmem
  refine ⟨Nat.toDigits_ne_nil, hdigit, ?_⟩
  clear hdigit
  induction n using Nat.strong_induction_on with
  | _ n ih =>
      by_cases h : n < 10
      · rw [Nat.toDigits_of_lt_base h, ← List.nil_append [_], natOfDigits_concat]
        rw [Nat.toNat_digitChar_of_lt_ten h]
        simp [natOfDigits]
      · have hle : 10 ≤ n := by omega
        rw [Nat.toDigits_of_base_le (by norm_num) hle, natOfDigits_concat, ih (n / 10) (by omega),
          Nat.toNat_digitChar_of_lt_ten (by omega)]
        omega

/-- A leading zero does not change a number. -/
theorem Numeral.zero_cons {text : List Char} {n : Nat} (h : Numeral text n) :
    Numeral ('0' :: text) n where
  ne_nil := List.cons_ne_nil _ _
  isDigit c hmem := by
    rcases List.mem_cons.mp hmem with rfl | hmem
    · rfl
    · exact h.isDigit c hmem
  value := h.value

/-- A number that fits is stored as it is. -/
theorem store_of_lt {n : Nat} (h : n < 2 ^ 31) : store n = n := by
  rw [store, Int.bmod_eq_of_le]
  · omega
  · omega
  · omega

/-- A text that does not begin with a digit. -/
def StopsDigits (text : List Char) : Prop := ∀ c ∈ text.head?, c.isDigit = false

theorem stopsDigits_nil : StopsDigits [] := by simp [StopsDigits]

theorem stopsDigits_cons {c : Char} (h : c.isDigit = false) (text : List Char) :
    StopsDigits (c :: text) := by simpa [StopsDigits] using h

theorem takeWhile_isDigit_append {text rest : List Char} (h : ∀ c ∈ text, c.isDigit = true)
    (hrest : StopsDigits rest) :
    (text ++ rest).takeWhile Char.isDigit = text ∧ (text ++ rest).dropWhile Char.isDigit = rest := by
  rw [List.takeWhile_append_of_pos h, List.dropWhile_append_of_pos h]
  cases rest with
  | nil => simp
  | cons c rest =>
      have hc : c.isDigit = false := hrest c (by simp)
      simp [hc]

theorem isSpace_of_isDigit {c : Char} (h : c.isDigit = true) : isSpace c = false := by
  have hbounds : 48 ≤ c.toNat ∧ c.toNat ≤ 57 := Char.isDigit_iff_toNat.mp h
  rw [isSpace, decide_eq_false_iff_not]
  omega

/-- A numeral is read up to its last digit. -/
theorem readInt_append {text rest : List Char} {n : Nat} (h : Numeral text n) (hn : n < 2 ^ 31)
    (hrest : StopsDigits rest) : readInt (text ++ rest) = some ((n : Int), rest) := by
  obtain ⟨htake, hdrop⟩ := takeWhile_isDigit_append h.isDigit hrest
  obtain ⟨c, digits, rfl⟩ := List.exists_cons_of_ne_nil h.ne_nil
  have hc : c.isDigit = true := h.isDigit c (by simp)
  -- a digit is neither white space nor a sign
  have hspace : isSpace c = false := isSpace_of_isDigit hc
  have hsign : readSign (c :: digits ++ rest) = (false, c :: digits ++ rest) := by
    unfold readSign
    split
    case h_1 heq =>
      obtain ⟨rfl, -⟩ := List.cons.inj heq
      exact absurd hc (by decide)
    case h_2 heq =>
      obtain ⟨rfl, -⟩ := List.cons.inj heq
      exact absurd hc (by decide)
    case h_3 => rfl
  have hskip : (c :: digits ++ rest).dropWhile isSpace = c :: digits ++ rest := by
    rw [List.cons_append, List.dropWhile_cons_of_neg (by simp [hspace])]
  simp only [readInt, hskip, hsign, htake, hdrop]
  rw [if_neg h.ne_nil, if_neg Bool.false_ne_true, h.value, store_of_lt hn]

/-! ## Reading by a format -/

variable {format : List Directive} {rest : List Char}

theorem sscanf_int {text : List Char} {n : Nat} (h : Numeral text n) (hn : n < 2 ^ 31)
    (hrest : StopsDigits rest) :
    sscanf (.int :: format) (text ++ rest) = (n : Int) :: sscanf format rest := by
  rw [sscanf, readInt_append h hn hrest]

theorem sscanf_literal (c : Char) :
    sscanf (.literal c :: format) (c :: rest) = sscanf format rest := by
  rw [sscanf, if_pos rfl]

/-- One blank before a text that does not begin with white space. -/
theorem sscanf_space (hrest : ∀ c ∈ rest.head?, isSpace c = false) :
    sscanf (.space :: format) (' ' :: rest) = sscanf format rest := by
  rw [sscanf, List.dropWhile_cons_of_pos (by decide)]
  cases rest with
  | nil => rfl
  | cons c rest => rw [List.dropWhile_cons_of_neg (by simp [hrest c (by simp)])]

end Scan
end Lib
end VoipBill
