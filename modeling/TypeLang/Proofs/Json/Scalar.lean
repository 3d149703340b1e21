import Mathlib.Tactic.SplitIfs
import TypeLang.Json.Outline
import TypeLang.Json.Tree
import TypeLang.Proofs.Text.Numeral

namespace TypeLang

theorem Double.round_le (n : Nat) : round n ≤ 2 * n := by
  cases Nat.eq_zero_or_pos n with
  | inl h =>
    subst h
    decide
  | inr h =>
    have unit : 1 <<< (Nat.log2 n + 1 - precision) ≤ n := by
      rw [Nat.one_shiftLeft]
      calc
        2 ^ (Nat.log2 n + 1 - precision) ≤ 2 ^ Nat.log2 n :=
          Nat.pow_le_pow_right (by decide) (by simp only [precision]; omega)
        _ ≤ n := Nat.log2_self_le (Nat.ne_of_gt h)
    have low := Nat.mul_div_le n (1 <<< (Nat.log2 n + 1 - precision))
    rw [round, Nat.mul_add]
    split
    · omega
    · omega

namespace Json

/- Texts -/

theorem hex4_hexDigits {n : Nat} (h : n < 0x10000) (rest : List Char) :
    hex4 (Text.hexDigits 4 n ++ rest) = .ok (n, rest) := by
  have digits : Text.hexDigits 4 n =
      [(n / 16 / 16 / 16 % 16).digitChar, (n / 16 / 16 % 16).digitChar, (n / 16 % 16).digitChar,
        (n % 16).digitChar] := rfl
  have digit (m : Nat) : Text.digit? 16 (m % 16).digitChar = some (m % 16) :=
    Text.digit?_digitChar (Nat.mod_lt m (by decide))
  rw [hex4, digits]
  simp only [List.cons_append, List.nil_append, List.take_succ_cons, List.take_zero,
    List.filterMap_cons, digit, List.filterMap_nil, List.drop_succ_cons, List.drop_zero]
  have value : 16 * (16 * (16 * (n / 16 / 16 / 16 % 16) + n / 16 / 16 % 16) + n / 16 % 16)
      + n % 16 = n := by omega
  simp [value]

theorem escaped_hexDigits {n : Nat} (h : n < 0x20) (rest : List Char) :
    escaped ('u' :: (Text.hexDigits 4 n ++ rest)) = .ok (some (Char.ofNat n), 5) := by
  have low : ¬ (0xdc00 ≤ n ∧ n ≤ 0xdfff) := by omega
  have high : ¬ (0xd800 ≤ n ∧ n ≤ 0xdbff) := by omega
  rw [escaped, hex4_hexDigits (by omega)]
  simp only [bind, Except.bind, low, high, if_false]
  rfl

variable {sound : Bool} {acc rest : List Char}

theorem readQuoted_skip (skipped : List Char) :
    readQuoted skipped.length sound acc (skipped ++ rest) = readQuoted 0 sound acc rest := by
  induction skipped with
  | nil => rfl
  | cons c cs ih =>
    rw [List.length_cons, List.cons_append, readQuoted]
    exact ih

theorem readQuoted_backslash (skipped : List Char) {c : Char}
    (h : escaped (skipped ++ rest) = .ok (some c, skipped.length)) :
    readQuoted 0 sound acc ('\\' :: (skipped ++ rest)) = readQuoted 0 sound (c :: acc) rest := by
  rw [readQuoted]
  simp only [h]
  exact readQuoted_skip skipped

theorem readQuoted_escape (c : Char) :
    readQuoted 0 sound acc (escape c ++ rest) = readQuoted 0 sound (c :: acc) rest := by
  rw [escape]
  split_ifs with h₁ h₂ h₃ h₄ h₅ h₆ h₇ h₈
  · subst h₁
    exact readQuoted_backslash ['"'] rfl
  · subst h₂
    exact readQuoted_backslash ['\\'] rfl
  · subst h₃
    exact readQuoted_backslash ['n'] rfl
  · subst h₄
    exact readQuoted_backslash ['r'] rfl
  · subst h₅
    exact readQuoted_backslash ['t'] rfl
  · obtain rfl : c = Char.ofNat 8 := Char.ext h₆
    exact readQuoted_backslash ['b'] rfl
  · obtain rfl : c = Char.ofNat 12 := Char.ext h₇
    exact readQuoted_backslash ['f'] rfl
  · refine readQuoted_backslash ('u' :: Text.hexDigits 4 c.toNat) ?_
    have read := escaped_hexDigits (n := c.toNat) h₈ rest
    rwa [Char.ofNat_toNat] at read
  · rw [List.cons_append, List.nil_append, readQuoted, if_neg h₁, if_neg h₂, if_neg h₈]

theorem readQuoted_flatMap_escape (s : List Char) :
    readQuoted 0 sound acc (s.flatMap escape ++ '"' :: rest)
      = ⟨.ok (String.ofList (acc.reverse ++ s)), sound, rest⟩ := by
  induction s generalizing acc with
  | nil => simp [readQuoted]
  | cons c cs ih =>
    rw [List.flatMap_cons, List.append_assoc, readQuoted_escape, ih]
    simp

theorem readQuoted_quote {s : String} {cs : List Char} (h : (quote s).toList = '"' :: cs) :
    readQuoted 0 true [] (cs ++ rest) = ⟨.ok s, true, rest⟩ := by
  obtain rfl : s.toList.flatMap escape ++ ['"'] = cs := by simpa [quote] using h
  rw [List.append_assoc, List.cons_append, List.nil_append, readQuoted_flatMap_escape]
  simp

theorem quote_eq_cons (s : String) : ∃ cs, (quote s).toList = '"' :: cs :=
  ⟨s.toList.flatMap escape ++ ['"'], by simp [quote]⟩

/- Whole numbers -/

/-- Whether a text begins with nothing that could be part of a number. -/
def Stops : List Char → Prop
  | [] => True
  | c :: _ => isDigit c = false ∧ c ≠ '.' ∧ c ≠ 'e' ∧ c ≠ 'E'

theorem leading_eq {cs : List Char} {acc : Nat} (h : Nat.ofDigitChars 10 cs acc < UInt64.size) :
    leading acc cs = (Nat.ofDigitChars 10 cs acc, []) := by
  induction cs generalizing acc with
  | nil => rfl
  | cons c cs ih =>
    rw [Nat.ofDigitChars_cons] at h ⊢
    rw [leading, if_pos (Nat.lt_of_le_of_lt (Text.le_ofDigitChars cs _) h), ih h]

theorem not_isHuge {n : Nat} (h : n < UInt64.size) : isHuge n 0 = false := by
  have value : Double.round n * Double.round (Nat.pow 10 0) < Double.overflow := by
    calc
      Double.round n * Double.round (Nat.pow 10 0) ≤ 2 * UInt64.size * (2 * Nat.pow 10 0) :=
        Nat.mul_le_mul (by have := Double.round_le n; omega) (Double.round_le _)
      _ < Double.overflow := by decide
  rw [isHuge]
  split
  · rfl
  · rw [if_neg (by decide)]
    exact decide_eq_false (Nat.not_le.mpr value)

theorem head?_toDigits_ne_zero {n : Nat} (h : n ≠ 0) : (Nat.toDigits 10 n).head? ≠ some '0' := by
  induction n using Nat.strongRecOn with
  | ind n ih =>
    cases Nat.lt_or_ge n 10 with
    | inl small =>
      rw [Nat.toDigits_of_lt_base small, List.head?_cons, Ne, Option.some_inj,
        Nat.digitChar_eq_zero]
      exact h
    | inr large =>
      rw [Nat.toDigits_of_base_le (by decide) large, List.head?_append]
      have front := ih (n / 10) (by omega) (by omega)
      cases hd : (Nat.toDigits 10 (n / 10)).head? with
      | none => exact absurd (List.head?_eq_none_iff.mp hd) Nat.toDigits_ne_nil
      | some c => rwa [hd] at front

theorem readExponent_of_stops {cs : List Char} (h : Stops cs) :
    readExponent cs = .ok (none, cs) := by
  cases cs with
  | nil => rfl
  | cons c cs =>
    obtain ⟨-, -, he, hE⟩ := h
    simp [readExponent, he, hE]

theorem readNumber_toDigits (negative : Bool) {n : Nat} (small : n < UInt64.size)
    (sign : negative = true → n ≠ 0) (h : Stops rest) :
    readNumber negative (Nat.toDigits 10 n ++ rest)
      = (.int (if negative then -n else n), some rest) := by
  have digits : ∀ c ∈ Nat.toDigits 10 n, isDigit c := fun c hc =>
    Nat.isDigit_of_mem_toDigits (by decide) (by decide) hc
  have behind : rest.takeWhile isDigit = [] ∧ rest.dropWhile isDigit = rest := by
    cases rest with
    | nil => exact ⟨rfl, rfl⟩
    | cons c cs => simp [h.1]
  have whole : (Nat.toDigits 10 n ++ rest).takeWhile isDigit = Nat.toDigits 10 n := by
    rw [List.takeWhile_append_of_pos digits, behind.1, List.append_nil]
  have left : (Nat.toDigits 10 n ++ rest).dropWhile isDigit = rest := by
    rw [List.dropWhile_append_of_pos digits, behind.2]
  have zeros :
      ((Nat.toDigits 10 n).head? = some '0' && 1 < (Nat.toDigits 10 n).length) = false := by
    by_cases hn : n = 0
    · subst hn
      decide
    · simp [head?_toDigits_ne_zero hn]
  have nonempty : (Nat.toDigits 10 n).isEmpty = false := by simp [Nat.toDigits_ne_nil]
  have point (cs : List Char) : rest ≠ '.' :: cs := by
    rintro rfl
    exact h.2.1 rfl
  have value : significand (Nat.toDigits 10 n) [] 0 = (n, 0) := by
    rw [significand, leading_eq (by rwa [Nat.ofDigitChars_ten_toDigits])]
    simp [leading, Nat.ofDigitChars_ten_toDigits]
  rw [readNumber]
  simp only [whole, left, zeros, nonempty, readExponent_of_stops h, Option.getD_none, value,
    not_isHuge small]
  rw [← Nat.ofDigitChars_eq_foldl, Nat.ofDigitChars_ten_toDigits]
  have signed : (negative && decide (n = 0)) = false := by simpa using sign
  simp [signed]

end Json

end TypeLang
