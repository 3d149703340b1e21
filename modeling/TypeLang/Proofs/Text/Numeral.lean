import Mathlib.Tactic.Ring
import TypeLang.Proofs.Except
import TypeLang.Text.Numeral

namespace TypeLang.Text

theorem digit?_digitChar {n : Nat} (h : n < 16) : digit? 16 n.digitChar = some n := by
  decide +revert

theorem digit?_eq_some {c : Char} (h : c.isDigit) : digit? 10 c = some (c.toNat - '0'.toNat) := by
  obtain ⟨low, high⟩ : 48 ≤ c.val ∧ c.val ≤ 57 := by simpa [Char.isDigit] using h
  have bounds : '0' ≤ c ∧ c ≤ '9' := ⟨low, high⟩
  have value : c.toNat - '0'.toNat < 10 := by
    have : c.toNat ≤ '9'.toNat := bounds.2
    have nine : '9'.toNat = '0'.toNat + 9 := rfl
    omega
  rw [digit?, if_pos bounds]
  exact Option.filter_eq_some_iff.mpr ⟨rfl, by simpa using value⟩

theorem le_ofDigitChars (cs : List Char) (acc : Nat) : acc ≤ Nat.ofDigitChars 10 cs acc := by
  induction cs generalizing acc with
  | nil => exact Nat.le_refl acc
  | cons c cs ih =>
    rw [Nat.ofDigitChars_cons]
    exact Nat.le_trans (by omega) (ih _)

theorem readDigits_eq_ok {limit acc : Nat} {cs : List Char} (digits : ∀ c ∈ cs, c.isDigit)
    (h : Nat.ofDigitChars 10 cs acc < limit) :
    readDigits 10 limit acc cs = .ok (Nat.ofDigitChars 10 cs acc) := by
  induction cs generalizing acc with
  | nil => rfl
  | cons c cs ih =>
    rw [List.forall_mem_cons] at digits
    rw [Nat.ofDigitChars_cons, Nat.mul_comm] at h ⊢
    rw [readDigits, digit?_eq_some digits.1]
    dsimp only
    rw [if_pos (Nat.lt_of_le_of_lt (le_ofDigitChars cs _) h), ih digits.2 h]

theorem isDigit_of_digit? {c : Char} {d : Nat} (h : digit? 10 c = some d) : c.isDigit := by
  obtain ⟨h, small⟩ := Option.filter_eq_some_iff.mp h
  rw [decide_eq_true_eq] at small
  split at h
  · next bounds =>
    obtain ⟨low, high⟩ : 48 ≤ c.val ∧ c.val ≤ 57 := bounds
    simp [Char.isDigit, low, high]
  · -- letters stand for ten and more
    split at h
    · cases h
      omega
    · split at h
      · cases h
        omega
      · cases h

theorem readDigits_eq_ok_iff {limit acc n : Nat} {cs : List Char} (h : acc < limit) :
    readDigits 10 limit acc cs = .ok n ↔
      (∀ c ∈ cs, c.isDigit) ∧ Nat.ofDigitChars 10 cs acc = n ∧ n < limit := by
  constructor
  · intro read
    induction cs generalizing acc with
    | nil =>
      cases read
      exact ⟨List.forall_mem_nil _, rfl, h⟩
    | cons c cs ih =>
      rw [readDigits] at read
      split at read
      · cases read
      · next d hd =>
        have digit := isDigit_of_digit? hd
        obtain rfl := Option.some.inj ((digit?_eq_some digit).symm.trans hd)
        split at read
        · next small =>
          obtain ⟨digits, value, bound⟩ := ih small read
          rw [Nat.mul_comm] at value
          exact ⟨List.forall_mem_cons.mpr ⟨digit, digits⟩, value, bound⟩
        · cases read
  · rintro ⟨digits, rfl, bound⟩
    exact readDigits_eq_ok digits bound

def decimal? (limit : Nat) (cs : List Char) : Option Nat :=
  let n := Nat.ofDigitChars 10 cs 0
  if cs ≠ [] ∧ cs.all Char.isDigit ∧ n < limit then some n else none

def number? (limit : Nat) : List Char → Option Nat
  | '+' :: cs => decimal? limit cs
  | cs => decimal? limit cs

theorem toOption_readDigits {limit : Nat} (h : 0 < limit) {cs : List Char} (ne : cs ≠ []) :
    (readDigits 10 limit 0 cs).toOption = decimal? limit cs := by
  refine Option.ext fun n => ?_
  rw [except_toOption_eq_some, readDigits_eq_ok_iff h, decimal?]
  simp only [ne, ne_eq, not_false_eq_true, true_and, Option.ite_none_right_eq_some,
    Option.some.injEq, List.all_eq_true]
  grind

theorem toOption_readNat {limit : Nat} (h : 0 < limit) (cs : List Char) :
    (readNat 10 limit cs).toOption = number? limit cs := by
  fun_cases readNat 10 limit cs
  · rfl
  · rfl
  · next rest ne => exact toOption_readDigits h ne
  · next ne _ unsigned =>
    rw [toOption_readDigits h ne, number?]
    exact unsigned

theorem readNat_eq_readDigits {radix limit : Nat} {cs : List Char} (ne : cs ≠ [])
    (sign : cs.head? ≠ some '+') : readNat radix limit cs = readDigits radix limit 0 cs := by
  rw [readNat]
  · exact ne
  · rintro rfl
    exact sign rfl
  · rintro rest rfl
    exact sign rfl

theorem readNat_toDigits {n limit : Nat} (h : n < limit) :
    readNat 10 limit (Nat.toDigits 10 n) = .ok n := by
  have digits : ∀ c ∈ Nat.toDigits 10 n, c.isDigit := fun c hc =>
    Nat.isDigit_of_mem_toDigits (by decide) (by decide) hc
  have read : readDigits 10 limit 0 (Nat.toDigits 10 n) = .ok n := by
    rw [readDigits_eq_ok digits, Nat.ofDigitChars_ten_toDigits]
    rwa [Nat.ofDigitChars_ten_toDigits]
  have sign : (Nat.toDigits 10 n).head? ≠ some '+' := by
    intro hs
    have plus := digits '+' (List.mem_of_mem_head? hs)
    cases plus
  rw [readNat_eq_readDigits Nat.toDigits_ne_nil sign, read]

/- Hexadecimal digits -/

theorem mem_hexDigits {width n : Nat} {c : Char} (h : c ∈ hexDigits width n) :
    ∃ d < 16, c = Nat.digitChar d := by
  induction width generalizing n with
  | zero => cases h
  | succ w ih =>
    rcases List.mem_append.mp h with h | h
    · exact ih h
    · exact ⟨n % 16, Nat.mod_lt n (by decide), List.mem_singleton.mp h⟩

theorem readDigits_hexDigits {limit acc width n : Nat}
    (h : acc * 16 ^ width + n % 16 ^ width < limit) (rest : List Char) :
    readDigits 16 limit acc (hexDigits width n ++ rest)
      = readDigits 16 limit (acc * 16 ^ width + n % 16 ^ width) rest := by
  induction width generalizing n rest with
  | zero => rw [hexDigits, Nat.pow_zero, Nat.mod_one, Nat.mul_one, Nat.add_zero, List.nil_append]
  | succ w ih =>
    have split : acc * 16 ^ (w + 1) + n % 16 ^ (w + 1)
        = (acc * 16 ^ w + n / 16 % 16 ^ w) * 16 + n % 16 := by
      rw [Nat.pow_succ, Nat.mul_comm (16 ^ w), Nat.mod_mul]
      ring
    rw [split] at h ⊢
    rw [hexDigits, List.append_assoc, ih (by omega), List.singleton_append, readDigits,
      digit?_digitChar (Nat.mod_lt n (by decide))]
    exact if_pos h

theorem readNat_hexDigits {limit width n : Nat} (hn : n < 16 ^ (width + 1)) (h : n < limit) :
    readNat 16 limit (hexDigits (width + 1) n) = .ok n := by
  have sign : (hexDigits (width + 1) n).head? ≠ some '+' := by
    intro hs
    obtain ⟨d, hd, plus⟩ := mem_hexDigits (List.mem_of_mem_head? hs)
    exact absurd plus (by decide +revert)
  have value : 0 * 16 ^ (width + 1) + n % 16 ^ (width + 1) = n := by
    rw [Nat.zero_mul, Nat.zero_add, Nat.mod_eq_of_lt hn]
  have read := readDigits_hexDigits (value.symm ▸ h) []
  rw [List.append_nil, value] at read
  rw [readNat_eq_readDigits (by simp [hexDigits]) sign, read, readDigits]

end TypeLang.Text
