import TypeLang.Proofs.Text.Numeral
import TypeLang.Text.Blank

namespace TypeLang.Text

def isIdentChar (c : Char) : Bool := c.isAlphanum || c = '_'

def IsSimple (text : String) : Prop := ∀ c ∈ text.toList, isIdentChar c

instance (text : String) : Decidable (IsSimple text) :=
  List.decidableBAll (fun c => isIdentChar c) text.toList

structure IsIdent (text : String) : Prop where
  ne : text ≠ ""
  simple : IsSimple text

instance (text : String) : Decidable (IsIdent text) :=
  decidable_of_iff (text ≠ "" ∧ IsSimple text)
    ⟨fun ⟨ne, simple⟩ => ⟨ne, simple⟩, fun h => ⟨h.ne, h.simple⟩⟩

theorem isIdentChar_of_isDigit {c : Char} (h : c.isDigit) : isIdentChar c := by
  simp [isIdentChar, Char.isAlphanum, h]

theorem isIdentChar_of_mem_hexDigits {width n : Nat} {c : Char} (h : c ∈ hexDigits width n) :
    isIdentChar c := by
  obtain ⟨d, hd, rfl⟩ := mem_hexDigits h
  have all : ∀ d < 16, isIdentChar (Nat.digitChar d) := by decide
  exact all d hd

theorem not_isBlank_of_range {c : Char} (low : 48 ≤ c.toNat) (high : c.toNat ≤ 122) :
    ¬ isBlank c := by
  simp only [isBlank, UInt32.le_iff_toNat_le, ← UInt32.toNat_inj, Bool.or_eq_true, Bool.and_eq_true,
    decide_eq_true_eq, beq_iff_eq, Char.toNat_val, UInt32.reduceToNat]
  omega

theorem not_isBlank_of_isIdentChar {c : Char} (h : isIdentChar c) : ¬ isBlank c := by
  have within (first last : UInt32) (hf : 48 ≤ first.toNat) (hl : last.toNat ≤ 122)
      (low : first ≤ c.val) (high : c.val ≤ last) : ¬ isBlank c :=
    not_isBlank_of_range (Nat.le_trans hf (UInt32.le_iff_toNat_le.mp low))
      (Nat.le_trans (UInt32.le_iff_toNat_le.mp high) hl)
  rcases Bool.or_eq_true_iff.mp h with h | h
  · rcases Bool.or_eq_true_iff.mp h with h | h
    · rcases Bool.or_eq_true_iff.mp h with h | h
      · obtain ⟨low, high⟩ := of_decide_eq_true h
        exact within 65 90 (by decide) (by decide) low high
      · obtain ⟨low, high⟩ := Bool.and_eq_true_iff.mp h
        exact within 97 122 (by decide) (by decide) (of_decide_eq_true low) (of_decide_eq_true high)
    · obtain ⟨low, high⟩ := Bool.and_eq_true_iff.mp h
      exact within 48 57 (by decide) (by decide) (of_decide_eq_true low) (of_decide_eq_true high)
  · obtain rfl := of_decide_eq_true h
    decide

def isTypeChar (c : Char) : Bool := isIdentChar c || c ∈ ['.', '!', '%', '<', '>']

def isTokenChar (c : Char) : Bool := isTypeChar c || c ∈ [':', '?', '#', ',', '\x7b', '\x7d']

theorem isTypeChar_of_isIdentChar {c : Char} (h : isIdentChar c) : isTypeChar c := by
  simp [isTypeChar, h]

theorem isTokenChar_of_isTypeChar {c : Char} (h : isTypeChar c) : isTokenChar c := by
  simp [isTokenChar, h]

theorem isTokenChar_of_isIdentChar {c : Char} (h : isIdentChar c) : isTokenChar c :=
  isTokenChar_of_isTypeChar (isTypeChar_of_isIdentChar h)

theorem not_isBlank_of_isTokenChar {c : Char} (h : isTokenChar c) : ¬ isBlank c := by
  have inTypes : ['.', '!', '%', '<', '>'].all (!isBlank ·) := by decide
  have between : [':', '?', '#', ',', '\x7b', '\x7d'].all (!isBlank ·) := by decide
  rcases Bool.or_eq_true_iff.mp h with h | h
  · rcases Bool.or_eq_true_iff.mp h with h | h
    · exact not_isBlank_of_isIdentChar h
    · have other := List.all_eq_true.mp inTypes c (of_decide_eq_true h)
      simpa using other
  · have other := List.all_eq_true.mp between c (of_decide_eq_true h)
    simpa using other

end TypeLang.Text
