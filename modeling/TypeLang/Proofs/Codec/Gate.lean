import TypeLang.Codec.Decode
import TypeLang.Codec.Encode

/-!
Looking up flags words. Each lookup has one equation for a word that is there and one for a word
that is not, at which the program stops. A plan *strays* if it has a field that looks up such a
word.
-/

namespace TypeLang

namespace Gate

/-- Whether the bit is set. In a word that is not there it is not. -/
def isOpen (g : Gate) (words : Words) : Bool := g.isSet? words = some true

/-- The words with the bit set, or as they are if the word is not there. -/
def mark (g : Gate) (words : Words) : Words := (g.set? words).getD words

section

variable {g : Gate} {words : Words}

theorem isSet?_of_lt (h : g.slot < words.length) : g.isSet? words = some (g.isOpen words) := by
  simp [isOpen, isSet?, List.getElem?_eq_getElem h]

theorem isSet?_of_le (h : words.length ≤ g.slot) : g.isSet? words = none := by
  rw [isSet?, List.getElem?_eq_none h, Option.map_none]

theorem isOpen_iff : g.isOpen words = true ↔ g.isSet? words = some true := decide_eq_true_iff

theorem set?_of_lt (h : g.slot < words.length) : g.set? words = some (g.mark words) := by
  simp [mark, set?, List.getElem?_eq_getElem h]

theorem set?_of_le (h : words.length ≤ g.slot) : g.set? words = none := by
  rw [set?, List.getElem?_eq_none h, Option.map_none]

theorem isOpen_congr {seen : Words} (h : seen[g.slot]? = words[g.slot]?) :
    g.isOpen seen = g.isOpen words := by
  rw [isOpen, isOpen, isSet?, isSet?, h]

end

@[simp] theorem length_mark (g : Gate) (words : Words) :
    (g.mark words).length = words.length := by
  rw [mark, set?]
  cases words[g.slot]? with
  | none => rfl
  | some w => exact List.length_set

theorem testBit_one_shiftLeft {b i : Nat} (hb : b < 32) :
    ((1 : UInt32) <<< UInt32.ofNat b).toNat.testBit i = decide (b = i) := by
  have h : ((1 : UInt32) <<< UInt32.ofNat b).toNat = 2 ^ b := by
    rw [UInt32.toNat_shiftLeft, UInt32.toNat_ofNat', UInt32.toNat_one, Nat.one_shiftLeft,
      Nat.mod_eq_of_lt (Nat.lt_trans hb (by decide)), Nat.mod_eq_of_lt hb]
    exact Nat.mod_eq_of_lt (Nat.pow_lt_pow_right (by decide) hb)
  rw [h, Nat.testBit_two_pow]

theorem isOpen_mark {g : Gate} {words : Words} (hs : g.slot < words.length) (hb : g.bit < 32)
    (other : Gate) :
    other.isOpen (g.mark words) = (decide (other = g) || other.isOpen words) := by
  obtain ⟨slot, bit⟩ := g
  obtain ⟨slot', bit'⟩ := other
  have marked : mark ⟨slot, bit⟩ words =
      words.set slot (words[slot] ||| (1 <<< UInt32.ofNat bit)) := by
    rw [mark, set?, List.getElem?_eq_getElem hs]
    rfl
  rw [marked, isOpen, isOpen, isSet?, isSet?]
  by_cases h : slot = slot'
  · subst h
    simp only [List.getElem?_set_self hs, List.getElem?_eq_getElem hs, Option.map_some,
      Option.some.injEq, UInt32.toNat_or, Nat.testBit_or, testBit_one_shiftLeft hb, mk.injEq,
      true_and, Bool.decide_eq_true]
    rw [Bool.or_comm, decide_eq_decide.mpr eq_comm]
  · simp [List.getElem?_set_ne h, Ne.symm h]

theorem isOpen_zeros (g : Gate) (n : Nat) : g.isOpen (List.replicate n 0) = false := by
  rw [isOpen, isSet?, List.getElem?_replicate]
  split
  · simp
  · simp

end Gate

namespace FieldPlan

def gate? (f : FieldPlan) : Option Gate :=
  match f.role with
  | .flags _ => none
  | .presence gate | .value _ gate => gate

def slot? (f : FieldPlan) : Option Nat :=
  match f.role with
  | .flags slot => some slot
  | .presence gate | .value _ gate => gate.map (·.slot)

theorem slot?_eq_some_iff {f : FieldPlan} {slot : Nat} : f.slot? = some slot ↔
    f.role = .flags slot ∨ ∃ g, f.gate? = some g ∧ g.slot = slot := by
  rw [slot?, gate?]
  cases f.role with
  | flags other => simp
  | presence gate => simp
  | value layout gate => simp

end FieldPlan

/-- Whether a field of the plan looks up a flags word that is not there, and how many there are. -/
def Plan.Strays (p : Plan) (slot length : Nat) : Prop :=
  length = p.flagsWords ∧ length ≤ slot ∧ ∃ f ∈ p.fields, f.slot? = some slot

namespace Codec

variable {words : Words} {slot : Nat} {g : Gate}

theorem fillWord_of_lt (h : slot < words.length) (word : UInt32) :
    fillWord words slot word = pure (words.set slot word) := if_pos h

theorem fillWord_of_le (h : words.length ≤ slot) (word : UInt32) :
    fillWord words slot word = throw (.crash slot words.length) := if_neg (Nat.not_lt.mpr h)

theorem readGate_of_lt {gate : Option Gate} (h : ∀ g ∈ gate, g.slot < words.length) :
    readGate words gate = pure (gate.all (·.isOpen words)) := by
  cases gate with
  | none => rfl
  | some g =>
    rw [readGate, Gate.isSet?_of_lt (h g rfl)]
    rfl

theorem readGate_of_le (h : words.length ≤ g.slot) :
    readGate words (some g) = throw (.crash g.slot words.length) := by
  rw [readGate, Gate.isSet?_of_le h]

theorem setBit_of_lt (h : g.slot < words.length) : setBit words g = .ok (g.mark words) := by
  rw [setBit, Gate.set?_of_lt h]

theorem setBit_of_le (h : words.length ≤ g.slot) :
    setBit words g = .error (.crash g.slot words.length) := by
  rw [setBit, Gate.set?_of_le h]

theorem writeWord_of_lt (h : slot < words.length) :
    writeWord words slot = Write.emit (Wire.word32 words[slot]) := by
  rw [writeWord, List.getElem?_eq_getElem h]

theorem writeWord_of_le (h : words.length ≤ slot) :
    writeWord words slot = throw (.crash slot words.length) := by
  rw [writeWord, List.getElem?_eq_none h]

end Codec

end TypeLang
