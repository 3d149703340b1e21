import TypeLang.Proofs.Codec.Compiled

namespace TypeLang

namespace FieldPlan

/-- Whether a field is on among the given ones: a field without bytes by its value, any other field
by being there. -/
def isOn (given : String → Option Value) (f : FieldPlan) : Bool :=
  match f.role, given f.name with
  | .presence _, some (.bool b) => b
  | .value _ _, some _ => true
  | _, _ => false

theorem isOn_value {f : FieldPlan} {layout : Layout} {gate : Option Gate}
    (h : f.role = .value layout gate) (given : String → Option Value) :
    f.isOn given = (given f.name).isSome := by
  rw [isOn]
  rw [h]
  cases given f.name with
  | none => rfl
  | some v => rfl

def mark (given : String → Option Value) (words : Words) (f : FieldPlan) : Words :=
  match f.gate? with
  | some g => if f.isOn given then g.mark words else words
  | none => words

def Accepts (given : String → Option Value) (f : FieldPlan) : Prop :=
  match f.role, given f.name with
  | .presence _, some v => ∃ b, v = .bool b
  | .value _ none, none => False
  | _, _ => True

/-- Whether the flags words are there, among `n`, that a field fills or, being on, sets a bit in. -/
structure Finds (given : String → Option Value) (n : Nat) (f : FieldPlan) : Prop where
  filled : ∀ slot, f.role = .flags slot → slot < n
  marked : f.isOn given = true → ∀ g ∈ f.gate?, g.slot < n

@[simp] theorem length_mark (given : String → Option Value) (words : Words) (f : FieldPlan) :
    (f.mark given words).length = words.length := by
  rw [mark]
  split
  · split
    · exact Gate.length_mark _ _
    · rfl
  · rfl

theorem isOpen_mark {given : String → Option Value} {words : Words} {f : FieldPlan}
    (h : ∀ g ∈ f.gate?, g.slot < words.length ∧ g.bit < 32) (g : Gate) :
    g.isOpen (f.mark given words) =
      (decide (f.gate? = some g) && f.isOn given || g.isOpen words) := by
  rw [mark]
  cases hg : f.gate? with
  | none => simp
  | some other =>
    obtain ⟨hs, hb⟩ := h other hg
    cases f.isOn given with
    | false => simp
    | true =>
      simp only [if_true, Gate.isOpen_mark hs hb, Option.some.injEq, Bool.and_true]
      rw [decide_eq_decide.mpr eq_comm]

end FieldPlan

namespace Plan

def words (p : Plan) (given : String → Option Value) : Words :=
  p.fields.foldl (FieldPlan.mark given) (List.replicate p.flagsWords 0)

theorem length_marks (given : String → Option Value) (fields : List FieldPlan) (words : Words) :
    (fields.foldl (FieldPlan.mark given) words).length = words.length := by
  induction fields generalizing words with
  | nil => rfl
  | cons f rest ih => rw [List.foldl_cons, ih, FieldPlan.length_mark]

@[simp] theorem length_words (p : Plan) (given : String → Option Value) :
    (p.words given).length = p.flagsWords := by
  rw [words, length_marks, List.length_replicate]

theorem isOpen_marks {given : String → Option Value} {fields : List FieldPlan} {words : Words}
    (h : ∀ f ∈ fields, ∀ g ∈ f.gate?, g.slot < words.length ∧ g.bit < 32) (g : Gate) :
    g.isOpen (fields.foldl (FieldPlan.mark given) words) =
      (fields.any (fun f => decide (f.gate? = some g) && f.isOn given) || g.isOpen words) := by
  induction fields generalizing words with
  | nil => rfl
  | cons f rest ih =>
    rw [List.foldl_cons, ih, FieldPlan.isOpen_mark (h f List.mem_cons_self), List.any_cons,
      Bool.or_left_comm, Bool.or_assoc]
    intro f' hf'
    rw [FieldPlan.length_mark]
    exact h f' (List.mem_cons_of_mem f hf')

end Plan

theorem Slotted.filled {total n : Nat} {fields : List FieldPlan} (h : Slotted total n fields) :
    ∀ f ∈ fields, ∀ slot, f.role = .flags slot → slot < total := by
  induction h with
  | nil => simp
  | flags hr hs ih =>
    refine List.forall_mem_cons.mpr ⟨fun slot h => ?_, ih⟩
    cases hr.symm.trans h
    exact hs.le
  | presence hr _ _ ih =>
    refine List.forall_mem_cons.mpr ⟨fun slot h => ?_, ih⟩
    cases hr.symm.trans h
  | value hr _ _ ih =>
    refine List.forall_mem_cons.mpr ⟨fun slot h => ?_, ih⟩
    cases hr.symm.trans h

theorem Slotted.gates {total n : Nat} {fields : List FieldPlan} (h : Slotted total n fields) :
    ∀ f ∈ fields, ∀ g ∈ f.gate?, g.slot < total ∧ g.bit < 32 := by
  induction h with
  | nil => simp
  | @flags n f rest hr _ ih =>
    intro f' hf'
    rcases List.mem_cons.mp hf' with rfl | hf'
    · simp [FieldPlan.gate?, hr]
    · exact ih f' hf'
  | @presence n f rest gate hr hg hs ih =>
    intro f' hf'
    rcases List.mem_cons.mp hf' with rfl | hf'
    · intro g hgate
      simp only [FieldPlan.gate?, hr] at hgate
      exact ⟨Nat.lt_of_lt_of_le (hg g hgate).1 hs.le, (hg g hgate).2⟩
    · exact ih f' hf'
  | @value n f rest layout gate hr hg hs ih =>
    intro f' hf'
    rcases List.mem_cons.mp hf' with rfl | hf'
    · intro g hgate
      simp only [FieldPlan.gate?, hr] at hgate
      exact ⟨Nat.lt_of_lt_of_le (hg g hgate).1 hs.le, (hg g hgate).2⟩
    · exact ih f' hf'

theorem Slotted.slots {total n : Nat} {fields : List FieldPlan} (h : Slotted total n fields) :
    ∀ f ∈ fields, ∀ slot, f.slot? = some slot → slot < total := by
  intro f hf slot hs
  rcases FieldPlan.slot?_eq_some_iff.mp hs with hr | ⟨g, hg, rfl⟩
  · exact h.filled f hf slot hr
  · exact (h.gates f hf g hg).1

theorem Slotted.finds {total n : Nat} {fields : List FieldPlan} (h : Slotted total n fields)
    (given : String → Option Value) : ∀ f ∈ fields, f.Finds given total := fun f hf =>
  ⟨h.filled f hf, fun _ g hg => (h.gates f hf g hg).1⟩

/-- A bit is set if and only if a field that hangs on it is on. -/
theorem Plan.isOpen_words {p : Plan} (h : Slotted p.flagsWords 0 p.fields)
    (given : String → Option Value) (g : Gate) :
    g.isOpen (p.words given) ↔ ∃ f ∈ p.fields, f.gate? = some g ∧ f.isOn given := by
  rw [words, isOpen_marks, Gate.isOpen_zeros, Bool.or_false, List.any_eq_true]
  · simp only [Bool.and_eq_true, decide_eq_true_eq]
  · rw [List.length_replicate]
    exact h.gates

namespace Codec

theorem setBit_bind_eq_ok {words words' : Words} {g : Gate} {f : Words → Except WriteFault Words} :
    (setBit words g >>= f) = .ok words' ↔
      g.slot < words.length ∧ f (g.mark words) = .ok words' := by
  rcases Nat.lt_or_ge g.slot words.length with h | h
  · rw [setBit_of_lt h, and_iff_right h]
    rfl
  · rw [setBit_of_le h]
    constructor
    · intro h'
      cases h'
    · rintro ⟨h', -⟩
      exact absurd h' (Nat.not_lt.mpr h)

theorem flagsWords_cons (entry : String) (given : String → Option Value) (f : FieldPlan)
    (rest : List FieldPlan) (words words' : Words) :
    flagsWords entry given (f :: rest) words = .ok words' ↔
      f.Accepts given ∧ (f.isOn given = true → ∀ g ∈ f.gate?, g.slot < words.length) ∧
        flagsWords entry given rest (f.mark given words) = .ok words' := by
  obtain ⟨name, type, role⟩ := f
  rw [FieldPlan.Accepts, FieldPlan.isOn, FieldPlan.mark, FieldPlan.gate?, FieldPlan.isOn]
  cases role with
  | flags slot => simp [flagsWords]
  | presence gate =>
    cases hv : given name with
    | none => cases gate <;> simp [flagsWords, hv]
    | some v =>
      cases v with
      | bool b =>
        cases gate with
        | none => simp [flagsWords, hv]
        | some g =>
          cases b with
          | true => simp [flagsWords, hv, setBit_bind_eq_ok]
          | false => simp [flagsWords, hv]
      | _ => simp [flagsWords, hv]
  | value layout gate =>
    cases hv : given name with
    | none => cases gate <;> simp [flagsWords, hv]
    | some v =>
      cases gate with
      | none => simp [flagsWords, hv]
      | some g => simp [flagsWords, hv, setBit_bind_eq_ok]

theorem flagsWords_eq_ok (entry : String) (given : String → Option Value)
    (fields : List FieldPlan) (words words' : Words) :
    flagsWords entry given fields words = .ok words' ↔
      (∀ f ∈ fields, f.Accepts given) ∧
        (∀ f ∈ fields, f.isOn given = true → ∀ g ∈ f.gate?, g.slot < words.length) ∧
        words' = fields.foldl (FieldPlan.mark given) words := by
  induction fields generalizing words with
  | nil => simp [flagsWords, @eq_comm _ words]
  | cons f rest ih =>
    rw [flagsWords_cons, ih, List.forall_mem_cons, List.forall_mem_cons, List.foldl_cons,
      FieldPlan.length_mark]
    tauto

theorem length_of_flagsWords {entry : String} {given : String → Option Value}
    {fields : List FieldPlan} {words words' : Words}
    (h : flagsWords entry given fields words = .ok words') : words'.length = words.length := by
  obtain ⟨-, -, rfl⟩ := (flagsWords_eq_ok _ _ _ _ _).mp h
  exact Plan.length_marks given fields words

end Codec

end TypeLang
