import TypeLang.Codec.Decode
import TypeLang.Proofs.Except
import TypeLang.Proofs.Read.Primitive
import TypeLang.Proofs.Read.Refines

namespace TypeLang.Read

variable {α β : Type}

def outcome (r : Read α) (c : Cursor) : Except ReadFault (α × List UInt8) :=
  match r c with
  | .ok a d => .ok (a, d.left)
  | .error e _ => .error e

def answer (r : Read α) (c : Cursor) : Except ReadFault α := (outcome r c).map (·.1)

def TooDeep (r : Read α) (c : Cursor) : Prop := ∃ limit, answer r c = .error (.tooDeep limit)

/-- What the read comes to depends on the bytes ahead alone. -/
def Ahead (r : Read α) : Prop := ∀ ⦃c d⦄, c.left = d.left → outcome r c = outcome r d

theorem outcome_of_ok {r : Read α} {c d : Cursor} {a : α} (h : r c = .ok a d) :
    outcome r c = .ok (a, d.left) := by
  rw [outcome, h]

theorem outcome_of_error {r : Read α} {c d : Cursor} {e : ReadFault} (h : r c = .error e d) :
    outcome r c = .error e := by
  rw [outcome, h]

theorem outcome_eq_ok {r : Read α} {c : Cursor} {a : α} {t : List UInt8} :
    outcome r c = .ok (a, t) ↔ ∃ d, r c = .ok a d ∧ d.left = t := by
  rw [outcome]
  cases r c with
  | ok a' d =>
    constructor
    · rintro ⟨⟩
      exact ⟨d, rfl, rfl⟩
    · rintro ⟨_, ⟨⟩, rfl⟩
      rfl
  | error e d => simp

theorem outcome_eq_error {r : Read α} {c : Cursor} {e : ReadFault} :
    outcome r c = .error e ↔ ∃ d, r c = .error e d := by
  rw [outcome]
  cases r c with
  | ok a d => simp
  | error e' d => simp

theorem answer_of_ok {r : Read α} {c d : Cursor} {a : α} (h : r c = .ok a d) :
    answer r c = .ok a := by
  rw [answer, outcome_of_ok h]
  rfl

theorem answer_eq_ok {r : Read α} {c : Cursor} {a : α} :
    answer r c = .ok a ↔ ∃ d, r c = .ok a d := by
  constructor
  · intro h
    obtain ⟨⟨_, t⟩, ho, rfl⟩ := except_map_eq_ok.mp h
    obtain ⟨d, hd, -⟩ := outcome_eq_ok.mp ho
    exact ⟨d, hd⟩
  · rintro ⟨d, hd⟩
    exact answer_of_ok hd

theorem answer_of_error {r : Read α} {c d : Cursor} {e : ReadFault} (h : r c = .error e d) :
    answer r c = .error e := by
  rw [answer, outcome_of_error h]
  rfl

theorem not_tooDeep_of_answer {r : Read α} {c : Cursor} {a : α} (h : answer r c = .ok a) :
    ¬ TooDeep r c := by
  rintro ⟨limit, he⟩
  rw [h] at he
  cases he

theorem outcome_rewinding (r : Read α) (c : Cursor) : outcome (rewinding r) c = outcome r c := by
  rw [outcome, outcome, rewinding]
  cases r c with
  | ok a d => rfl
  | error e d => rfl

theorem answer_rewinding (r : Read α) (c : Cursor) : answer (rewinding r) c = answer r c := by
  rw [answer, outcome_rewinding, answer]

/-- What is read inside a packed payload comes to the same outside, where the bytes behind the
payload are left. -/
theorem outcome_within (packed plain : ByteArray) (r : Read α) (c : Cursor) :
    outcome (within packed plain r) c =
      (outcome r ⟨plain, 0, c.unpacked ++ [(packed.size, plain.size)]⟩).map fun a =>
        (a.1, c.left) := by
  rw [outcome, outcome, within]
  cases r ⟨plain, 0, c.unpacked ++ [(packed.size, plain.size)]⟩ with
  | ok a d => rfl
  | error e d => rfl

theorem answer_within (packed plain : ByteArray) (r : Read α) (c : Cursor) :
    answer (within packed plain r) c =
      answer r ⟨plain, 0, c.unpacked ++ [(packed.size, plain.size)]⟩ := by
  rw [answer, outcome_within, answer]
  cases outcome r ⟨plain, 0, c.unpacked ++ [(packed.size, plain.size)]⟩ with
  | ok a => rfl
  | error e => rfl

theorem ahead_pure (a : α) : Ahead (pure a) := by
  intro c d h
  change Except.ok (a, c.left) = Except.ok (a, d.left)
  rw [h]

theorem ahead_throw (e : ReadFault) : Ahead (throw e : Read α) := fun _ _ _ => rfl

theorem Ahead.bind {r : Read α} {f : α → Read β} (h : Ahead r) (h' : ∀ a, Ahead (f a)) :
    Ahead (r >>= f) := by
  intro c d hcd
  have same := h hcd
  cases hr : r c with
  | ok a m =>
    rw [outcome_of_ok hr] at same
    obtain ⟨m', hr', hm⟩ := outcome_eq_ok.mp same.symm
    rw [outcome, outcome, bind_of_ok hr, bind_of_ok hr']
    exact h' a hm.symm
  | error e m =>
    rw [outcome_of_error hr] at same
    obtain ⟨m', hr'⟩ := outcome_eq_error.mp same.symm
    rw [outcome_of_error (bind_of_error hr f), outcome_of_error (bind_of_error hr' f)]

theorem ahead_take (n : Nat) : Ahead (take n) := by
  intro c d h
  have remaining : c.remaining = d.remaining := by
    rw [← c.length_left, h, d.length_left]
  cases hr : take n c with
  | ok a m =>
    obtain ⟨t, ht⟩ := take_eq_ok hr
    rw [outcome_of_ok (take_eq a.property ht), outcome_of_ok (take_eq a.property (h ▸ ht)),
      Cursor.left_move, Cursor.left_move, h]
  | error e m =>
    rw [outcome_of_error hr]
    rw [take] at hr
    split at hr
    · cases hr
    · next hn =>
      cases hr
      rw [remaining] at hn ⊢
      rw [outcome, take, dif_neg hn]

theorem ahead_byte : Ahead byte := by
  intro c d h
  cases hc : c.left with
  | nil =>
    have empty : ∀ e : Cursor, e.left = [] → outcome byte e = .error (.truncated 1 0) := by
      intro e he
      have none : e.remaining = 0 := by rw [← e.length_left, he, List.length_nil]
      have outside : ¬ e.pos < e.bytes.size := by
        rw [Cursor.remaining] at none
        omega
      rw [outcome, byte, dif_neg outside, none]
    rw [empty c hc, empty d (h ▸ hc)]
  | cons x t =>
    rw [outcome_of_ok (byte_eq hc), outcome_of_ok (byte_eq (h ▸ hc)), Cursor.left_move,
      Cursor.left_move, h]

theorem Ahead.within {r : Read α} (h : Ahead r) (packed plain : ByteArray) :
    Ahead (within packed plain r) := by
  intro c d hcd
  rw [outcome_within, outcome_within, hcd]
  exact congrArg _ (h rfl)

theorem Ahead.answer_eq {r : Read α} (h : Ahead r) {c d : Cursor} (hcd : c.left = d.left) :
    answer r c = answer r d := by
  rw [answer, h hcd, answer]

theorem Refines.eq_of_not_tooDeep {r r' : Read α} (h : Refines ReadFault.IsTooDeep r r') {c : Cursor}
    (hd : ¬ TooDeep r c) : r c = r' c := by
  cases hr : r c with
  | ok a d => rw [h.ok hr]
  | error e d =>
    have shallow : ¬ e.IsTooDeep := by
      intro he
      cases e with
      | tooDeep limit => exact hd ⟨limit, answer_of_error hr⟩
      | _ => exact he
    rw [h.error hr shallow]

end TypeLang.Read
