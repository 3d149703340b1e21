import TypeLang.Codec.Encode
import TypeLang.Proofs.Read.Takes

/-!
Writing as a matter of the bytes that are appended. A *uniform* write appends the same bytes to
every buffer, if it succeeds; a *steady* one does so if it fails, too.
-/

namespace TypeLang

namespace Write

variable {α β : Type}

def Writes (w : Write α) (b : ByteArray) (a : α) : Prop :=
  ∀ buffer, w buffer = .ok a (buffer ++ b)

/-- Where the write succeeds, it appends what it appends everywhere. -/
def Uniform (w : Write α) : Prop :=
  ∀ ⦃buffer buffer' a⦄, w buffer = .ok a buffer' → ∃ b, buffer' = buffer ++ b ∧ Writes w b a

/-- The write fails behind `b`, whatever stands in front of it. -/
def Fails (w : Write α) (b : ByteArray) (e : WriteFault) : Prop :=
  ∀ buffer, w buffer = .error e (buffer ++ b)

/-- The write appends the same bytes to every buffer, whether it succeeds or fails, and always does
the one or the other. -/
inductive Steady (w : Write α) : Prop
  | writes {b : ByteArray} {a : α} : Writes w b a → Steady w
  | fails {b : ByteArray} {e : WriteFault} : Fails w b e → Steady w

/-- The write appends the same bytes to every buffer, or it fails with the same fault and leaves
every buffer as it is. -/
def AllOrNothing (w : Write Unit) : Prop :=
  (∃ b, ∀ buffer, w buffer = .ok () (buffer ++ b)) ∨ ∃ e, ∀ buffer, w buffer = .error e buffer

def FailsWith (E : WriteFault → Prop) (w : Write α) : Prop := ∀ ⦃b e b'⦄, w b = .error e b' → E e

def output? (w : Write Unit) : Option ByteArray :=
  match w .empty with
  | .ok () b => some b
  | .error _ _ => none

theorem append_left_cancel {a b c : ByteArray} (h : a ++ b = a ++ c) : b = c := by
  apply octets_injective
  have := congrArg octets h
  rw [octets_append, octets_append] at this
  exact List.append_cancel_left this

theorem writes_pure (a : α) : Writes (pure a) .empty a := by
  intro buffer
  rw [ByteArray.append_empty]
  rfl

theorem writes_emit (b : ByteArray) : Writes (emit b) b () := by
  intro buffer
  rfl

theorem Writes.bind {w : Write α} {f : α → Write β} {b d : ByteArray} {a : α} {a' : β}
    (h : Writes w b a) (h' : Writes (f a) d a') : Writes (w >>= f) (b ++ d) a' := by
  intro buffer
  rw [bind_of_ok (h buffer), h' (buffer ++ b), ByteArray.append_assoc]

theorem not_writes_throw (e : WriteFault) (b : ByteArray) (a : α) :
    ¬ Writes (throw e : Write α) b a := by
  intro h
  cases h .empty

theorem Writes.output?_eq {w : Write Unit} {b : ByteArray} (h : Writes w b ()) :
    output? w = some b := by
  rw [output?, h .empty, ByteArray.empty_append]

theorem Writes.unique {w : Write α} {b d : ByteArray} {a a' : α} (h : Writes w b a)
    (h' : Writes w d a') : b = d ∧ a = a' := by
  have := (h .empty).symm.trans (h' .empty)
  rw [ByteArray.empty_append, ByteArray.empty_append] at this
  injection this with ha hb
  exact ⟨hb, ha⟩

theorem uniform_pure (a : α) : Uniform (pure a : Write α) := by
  intro buffer buffer' a' h
  cases h
  exact ⟨.empty, ByteArray.append_empty.symm, writes_pure a⟩

theorem uniform_throw (e : WriteFault) : Uniform (throw e : Write α) := by
  intro buffer buffer' a h
  cases h

theorem uniform_emit (b : ByteArray) : Uniform (emit b) := by
  intro buffer buffer' a h
  cases h
  exact ⟨b, rfl, writes_emit b⟩

theorem Uniform.bind {w : Write α} {f : α → Write β} (h : Uniform w) (h' : ∀ a, Uniform (f a)) :
    Uniform (w >>= f) := by
  intro buffer buffer' a' hr
  obtain ⟨a, m, hw, hf⟩ := bind_eq_ok.mp hr
  obtain ⟨b, rfl, hb⟩ := h hw
  obtain ⟨d, rfl, hd⟩ := h' a hf
  exact ⟨b ++ d, by rw [ByteArray.append_assoc], hb.bind hd⟩

theorem fails_throw (e : WriteFault) : Fails (throw e : Write α) .empty e := by
  intro buffer
  rw [ByteArray.append_empty]
  rfl

theorem Fails.bind {w : Write α} {b : ByteArray} {e : WriteFault} (h : Fails w b e)
    (f : α → Write β) : Fails (w >>= f) b e := fun buffer => bind_of_error (h buffer) f

theorem Writes.bind_fails {w : Write α} {f : α → Write β} {b d : ByteArray} {a : α}
    {e : WriteFault} (h : Writes w b a) (h' : Fails (f a) d e) : Fails (w >>= f) (b ++ d) e := by
  intro buffer
  rw [bind_of_ok (h buffer), h' (buffer ++ b), ByteArray.append_assoc]

theorem Steady.bind {w : Write α} {f : α → Write β} (h : Steady w) (h' : ∀ a, Steady (f a)) :
    Steady (w >>= f) := by
  cases h with
  | fails hw => exact .fails (hw.bind f)
  | @writes b a hw =>
    cases h' a with
    | writes hf => exact .writes (hw.bind hf)
    | fails hf => exact .fails (hw.bind_fails hf)

theorem Writes.of_bind {w : Write α} {f : α → Write β} {b : ByteArray} {a' : β}
    (h : Writes (w >>= f) b a') (hw : Uniform w) (hf : ∀ a, Uniform (f a)) :
    ∃ a d e, Writes w d a ∧ Writes (f a) e a' ∧ b = d ++ e := by
  obtain ⟨a, m, h₁, h₂⟩ := bind_eq_ok.mp (h .empty)
  obtain ⟨d, rfl, hd⟩ := hw h₁
  obtain ⟨e, he, he'⟩ := hf a h₂
  rw [ByteArray.append_assoc] at he
  exact ⟨a, d, e, hd, he', append_left_cancel he⟩

theorem Writes.of_emit {b d : ByteArray} (h : Writes (emit b) d ()) : d = b :=
  (h.unique (writes_emit b)).1

theorem Writes.of_emit_bind {b e : ByteArray} {f : Unit → Write α} {a : α}
    (h : Writes (emit b >>= f) e a) (hf : Uniform (f ())) :
    ∃ d, Writes (f ()) d a ∧ e = b ++ d := by
  obtain ⟨_, d, e, hd, he, rfl⟩ := h.of_bind (uniform_emit b) fun _ => hf
  rw [hd.of_emit]
  exact ⟨e, he, rfl⟩

theorem Writes.of_bytes {b d : ByteArray} (h : Writes (bytes b) d ()) :
    b.size ≤ Wire.maxLength ∧ d = Wire.bytes b := by
  rw [bytes] at h
  split at h
  · exact absurd h (not_writes_throw _ _ _)
  · next hb => exact ⟨Nat.le_of_not_lt hb, h.of_emit⟩

theorem writes_bytes {b : ByteArray} (h : b.size ≤ Wire.maxLength) :
    Writes (bytes b) (Wire.bytes b) () := by
  rw [bytes, if_neg (Nat.not_lt.mpr h)]
  exact writes_emit _

theorem FailsWith.bind {E : WriteFault → Prop} {w : Write α} {f : α → Write β}
    (h : FailsWith E w) (h' : ∀ a, FailsWith E (f a)) : FailsWith E (w >>= f) := by
  intro b e b' hr
  cases hm : w b with
  | ok a m =>
    rw [bind_of_ok hm] at hr
    exact h' a hr
  | error e' m =>
    rw [bind_of_error hm] at hr
    cases hr
    exact h hm

theorem FailsWith.appending {E : WriteFault → Prop} {w : Write Unit} (h : FailsWith E w) :
    FailsWith E (appending w) := by
  intro b e b' hr
  rw [Write.appending] at hr
  split at hr
  · cases hr
  · next he =>
    cases hr
    exact h he

theorem uniform_appending {w : Write Unit} (h : Uniform w) : Uniform (appending w) := by
  intro buffer buffer' a hr
  rw [appending] at hr
  split at hr
  · next hw =>
    cases hr
    obtain ⟨b, rfl, hb⟩ := h hw
    refine ⟨b, rfl, fun other => ?_⟩
    rw [appending, hb other]
  · cases hr

theorem writes_appending {w : Write Unit} {b : ByteArray} :
    Writes (appending w) b () ↔ Writes w b () := by
  constructor
  · intro h buffer
    have := h buffer
    rw [appending] at this
    split at this
    · next hw =>
      cases this
      exact hw
    · cases this
  · intro h buffer
    rw [appending, h buffer]

theorem Fails.appending {w : Write Unit} {b : ByteArray} {e : WriteFault} (h : Fails w b e)
    (buffer : ByteArray) : appending w buffer = .error e buffer := by
  rw [Write.appending, h buffer]
  dsimp only
  congr 1
  apply octets_injective
  rw [octets_extract, octets_append, List.drop_zero, ← length_octets, List.take_left]

theorem Steady.appending {w : Write Unit} (h : Steady w) : AllOrNothing (appending w) := by
  cases h with
  | writes hw => exact .inl ⟨_, writes_appending.mpr hw⟩
  | fails hw => exact .inr ⟨_, hw.appending⟩

end Write

end TypeLang
