import TypeLang.Proofs.Codec.Compiled
import TypeLang.Proofs.Codec.Writers

/-!
Encoding appends or does nothing. An id, flags words and other fields may stand in the buffer
already when a field fails, at any depth; since writers do nothing but append, what was there
before is a prefix of what is there then, and cutting the buffer to its old size gives it back.
-/

namespace TypeLang.Codec

open Write

theorem writeLaw_steady : WriteLaw (fun _ => True) Steady where
  pure a := .writes (writes_pure a)
  throw _ := .fails (fails_throw _)
  plain _ := trivial
  emit b := .writes (writes_emit b)
  bind h h' := h.bind h'

theorem steady_writeBody (c : Codec) (p : Plan) (fields : Fields) :
    Steady (writeBody p (c.pending fields)) :=
  writeLaw_steady.body (writeLaw_steady.pending (fun _ _ => trivial) fields) fun _ _ _ => trivial

theorem encode_eq_writer (c : Codec) (key : Key) (fields : Fields) :
    c.encode key fields = c.planToWrite key >>= fun p => c.writer p false fields := rfl

theorem encodeBare_eq_writer (c : Codec) (key : Key) (fields : Fields) :
    c.encodeBare key fields = c.planToWrite key >>= fun p => c.writer p true fields := rfl

theorem allOrNothing_writer (c : Codec) (p : Plan) (bare : Bool) (fields : Fields) :
    AllOrNothing (c.writer p bare fields) := by
  have body := c.steady_writeBody p fields
  apply Steady.appending
  cases bare with
  | true => exact (writeLaw_steady.pure ()).bind fun _ => body
  | false => exact (writeLaw_steady.emit _).bind fun _ => body

theorem allOrNothing_planToWrite (c : Codec) (key : Key) {f : Plan → Write Unit}
    (h : ∀ p, AllOrNothing (f p)) : AllOrNothing (c.planToWrite key >>= f) := by
  rw [planToWrite]
  cases c.plan? key with
  | none => exact .inr ⟨_, fun _ => rfl⟩
  | some p => exact h p

/-- Every way to encode appends, to whatever buffer, the same bytes; or else it fails, on whatever
buffer, with the same fault, and the buffer is what it was. -/
theorem encode_allOrNothing (c : Codec) :
    (∀ key fields, AllOrNothing (c.encode key fields)) ∧
      (∀ key fields, AllOrNothing (c.encodeBare key fields)) ∧
      (∀ o, AllOrNothing (c.encodeObject o)) ∧
      ∀ p bare fields, AllOrNothing (c.writer p bare fields) := by
  have encode : ∀ key fields, AllOrNothing (c.encode key fields) := by
    intro key fields
    rw [encode_eq_writer]
    exact c.allOrNothing_planToWrite key fun p => c.allOrNothing_writer p false fields
  refine ⟨encode, ?_, fun o => encode (.name o.name) o.fields, c.allOrNothing_writer⟩
  intro key fields
  rw [encodeBare_eq_writer]
  exact c.allOrNothing_planToWrite key fun p => c.allOrNothing_writer p true fields

/-- The flags word, the id of the vector, its count and the first tag have been written when the
second tag fails. -/
example : pointCodec.encode (.name "point") [("tags", .vector [.bytes ⟨#[1]⟩, .int 2])] ⟨#[7]⟩ =
    .error (.typeMismatch "point" "tags" "Vector<bytes>" "int") ⟨#[7]⟩ := by rfl

end TypeLang.Codec
