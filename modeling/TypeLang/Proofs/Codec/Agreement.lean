import TypeLang.Proofs.Codec.Ahead
import TypeLang.Proofs.Codec.Appending
import TypeLang.Proofs.Codec.Crash
import TypeLang.Proofs.Codec.Limits

namespace TypeLang

open Read Write

namespace Codec

/-- Encoding with the id appends the id and then what encoding without it appends, or both fail with
the same fault, which may be a crash. -/
def EncodesAlike (c : Codec) (key : Key) (id : UInt32) (fields : Fields) : Prop :=
  (∃ b, ∀ buffer, c.encodeBare key fields buffer = .ok () (buffer ++ b) ∧
      c.encode key fields buffer = .ok () (buffer ++ (Wire.word32 id ++ b))) ∨
    ∃ fault, ∀ buffer, c.encodeBare key fields buffer = .error fault buffer ∧
      c.encode key fields buffer = .error fault buffer

theorem encodesAlike_of_plan? {c : Codec} {key : Key} {p : Plan} (hp : c.plan? key = some p)
    (fields : Fields) : c.EncodesAlike key p.id fields := by
  have plan : c.planToWrite key = pure p := by rw [planToWrite, hp]
  have bare : c.encodeBare key fields = appending (writeBody p (c.pending fields)) := by
    rw [encodeBare, plan]
    rfl
  have boxed : c.encode key fields =
      appending (emit (Wire.word32 p.id) >>= fun _ => writeBody p (c.pending fields)) := by
    rw [encode, plan]
    rfl
  rw [EncodesAlike, bare, boxed]
  cases c.steady_writeBody p fields with
  | @writes b a hb =>
    left
    refine ⟨b, fun buffer => ⟨writes_appending.mpr hb buffer, ?_⟩⟩
    exact writes_appending.mpr ((writes_emit _).bind hb) buffer
  | @fails b fault hb =>
    right
    refine ⟨fault, fun buffer => ⟨hb.appending buffer, ?_⟩⟩
    exact ((writes_emit _).bind_fails hb).appending buffer

section

variable {c : Codec} {key : Key} {id : UInt32} {p : Plan} {d : Cursor} {t : List UInt8}

theorem readAny_object (hd : d.left = octets (Wire.word32 id) ++ t)
    (free : id ∉ [Id.vector, Id.boolTrue, Id.boolFalse, Id.gzipPacked])
    (hp : c.plan? (.id id) = some p) (n : Nat) :
    c.readAny (n + 1) d =
      (readBody (c.readAs n) p >>= fun o => pure o.toValue) (d.move 4 []) := by
  simp only [List.mem_cons, List.not_mem_nil, or_false, not_or] at free
  obtain ⟨vector, true, false, packed⟩ := free
  have packed : c.isPacked id = .false := by simp [isPacked, packed]
  rw [readAny_succ, bind_of_ok (takes_word32 id d t hd), readBehind_eq vector true false packed, hp]
  rfl

theorem readAny_eq_readBody (hd : d.left = octets (Wire.word32 id) ++ t)
    (free : id ∉ [Id.vector, Id.boolTrue, Id.boolFalse, Id.gzipPacked])
    (hp : c.plan? (.id id) = some p) {n : Nat} (shallow : ¬ TooDeep (c.readAny n) d) :
    c.readAny n d = (readBody (c.readAs n) p >>= fun o => pure o.toValue) (d.move 4 []) := by
  cases n with
  | zero => exact absurd ⟨_, rfl⟩ shallow
  | succ n =>
    have eq := readAny_object hd free hp n
    rw [TooDeep, answer, outcome, eq, ← outcome, ← answer] at shallow
    have deeper := refines_object (c.refines_readAs (Nat.le_succ n)) p
    rw [eq, deeper.eq_of_not_tooDeep shallow]

theorem decodeAs_eq_rewinding (hp : c.plan? key = some p) :
    c.decodeAs key = rewinding (word32 >>= fun id =>
      if id = p.id then readBody (c.readAs c.config.maxDepth) p
      else throw (.unexpectedConstructor p.name id)) := by
  rw [decodeAs, planToRead, hp]
  rfl

theorem decodeBare_eq_decodeBody (hp : c.plan? key = some p) : c.decodeBare key = c.decodeBody p := by
  rw [decodeBare, planToRead, hp]
  rfl

theorem readObject_eq_readBody (hd : d.left = octets (Wire.word32 p.id) ++ t) (r : Read Object) :
    (word32 >>= fun id => if id = p.id then r else throw (.unexpectedConstructor p.name id)) d =
      r (d.move 4 []) := by
  rw [bind_of_ok (takes_word32 p.id d t hd), if_pos rfl]
  rfl

theorem decodeAny_eq_decodeAs (hd : d.left = octets (Wire.word32 p.id) ++ t)
    (free : p.id ∉ [Id.vector, Id.boolTrue, Id.boolFalse, Id.gzipPacked])
    (hi : c.plan? (.id p.id) = some p) (hp : c.plan? key = some p)
    (shallow : ¬ TooDeep c.decodeAny d) :
    c.decodeAny d = (Object.toValue <$> c.decodeAs key : Read Value) d := by
  rw [decodeAny, TooDeep, answer_rewinding] at shallow
  rw [decodeAs_eq_rewinding hp, map_rewinding, decodeAny]
  apply rewinding_congr
  rw [readAny_eq_readBody hd free hi shallow]
  exact (bind_eq_bind (readObject_eq_readBody hd _) _).symm

theorem outcome_decodeBody (hd : d.left = octets (Wire.word32 p.id) ++ t) {m : Cursor}
    (hm : m.left = t) (hp : c.plan? key = some p) :
    outcome (c.decodeBody p) m = outcome (c.decodeAs key) d := by
  have ahead := (readLaw_ahead c).body (c.ahead_readAs c.config.maxDepth) (mem_of_plan? hp)
  rw [decodeAs_eq_rewinding hp, decodeBody, outcome_rewinding, outcome_rewinding]
  refine (ahead (hm.trans (Cursor.left_move_of_eq hd []).symm)).trans ?_
  rw [outcome, outcome, readObject_eq_readBody hd]
  rfl

end

/-- The ways into a codec agree on each entry, by whichever key it is found. With the id and bare,
the same is written behind the id. Where the id stands, decoding any value is decoding an object
of the entry, unless there are too few levels for it; and what is decoded there, bytes left or
fault, is what is decoded bare from the bytes behind the id. The fault may be a crash, just if a
plan looks up a flags word that it does not have, for which an entry needs two flags words of one
name. -/
theorem entry_points_agree {s : Schema} {config : Config} {unpack : ByteArray → Option ByteArray}
    {c : Codec} {e : Entry} (hc : ofSchema s config unpack = .ok c) (he : e ∈ s.entries)
    (free : e.id ∉ [Id.vector, Id.boolTrue, Id.boolFalse, Id.gzipPacked]) :
    (∃ p, c.plan? (.id e.id) = some p ∧ p.OfEntry s e ∧ ∀ key, c.plan? key = some p →
      (∀ fields, c.EncodesAlike key e.id fields) ∧
      ∀ ⦃d m : Cursor⦄ ⦃t : List UInt8⦄, d.left = octets (Wire.word32 e.id) ++ t → m.left = t →
        (¬ TooDeep c.decodeAny d →
          c.decodeAny d = (Object.toValue <$> c.decodeAs key : Read Value) d) ∧
        outcome (c.decodeBare key) m = outcome (c.decodeAs key) d ∧
        outcome (c.decodeBody p) m = outcome (c.decodeAs key) d) ∧
      (c.Crashless ↔ c.Complete) ∧
      ((∀ e ∈ s.entries, ((e.arguments.filter (·.type = .flags)).map (·.name)).Nodup) →
        c.Complete) := by
  refine ⟨?_, crashless_iff_complete hc, (ofSchema_eq_ok hc).complete⟩
  obtain ⟨p, hi, ofEntry⟩ := exists_plan?_id hc he
  refine ⟨p, hi, ofEntry, fun key hp => ?_⟩
  rw [← ofEntry.id] at free hi ⊢
  refine ⟨encodesAlike_of_plan? hp, fun d m t hd hm => ?_⟩
  rw [decodeBare_eq_decodeBody hp]
  exact ⟨decodeAny_eq_decodeAs hd free hi hp, outcome_decodeBody hd hm hp,
    outcome_decodeBody hd hm hp⟩

theorem entry_points_agree_point : ∃ o b p,
    pointCodec.encode (.id 1) o.fields .empty = .ok () (Wire.word32 1 ++ b) ∧
      pointCodec.encodeBare (.id 1) o.fields .empty = .ok () b ∧
      Wire.word32 1 ++ b = bareBytes ∧ pointCodec.plan? (.id 1) = some p ∧
      pointCodec.decodeAs (.id 1) (.ofBytes bareBytes) = .ok o ⟨bareBytes, 16, []⟩ ∧
      pointCodec.decodeAny (.ofBytes bareBytes) = .ok o.toValue ⟨bareBytes, 16, []⟩ ∧
      outcome (pointCodec.decodeBare (.id 1)) (.ofBytes b) = .ok (o, []) ∧
      outcome (pointCodec.decodeBody p) (.ofBytes b) = .ok (o, []) ∧ pointCodec.Crashless := by
  obtain ⟨⟨p, hi, -, agree⟩, crashless, complete⟩ := entry_points_agree (e := point)
    ofSchema_point List.mem_cons_self (by decide)
  obtain ⟨written, read⟩ := agree (.id 1) hi
  let o : Object := ⟨"point", [("seen", .bool true), ("tags", .vector [])]⟩
  let b : ByteArray := ⟨#[2, 0, 0, 0, 0x15, 0xc4, 0xb5, 0x1c, 0, 0, 0, 0]⟩
  have bare : pointCodec.encodeBare (.id 1) o.fields .empty = .ok () b := by rfl
  have boxed : pointCodec.encode (.id 1) o.fields .empty = .ok () (Wire.word32 1 ++ b) := by
    rcases written o.fields with ⟨b', alike⟩ | ⟨fault, alike⟩
    · obtain ⟨bare', boxed⟩ := alike .empty
      rw [ByteArray.empty_append] at bare' boxed
      cases bare.symm.trans bare'
      exact boxed
    · cases bare.symm.trans (alike .empty).1
  have ahead : (Cursor.ofBytes bareBytes).left = octets (Wire.word32 1) ++ octets b := by
    rw [Cursor.left_ofBytes, ← octets_append]
    rfl
  obtain ⟨any, bodies⟩ := read ahead (Cursor.left_ofBytes b)
  have as : pointCodec.decodeAs (.id 1) (.ofBytes bareBytes) = .ok o ⟨bareBytes, 16, []⟩ := by rfl
  have shallow : answer pointCodec.decodeAny (.ofBytes bareBytes) = .ok o.toValue := by rfl
  have whole : outcome (pointCodec.decodeAs (.id 1)) (.ofBytes bareBytes) = .ok (o, []) := by
    rw [outcome_of_ok as]
    rfl
  refine ⟨o, b, p, boxed, bare, rfl, hi, as, ?_, bodies.1.trans whole, bodies.2.trans whole,
    crashless.mpr (complete (by decide))⟩
  rw [any (not_tooDeep_of_answer shallow), map_eq_pure_bind]
  exact bind_of_ok as _

/-- With two flags words of one name, encoding the field that hangs on them crashes both ways, and
so does decoding it, although neither bit is set. -/
theorem entry_points_crash_twice :
    twiceCodec.encode (.id 1) [("x", .int 7)] .empty = .error (.crash 1 1) .empty ∧
      twiceCodec.encodeBare (.id 1) [("x", .int 7)] .empty = .error (.crash 1 1) .empty ∧
      answer twiceCodec.decodeAny (.ofBytes twiceBytes) = .error (.crash 1 1) ∧
      answer (twiceCodec.decodeAs (.id 1)) (.ofBytes twiceBytes) = .error (.crash 1 1) ∧
      answer (twiceCodec.decodeBare (.id 1)) (.ofBytes (twiceBytes.extract 4 12)) =
        .error (.crash 1 1) := ⟨rfl, rfl, rfl, rfl, rfl⟩

end Codec

end TypeLang
