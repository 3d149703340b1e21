import TypeLang.Proofs.Codec.Flags
import TypeLang.Proofs.Write.Writes

namespace TypeLang

namespace Codec

open Write

theorem pending_eq (c : Codec) (fields : Fields) :
    c.pending fields = fields.map fun kv => (kv.1, ⟨kv.2, c.writeAs kv.2⟩) := by
  induction fields with
  | nil => rfl
  | cons kv rest ih => rw [pending, ih, List.map_cons]

theorem get?_pending (c : Codec) (fields : Fields) (key : String) :
    Dict.get? (c.pending fields) key =
      (Dict.get? fields key).map fun v => ⟨v, c.writeAs v⟩ := by
  rw [pending_eq]
  exact Dict.get?_map (fun v => Pending.mk v (c.writeAs v)) fields key

theorem get?_pending_value (c : Codec) (fields : Fields) :
    (fun name => (Dict.get? (c.pending fields) name).map (·.value)) = Dict.get? fields := by
  funext name
  simp [get?_pending, Function.comp_def]

def Refuses (c : Codec) : WriteFault → Prop
  | .crash slot length => ∃ p ∈ c.plans, p.Strays slot length
  | _ => True

theorem flagsWords_eq_crash {entry : String} {given : String → Option Value}
    {fields : List FieldPlan} {words : Words} {slot length : Nat}
    (h : flagsWords entry given fields words = .error (.crash slot length)) :
    length = words.length ∧ length ≤ slot ∧ ∃ f ∈ fields, f.slot? = some slot := by
  induction fields generalizing words with
  | nil => cases h
  | cons f rest ih =>
    have later : ∀ {words' : Words}, words'.length = words.length →
        flagsWords entry given rest words' = .error (.crash slot length) →
        length = words.length ∧ length ≤ slot ∧ ∃ f' ∈ f :: rest, f'.slot? = some slot := by
      intro words' same h'
      obtain ⟨hl, le, f', hf', hs⟩ := ih h'
      exact ⟨hl.trans same, le, f', List.mem_cons_of_mem f hf', hs⟩
    have marked : ∀ {gate : Gate}, f.gate? = some gate →
        (setBit words gate >>= flagsWords entry given rest) = .error (.crash slot length) →
        length = words.length ∧ length ≤ slot ∧ ∃ f' ∈ f :: rest, f'.slot? = some slot := by
      intro gate hg h'
      rcases Nat.lt_or_ge gate.slot words.length with hs | hs
      · rw [setBit_of_lt hs] at h'
        exact later (gate.length_mark words) h'
      · rw [setBit_of_le hs] at h'
        cases h'
        exact ⟨rfl, hs, f, List.mem_cons_self, FieldPlan.slot?_eq_some_iff.mpr (.inr ⟨_, hg, rfl⟩)⟩
    unfold flagsWords at h
    split at h
    · next gate hr _ => exact marked (by rw [FieldPlan.gate?, hr]) h
    · exact later rfl h
    · exact later rfl h
    · cases h
    · next gate _ hr _ => exact marked (by rw [FieldPlan.gate?, hr]) h
    · cases h
    · exact later rfl h

/-- A property of writes that the built-in writes have, and failing with certain faults, and that
the parts of writers keep. -/
structure WriteLaw (E : WriteFault → Prop) (P : ∀ {α : Type}, Write α → Prop) : Prop where
  pure {α : Type} (a : α) : P (pure a : Write α)
  throw {α : Type} {e : WriteFault} : E e → P (throw e : Write α)
  plain {e : WriteFault} : ¬ e.IsCrash → E e
  emit (b : ByteArray) : P (Write.emit b)
  bind {α β : Type} {w : Write α} {f : α → Write β} : P w → (∀ a, P (f a)) → P (w >>= f)

namespace WriteLaw

variable {E : WriteFault → Prop} {P : ∀ {α : Type}, Write α → Prop}

section

variable (law : WriteLaw E P)

include law

theorem refusal {α : Type} {e : WriteFault} (h : ¬ e.IsCrash) : P (MonadExcept.throw e : Write α) :=
  law.throw (law.plain h)

theorem bytes (b : ByteArray) : P (Write.bytes b) := by
  rw [Write.bytes]
  split
  · exact law.refusal not_false
  · exact law.emit _

theorem fields {given : Dict Pending} (h : ∀ kv ∈ given, ∀ layout site,
    P (kv.2.write layout site)) (entry : String) {words : Words} {fields : List FieldPlan}
    (covers : ∀ f ∈ fields, ∀ slot, f.role = .flags slot → words.length ≤ slot →
      E (.crash slot words.length)) :
    P (writeFields entry given words fields) := by
  induction fields with
  | nil => exact law.pure ()
  | cons f rest ih =>
    obtain ⟨here, covers⟩ := List.forall_mem_cons.mp covers
    have rest := ih covers
    rw [writeFields]
    split
    · next slot hr =>
      rcases Nat.lt_or_ge slot words.length with hs | hs
      · rw [writeWord_of_lt hs]
        exact law.bind (law.emit _) fun _ => rest
      · rw [writeWord_of_le hs]
        exact law.bind (law.throw (here slot hr hs)) fun _ => rest
    · exact rest
    · split
      · exact rest
      · next v hv => exact law.bind (h _ (Dict.mem_of_get? hv) _ _) fun _ => rest

theorem body {given : Dict Pending} (h : ∀ kv ∈ given, ∀ layout site,
    P (kv.2.write layout site)) {p : Plan}
    (covers : ∀ slot length, p.Strays slot length → E (.crash slot length)) :
    P (writeBody p given) := by
  rw [writeBody]
  cases hw : flagsWords p.name (fun name => (given.get? name).map (·.value)) p.fields
      (List.replicate p.flagsWords 0) with
  | ok words =>
    have length : words.length = p.flagsWords := by
      rw [length_of_flagsWords hw, List.length_replicate]
    have fields : P (writeFields p.name given words p.fields) := by
      refine law.fields h p.name fun f hf slot hr le => ?_
      exact covers _ _ ⟨length, le, f, hf, by rw [FieldPlan.slot?, hr]⟩
    exact fields
  | error e =>
    have refused : E e → P (MonadExcept.throw e : Write Unit) := law.throw
    refine refused ?_
    cases e with
    | crash slot length =>
      obtain ⟨hl, le, strays⟩ := flagsWords_eq_crash hw
      exact covers slot length ⟨by rw [hl, List.length_replicate], le, strays⟩
    | _ => exact law.plain not_false

theorem plan (c : Codec) (key : Key) : P (c.planToWrite key) := by
  unfold planToWrite
  split
  · exact law.pure _
  · exact law.refusal not_false

theorem planned {α : Type} (c : Codec) (key : Key) {f : Plan → Write α}
    (h : ∀ p ∈ c.plans, P (f p)) : P (c.planToWrite key >>= f) := by
  rw [planToWrite]
  cases hp : c.plan? key with
  | none => exact law.refusal not_false
  | some p => exact h p (mem_of_plan? hp)

variable {c : Codec} (covers : ∀ e, c.Refuses e → E e)

include covers

theorem bodyOf {given : Dict Pending} (h : ∀ kv ∈ given, ∀ layout site,
    P (kv.2.write layout site)) {p : Plan} (hp : p ∈ c.plans) : P (writeBody p given) :=
  law.body h fun _ _ strays => covers _ ⟨p, hp, strays⟩

theorem boxed {given : Dict Pending} (h : ∀ kv ∈ given, ∀ layout site,
    P (kv.2.write layout site)) (union : Option String) (name : String) :
    P (c.writeBoxed union name given) := by
  refine law.planned c _ fun p hp => ?_
  split
  · exact law.bind (law.emit _) fun _ => law.bodyOf covers h hp
  · exact law.refusal not_false

end

mutual
theorem value (law : WriteLaw E P) {c : Codec} (covers : ∀ e, c.Refuses e → E e) :
    ∀ (v : Value) (layout : Layout) (site : Site), P (c.writeAs v layout site)
  | v, layout, site => by
    unfold writeAs
    split
    · exact law.emit _
    · exact law.emit _
    · exact law.emit _
    · exact law.emit _
    · exact law.emit _
    · exact law.bytes _
    · exact law.bytes _
    · exact law.bytes _
    · exact law.emit _
    · next vs elem isBoxed =>
      have counted := law.bind (law.emit (Wire.word32 (UInt32.ofNat vs.length))) fun _ =>
        law.items covers vs elem site
      cases isBoxed with
      | true => exact law.bind (law.emit _) fun _ => counted
      | false => exact counted
    · next name fields _ => exact law.boxed covers (law.pending covers fields) _ _
    · next name fields => exact law.boxed covers (law.pending covers fields) _ _
    · next name fields _ =>
      split
      · exact law.refusal not_false
      · next p hp =>
        split
        · exact law.bodyOf covers (law.pending covers fields) (mem_of_plan? hp)
        · exact law.refusal not_false
    · exact law.emit _
    · exact law.refusal not_false
theorem items (law : WriteLaw E P) {c : Codec} (covers : ∀ e, c.Refuses e → E e) :
    ∀ (items : List Value) (layout : Layout) (site : Site), P (c.writeItems items layout site)
  | [], _, _ => law.pure ()
  | v :: rest, layout, site =>
    law.bind (law.value covers v layout site) fun _ => law.items covers rest layout site
theorem pending (law : WriteLaw E P) {c : Codec} (covers : ∀ e, c.Refuses e → E e) :
    ∀ (fields : List (String × Value)), ∀ kv ∈ c.pending fields, ∀ layout site,
      P (kv.2.write layout site)
  | [] => by simp [Codec.pending]
  | (name, v) :: rest => by
    intro kv h
    rcases List.mem_cons.mp h with rfl | h
    · exact law.value covers v
    · exact law.pending covers rest kv h
end

end WriteLaw

theorem writeLaw_uniform : WriteLaw (fun _ => True) Uniform where
  pure a := uniform_pure a
  throw _ := uniform_throw _
  plain _ := trivial
  emit b := uniform_emit b
  bind h h' := h.bind h'

theorem uniform_writeFields {given : Dict Pending} (h : ∀ kv ∈ given, ∀ layout site,
    Uniform (kv.2.write layout site)) (entry : String) (words : Words) (fields : List FieldPlan) :
    Uniform (writeFields entry given words fields) :=
  writeLaw_uniform.fields h entry fun _ _ _ _ _ => trivial

theorem uniform_liftExcept (x : Except WriteFault Words) : Uniform (writeBody.liftExcept x) := by
  cases x with
  | ok words => exact uniform_pure words
  | error e => exact uniform_throw e

theorem uniform_writeBody {given : Dict Pending} (h : ∀ kv ∈ given, ∀ layout site,
    Uniform (kv.2.write layout site)) (p : Plan) : Uniform (writeBody p given) :=
  writeLaw_uniform.body h fun _ _ _ => trivial

theorem uniform_planToWrite (c : Codec) (key : Key) : Uniform (c.planToWrite key) :=
  writeLaw_uniform.plan c key

theorem uniform_writeAs (c : Codec) (v : Value) (layout : Layout) (site : Site) :
    Uniform (c.writeAs v layout site) := writeLaw_uniform.value (fun _ _ => trivial) v layout site

theorem uniform_writeItems (c : Codec) (items : List Value) (layout : Layout) (site : Site) :
    Uniform (c.writeItems items layout site) := 
  writeLaw_uniform.items (fun _ _ => trivial) items layout site

theorem uniform_pending (c : Codec) (fields : List (String × Value)) :
    ∀ kv ∈ c.pending fields, ∀ layout site, Uniform (kv.2.write layout site) :=
  writeLaw_uniform.pending (fun _ _ => trivial) fields

theorem writeAs_vector (c : Codec) (items : List Value) (elem : Layout) (isBoxed : Bool)
    (site : Site) : c.writeAs (.vector items) (.vector elem isBoxed) site =
      (if isBoxed then emit (Wire.word32 Id.vector) else pure ()) >>= fun _ =>
        emit (Wire.word32 (UInt32.ofNat items.length)) >>= fun _ =>
          c.writeItems items elem site := by
  cases isBoxed with
  | true => rfl
  | false => rfl

theorem writes_vector {c : Codec} {items : List Value} {elem : Layout} {isBoxed : Bool}
    {site : Site} {b : ByteArray} :
    Writes (c.writeAs (.vector items) (.vector elem isBoxed) site) b () ↔
      ∃ body, Writes (c.writeItems items elem site) body () ∧
        b = (if isBoxed then Wire.word32 Id.vector else .empty)
          ++ (Wire.word32 (UInt32.ofNat items.length) ++ body) := by
  have mark : Writes (if isBoxed then emit (Wire.word32 Id.vector) else pure ())
      (if isBoxed then Wire.word32 Id.vector else .empty) () := by
    cases isBoxed with
    | true => exact writes_emit _
    | false => exact writes_pure ()
  have marks : Uniform (if isBoxed then emit (Wire.word32 Id.vector) else pure ()) := by
    split
    · exact uniform_emit _
    · exact uniform_pure ()
  have uniform := c.uniform_writeItems items elem site
  rw [writeAs_vector]
  constructor
  · intro h
    obtain ⟨_, d, e, hd, he, rfl⟩ := h.of_bind marks fun _ => (uniform_emit _).bind fun _ => uniform
    obtain ⟨body, hbody, rfl⟩ := he.of_emit_bind uniform
    exact ⟨body, hbody, by rw [(hd.unique mark).1]⟩
  · rintro ⟨body, hbody, rfl⟩
    exact mark.bind ((writes_emit _).bind hbody)

theorem writes_bare {c : Codec} {name : String} {fields : Fields} {target : UInt32} {site : Site}
    {b : ByteArray} : Writes (c.writeAs (.object name fields) (.bare target) site) b () ↔
      ∃ p, c.plan? (.id target) = some p ∧ name = p.name ∧
        Writes (writeBody p (c.pending fields)) b () := by
  rw [writeAs]
  constructor
  · intro h
    split at h
    · exact absurd h (not_writes_throw _ _ _)
    · next p hp =>
      split at h
      · next hn => exact ⟨p, hp, hn, h⟩
      · exact absurd h (not_writes_throw _ _ _)
  · rintro ⟨p, hp, rfl, h⟩
    rw [hp]
    dsimp only
    rwa [if_pos rfl]

theorem writes_planToWrite {c : Codec} {key : Key} {p : Plan} {b : ByteArray}
    (h : Writes (c.planToWrite key) b p) : c.plan? key = some p ∧ b = .empty := by
  rw [planToWrite] at h
  split at h
  · next q hq =>
    obtain ⟨rfl, rfl⟩ := h.unique (writes_pure q)
    exact ⟨hq, rfl⟩
  · exact absurd h (not_writes_throw _ _ _)

theorem writes_of_encode {c : Codec} {bare : Bool} {key : Key} {fields : Fields}
    {buffer buffer' : ByteArray}
    (h : (if bare then c.encodeBare key fields else c.encode key fields) buffer =
      .ok () buffer') :
    ∃ p body, c.plan? key = some p ∧ Writes (writeBody p (c.pending fields)) body () ∧
      buffer' = buffer ++ ((if bare then .empty else Wire.word32 p.id) ++ body) := by
  have uniform := fun p => uniform_writeBody (c.uniform_pending fields) p
  cases bare with
  | true =>
    obtain ⟨b, rfl, hb⟩ := (c.uniform_planToWrite key).bind
      (fun p => uniform_appending (uniform p)) h
    obtain ⟨p, d, e, hd, he, rfl⟩ := hb.of_bind (c.uniform_planToWrite key)
      fun p => uniform_appending (uniform p)
    obtain ⟨hp, rfl⟩ := writes_planToWrite hd
    exact ⟨p, e, hp, writes_appending.mp he, rfl⟩
  | false =>
    have uniform := fun p : Plan => (uniform_emit (Wire.word32 p.id)).bind fun _ => uniform p
    obtain ⟨b, rfl, hb⟩ := (c.uniform_planToWrite key).bind
      (fun p => uniform_appending (uniform p)) h
    obtain ⟨p, d, e, hd, he, rfl⟩ := hb.of_bind (c.uniform_planToWrite key)
      fun p => uniform_appending (uniform p)
    obtain ⟨hp, rfl⟩ := writes_planToWrite hd
    obtain ⟨body, hbody, rfl⟩ := (writes_appending.mp he).of_emit_bind
      (uniform_writeBody (c.uniform_pending fields) p)
    exact ⟨p, body, hp, hbody, by simp⟩

theorem writes_of_writeBoxed {c : Codec} {union : Option String} {name : String}
    {fields : Fields} {b : ByteArray}
    (h : Writes (c.writeBoxed union name (c.pending fields)) b ()) :
    ∃ p body, c.plan? (.name name) = some p ∧ c.admits union p ∧
      Writes (writeBody p (c.pending fields)) body () ∧ b = Wire.word32 p.id ++ body := by
  have uniform := fun p => uniform_writeBody (c.uniform_pending fields) p
  obtain ⟨p, d, e, hd, he, rfl⟩ := h.of_bind (c.uniform_planToWrite _) fun p => by
    split
    · exact (uniform_emit _).bind fun _ => uniform p
    · exact uniform_throw _
  obtain ⟨hp, rfl⟩ := writes_planToWrite hd
  split at he
  · next ha =>
    obtain ⟨body, hb, rfl⟩ := he.of_emit_bind (uniform p)
    exact ⟨p, body, hp, ha, hb, ByteArray.empty_append⟩
  · exact absurd he (not_writes_throw _ _ _)

theorem writes_writeBoxed {c : Codec} {union : Option String} {name : String} {p : Plan}
    {given : Dict Pending} {body : ByteArray} (hp : c.plan? (.name name) = some p)
    (ha : c.admits union p) (hb : Writes (writeBody p given) body ()) :
    Writes (c.writeBoxed union name given) (Wire.word32 p.id ++ body) () := by
  rw [writeBoxed, planToWrite, hp, ← ByteArray.empty_append (b := _ ++ body)]
  refine (writes_pure p).bind ?_
  rw [if_pos ha]
  exact (writes_emit _).bind hb

theorem writes_of_encodeObject {c : Codec} {o : Object} {buffer b : ByteArray}
    (h : c.encodeObject o buffer = .ok () (buffer ++ b)) :
    Writes (c.writeBoxed none o.name (c.pending o.fields)) b () := by
  have h : (if false then c.encodeBare (.name o.name) o.fields
      else c.encode (.name o.name) o.fields) buffer = .ok () (buffer ++ b) := h
  obtain ⟨p, body, hp, hb, heq⟩ := writes_of_encode h
  rw [append_left_cancel heq]
  exact writes_writeBoxed hp (by simp [admits]) hb

theorem writes_encodeObject {c : Codec} {o : Object} {b : ByteArray}
    (h : Writes (c.writeBoxed none o.name (c.pending o.fields)) b ()) :
    Writes (c.encodeObject o) b () := by
  obtain ⟨p, body, hp, -, hb, rfl⟩ := writes_of_writeBoxed h
  rw [encodeObject, encode, planToWrite, hp, ← ByteArray.empty_append (b := _ ++ body)]
  exact (writes_pure p).bind (writes_appending.mpr ((writes_emit _).bind hb))

end Codec

end TypeLang
