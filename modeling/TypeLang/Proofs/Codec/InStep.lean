import TypeLang.Proofs.Codec.Body

namespace TypeLang

open Read Write

/-- Where a field is on, every field with bytes that hangs on the same bit is given. -/
def Plan.InStep (p : Plan) (given : String → Option Value) : Prop :=
  ∀ f ∈ p.fields, f.isOn given → ∀ f' ∈ p.fields, ∀ layout g, f.gate? = some g →
    f'.role = .value layout (some g) → f'.isOn given

theorem Plan.inStep_iff {p : Plan} {given : String → Option Value}
    (slots : Slotted p.flagsWords 0 p.fields) :
    p.InStep given ↔ ∀ f ∈ p.fields, ∀ layout g, f.role = .value layout (some g) →
      (f.isOn given ↔ g.isOpen (p.words given)) := by
  simp only [isOpen_words slots]
  constructor
  · intro inStep f hf layout g hr
    constructor
    · intro on
      exact ⟨f, hf, by rw [FieldPlan.gate?, hr], on⟩
    · rintro ⟨f', hf', hg, on⟩
      exact inStep f' hf' on f hf layout g hg hr
  · intro agree f hf on f' hf' layout g hg hr
    exact (agree f' hf' layout g hr).mpr ⟨f, hf, hg, on⟩

theorem Plan.InStep.isOn_eq {p : Plan} {given : String → Option Value} (inStep : p.InStep given)
    (slots : Slotted p.flagsWords 0 p.fields) {f : FieldPlan} (hf : f ∈ p.fields)
    (accepts : f.Accepts given) {layout : Layout} {gate : Option Gate}
    (hr : f.role = .value layout gate) :
    f.isOn given = gate.all (·.isOpen (p.words given)) := by
  cases gate with
  | none =>
    rw [FieldPlan.isOn_value hr]
    cases hv : given f.name with
    | none => simp [FieldPlan.Accepts, hr, hv] at accepts
    | some v => rfl
  | some g =>
    have := (p.inStep_iff slots).mp inStep f hf layout g hr
    rwa [← Bool.eq_iff_iff] at this

namespace Codec

theorem isSome_payload? {entry : String} {given : Dict Pending} {f : FieldPlan}
    (hw : f.Writable entry given) {layout : Layout} {gate : Option Gate}
    (hr : f.role = .value layout gate) :
    (f.payload? entry given).isSome = f.isOn fun name => (given.get? name).map (·.value) := by
  rw [FieldPlan.isOn_value hr, FieldPlan.payload?, hr]
  cases hv : given.get? f.name with
  | none => rfl
  | some v =>
    obtain ⟨d, hd⟩ := hw layout gate v hr hv
    simp [hd.output?_eq]

/-- Whenever an entry is encoded, a bit is set if and only if some field that hangs on it is on,
and the payloads agree with the bits if and only if the given fields are in step; then a reader
that takes each payload takes the body. -/
theorem encode_inStep {s : Schema} {config : Config} {unpack : ByteArray → Option ByteArray}
    {c : Codec} (hc : ofSchema s config unpack = .ok c)
    (flags : ∀ e ∈ s.entries, ((e.arguments.filter (·.type = .flags)).map (·.name)).Nodup)
    {bare : Bool} {key : Key} {fields : Fields} {buffer buffer' : ByteArray}
    (h : (if bare then c.encodeBare key fields else c.encode key fields) buffer =
      .ok () buffer') :
    ∃ p words payload, c.plan? key = some p ∧
      words = p.words (Dict.get? fields) ∧
      payload = FieldPlan.payload? p.name (c.pending fields) ∧
      buffer' = buffer ++
        ((if bare then .empty else Wire.word32 p.id) ++ chunks words payload p.fields) ∧
      (∀ g : Gate, g.isSet? words = some true ↔
        ∃ f ∈ p.fields, f.gate? = some g ∧ f.isOn (Dict.get? fields)) ∧
      ((∀ f ∈ p.fields, ∀ layout g, f.role = .value layout (some g) →
          ((payload f).isSome ↔ g.isSet? words = some true)) ↔ p.InStep (Dict.get? fields)) ∧
      (p.InStep (Dict.get? fields) → ∀ (read : Layout → Read Value) (value : FieldPlan → Value),
        (∀ f ∈ p.fields, ∀ layout gate d, f.role = .value layout gate → payload f = some d →
          Takes (read layout) (octets d) (value f) []) →
        Takes (readBody read p) (octets (chunks words payload p.fields))
          ⟨p.name, backs words (fun f => (payload f).map fun _ => value f) p.fields⟩ []) := by
  obtain ⟨p, body, hp, hb, rfl⟩ := writes_of_encode h
  obtain ⟨accepts, -, writable, rfl⟩ := (writes_writeBody (c.uniform_pending fields) p body).mp hb
  rw [get?_pending_value] at accepts ⊢
  have slots := (ofSchema_eq_ok hc).slotted flags (mem_of_plan? hp)
  have isSome : ∀ f ∈ p.fields, ∀ layout gate, f.role = .value layout gate →
      (FieldPlan.payload? p.name (c.pending fields) f).isSome = f.isOn (Dict.get? fields) := by
    intro f hf layout gate hr
    rw [isSome_payload? (writable f hf) hr, get?_pending_value]
  simp only [← Gate.isOpen_iff]
  refine ⟨p, _, _, hp, rfl, rfl, rfl, p.isOpen_words slots _, ?_, ?_⟩
  · rw [p.inStep_iff slots]
    refine forall₂_congr fun f hf => forall₃_congr fun layout g hr => ?_
    rw [isSome f hf layout (some g) hr]
  · intro inStep read value takes
    refine takes_readBody slots (p.length_words _) ?_ ?_
    · intro f hf layout gate hr hset
      rw [← inStep.isOn_eq slots hf (accepts f hf) hr, ← isSome f hf layout gate hr] at hset
      obtain ⟨d, hd⟩ := Option.isSome_iff_exists.mp hset
      exact ⟨d, value f, hd, by rw [hd, Option.map_some], takes f hf layout gate d hr hd⟩
    · intro f hf layout gate hr hset
      rw [← inStep.isOn_eq slots hf (accepts f hf) hr, ← isSome f hf layout gate hr] at hset
      have hd := Option.not_isSome_iff_eq_none.mp (Bool.eq_false_iff.mp hset)
      exact ⟨hd, by rw [hd, Option.map_none]⟩

theorem encode_inStep_point : ∃ fields buffer p words payload,
    pointCodec.encode (.name "point") fields .empty = .ok () buffer ∧
      pointCodec.plan? (.name "point") = some p ∧
      buffer = .empty ++ (Wire.word32 p.id ++ chunks words payload p.fields) ∧
      ((∀ f ∈ p.fields, ∀ layout g, f.role = .value layout (some g) →
        ((payload f).isSome ↔ g.isSet? words = some true)) ↔ p.InStep (Dict.get? fields)) := by
  let fields : Fields := [("tags", .vector []), ("x", .int 7), ("y", .int 8)]
  have h : (if false then pointCodec.encodeBare (.name "point") fields
      else pointCodec.encode (.name "point") fields) .empty = .ok () _ := rfl
  obtain ⟨p, words, payload, hp, -, -, hb, -, agree, -⟩ :=
    encode_inStep ofSchema_point (by decide) h
  exact ⟨fields, _, p, words, payload, h, hp, hb, agree⟩

/-- With one alone of two fields that share a bit, the bit is set, but the other field has no bytes,
and what was written cannot be read. -/
theorem encode_outOfStep_point : ∃ fields b p f g,
    pointCodec.encode (.name "point") fields .empty = .ok () b ∧
      pointCodec.plan? (.name "point") = some p ∧
      f ∈ p.fields ∧ f.role = .value .int (some g) ∧
      g.isSet? (p.words (Dict.get? fields)) = some true ∧
      f.payload? p.name (pointCodec.pending fields) = none ∧
      pointCodec.decodeAny (.ofBytes b) =
        .error (.unexpectedConstructor "Vector" 0) (.ofBytes b) := by
  refine ⟨[("tags", .vector []), ("x", .int 7)], _, pointPlan,
    ⟨"y", .int, .value .int (some ⟨0, 0⟩)⟩, ⟨0, 0⟩, rfl, rfl, ?_, rfl, ?_, rfl, rfl⟩
  · decide
  · decide

end Codec

end TypeLang
