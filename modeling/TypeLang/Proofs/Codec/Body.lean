import TypeLang.Codec.Decode
import TypeLang.Proofs.Codec.Flags
import TypeLang.Proofs.Codec.Writers
import TypeLang.Proofs.Read.Primitive

namespace TypeLang

open Read Write

namespace FieldPlan

def payload? (entry : String) (given : Dict Codec.Pending) (f : FieldPlan) : Option ByteArray :=
  match f.role with
  | .value layout _ => (given.get? f.name).bind fun v => output? (v.write layout ⟨entry, f⟩)
  | _ => none

def Writable (entry : String) (given : Dict Codec.Pending) (f : FieldPlan) : Prop :=
  ∀ layout gate v, f.role = .value layout gate → given.get? f.name = some v →
    ∃ d, Writes (v.write layout ⟨entry, f⟩) d ()

def chunk (words : Words) (payload : FieldPlan → Option ByteArray) (f : FieldPlan) : ByteArray :=
  match f.role with
  | .flags slot => Wire.word32 (words[slot]?.getD 0)
  | .presence _ => .empty
  | .value _ _ => (payload f).getD .empty

def back? (words : Words) (value : FieldPlan → Option Value) (f : FieldPlan) : Option Value :=
  match f.role with
  | .flags _ => none
  | .presence gate => some (.bool (gate.all (·.isOpen words)))
  | .value _ _ => value f

end FieldPlan

def chunks (words : Words) (payload : FieldPlan → Option ByteArray) : List FieldPlan → ByteArray
  | [] => .empty
  | f :: rest => f.chunk words payload ++ chunks words payload rest

def backs (words : Words) (value : FieldPlan → Option Value) (fields : List FieldPlan) : Fields :=
  Dict.ofList (fields.filterMap fun f => (f.back? words value).map (f.name, ·))

namespace Codec

section

variable {given : Dict Pending}
  (uniform : ∀ kv ∈ given, ∀ layout site, Uniform (kv.2.write layout site))

include uniform

theorem writes_writeFields (entry : String) (words : Words) (fields : List FieldPlan)
    (b : ByteArray) : Writes (writeFields entry given words fields) b () ↔
      (∀ f ∈ fields, ∀ slot, f.role = .flags slot → slot < words.length) ∧
        (∀ f ∈ fields, f.Writable entry given) ∧
        b = chunks words (FieldPlan.payload? entry given) fields := by
  induction fields generalizing b with
  | nil =>
    constructor
    · intro h
      exact ⟨by simp, by simp, (h.unique (writes_pure ())).1⟩
    · rintro ⟨-, -, rfl⟩
      exact writes_pure ()
  | cons f rest ih =>
    have hrest := uniform_writeFields uniform entry words rest
    rw [writeFields, List.forall_mem_cons, List.forall_mem_cons, chunks, FieldPlan.chunk]
    cases hr : f.role with
    | flags slot =>
      have hf : f.Writable entry given := by simp [FieldPlan.Writable, hr]
      rcases Nat.lt_or_ge slot words.length with hs | hs
      · have filled : ∀ slot', Role.flags slot = .flags slot' → slot' < words.length := by
          rintro _ ⟨⟩
          exact hs
        dsimp only
        rw [writeWord_of_lt hs, List.getElem?_eq_getElem hs, Option.getD_some,
          and_iff_right filled, and_iff_right hf]
        constructor
        · intro h
          obtain ⟨d, hd, rfl⟩ := h.of_emit_bind hrest
          obtain ⟨filled, hw, rfl⟩ := (ih d).mp hd
          exact ⟨filled, hw, rfl⟩
        · rintro ⟨filled, hw, rfl⟩
          exact (writes_emit _).bind ((ih _).mpr ⟨filled, hw, rfl⟩)
      · dsimp only
        rw [writeWord_of_le hs]
        constructor
        · intro h
          exact absurd h (not_writes_throw _ _ _)
        · rintro ⟨⟨filled, -⟩, -⟩
          exact absurd (filled slot rfl) (Nat.not_lt.mpr hs)
    | presence gate =>
      have hf : f.Writable entry given := by simp [FieldPlan.Writable, hr]
      have filled : ∀ slot, Role.presence gate = .flags slot → slot < words.length := by simp
      simp only [ByteArray.empty_append]
      rw [ih b, and_iff_right hf, and_iff_right filled]
    | value layout gate =>
      have filled : ∀ slot, Role.value layout gate = .flags slot → slot < words.length := by simp
      rw [and_iff_right filled]
      cases hv : given.get? f.name with
      | none =>
        have hf : f.Writable entry given := by simp [FieldPlan.Writable, hv]
        simp only [FieldPlan.payload?, hr, hv, Option.bind_none, Option.getD_none,
          ByteArray.empty_append]
        rw [ih b, and_iff_right hf]
      | some v =>
        simp only [FieldPlan.payload?, hr, hv, Option.bind_some]
        constructor
        · intro h
          obtain ⟨_, d, e, hd, he, rfl⟩ :=
            h.of_bind (uniform _ (Dict.mem_of_get? hv) _ _) fun _ => hrest
          obtain ⟨filled, hw, rfl⟩ := (ih e).mp he
          refine ⟨filled, ⟨?_, hw⟩, by rw [hd.output?_eq]; rfl⟩
          intro layout' gate' v' hr' hv'
          cases hr.symm.trans hr'
          cases hv.symm.trans hv'
          exact ⟨d, hd⟩
        · rintro ⟨filled, ⟨hf, hw⟩, rfl⟩
          obtain ⟨d, hd⟩ := hf layout gate v hr hv
          rw [hd.output?_eq]
          exact hd.bind ((ih _).mpr ⟨filled, hw, rfl⟩)

/-- A body is written if every field is accepted, finds its flags word, and its value can be
written; then its bytes are those of its fields, in order. -/
theorem writes_writeBody (p : Plan) (b : ByteArray) :
    Writes (writeBody p given) b () ↔
      (∀ f ∈ p.fields, f.Accepts fun name => (given.get? name).map (·.value)) ∧
        (∀ f ∈ p.fields, f.Finds (fun name => (given.get? name).map (·.value)) p.flagsWords) ∧
        (∀ f ∈ p.fields, f.Writable p.name given) ∧
        b = chunks (p.words fun name => (given.get? name).map (·.value))
          (FieldPlan.payload? p.name given) p.fields := by
  have hfields := uniform_writeFields uniform p.name
  have length := p.length_words fun name => (given.get? name).map (·.value)
  constructor
  · intro h
    obtain ⟨words, d, e, hd, he, rfl⟩ := h.of_bind (uniform_liftExcept _) fun words => hfields _ _
    cases hf : flagsWords p.name (fun name => (given.get? name).map (·.value)) p.fields
        (List.replicate p.flagsWords 0) with
    | error fault =>
      rw [hf] at hd
      exact absurd hd (not_writes_throw _ _ _)
    | ok words' =>
      rw [hf] at hd
      obtain ⟨rfl, rfl⟩ := hd.unique (writes_pure words')
      obtain ⟨accepts, marked, rfl⟩ := (flagsWords_eq_ok _ _ _ _ _).mp hf
      obtain ⟨filled, writable, rfl⟩ := (writes_writeFields uniform p.name _ p.fields e).mp he
      rw [List.length_replicate] at marked
      rw [← Plan.words, length] at filled
      exact ⟨accepts, fun f hf => ⟨filled f hf, marked f hf⟩, writable, ByteArray.empty_append⟩
  · rintro ⟨accepts, finds, writable, rfl⟩
    have hf := (flagsWords_eq_ok p.name _ p.fields (List.replicate p.flagsWords 0) _).mpr
      ⟨accepts, fun f hf => by
        rw [List.length_replicate]
        exact (finds f hf).marked, rfl⟩
    rw [writeBody, hf, ← ByteArray.empty_append (b := chunks _ _ _)]
    refine (writes_pure _).bind ((writes_writeFields uniform _ _ _ _).mpr
      ⟨fun f hf => ?_, writable, rfl⟩)
    rw [← Plan.words, length]
    exact (finds f hf).filled

end

theorem all_isOpen_congr {seen words : Words} {n : Nat} (left : ∀ i < n, seen[i]? = words[i]?)
    {gate : Option Gate} (h : ∀ g ∈ gate, g.slot < n) :
    gate.all (·.isOpen seen) = gate.all (·.isOpen words) := by
  cases gate with
  | none => rfl
  | some g => simp [Gate.isOpen_congr (left g.slot (h g rfl))]

theorem readGate_of_left {seen words : Words} {n : Nat} (left : ∀ i < n, seen[i]? = words[i]?)
    (le : n ≤ seen.length) {gate : Option Gate} (h : ∀ g ∈ gate, g.slot < n) :
    readGate seen gate = pure (gate.all (·.isOpen words)) := by
  rw [readGate_of_lt fun g hg => Nat.lt_of_lt_of_le (h g hg) le, all_isOpen_congr left h]

/-- The reader takes the bytes of a body, if just those fields have bytes that have no bit or one
that is set. Of the flags words, `seen` has those that stand to the left. -/
theorem takes_readFields {read : Layout → Read Value} {words : Words}
    {payload : FieldPlan → Option ByteArray} {value : FieldPlan → Option Value} {n : Nat}
    {fields : List FieldPlan} (slots : Slotted words.length n fields)
    (on : ∀ f ∈ fields, ∀ layout gate, f.role = .value layout gate → gate.all (·.isOpen words) →
      ∃ d v, payload f = some d ∧ value f = some v ∧ Takes (read layout) (octets d) v [])
    (off : ∀ f ∈ fields, ∀ layout gate, f.role = .value layout gate →
      gate.all (·.isOpen words) = false → payload f = none ∧ value f = none)
    {seen : Words} (length : seen.length = words.length) (left : ∀ i < n, seen[i]? = words[i]?)
    (got : Fields) :
    Takes (readFields read fields seen got) (octets (chunks words payload fields))
      ((fields.filterMap fun f => (f.back? words value).map (f.name, ·)).foldl
        (fun d kv => Dict.insert kv.1 kv.2 d) got) [] := by
  -- a gate looks only at words to the left, so `seen` decides it as `words` does
  induction slots generalizing seen got with
  | nil => exact takes_pure got
  | @flags n f rest hr hs ih =>
    have hn : n < words.length := hs.le
    rw [readFields, chunks, FieldPlan.chunk, octets_append, List.filterMap_cons, FieldPlan.back?]
    simp only [hr, Option.map_none, List.getElem?_eq_getElem hn, Option.getD_some]
    refine (takes_word32 words[n]).bind (u := []) ?_
    rw [fillWord_of_lt (by omega), pure_bind]
    refine ih (fun f' hf' => on f' (List.mem_cons_of_mem f hf'))
      (fun f' hf' => off f' (List.mem_cons_of_mem f hf')) (by rw [List.length_set, length]) ?_ got
    intro i hi
    by_cases he : n = i
    · subst he
      rw [List.getElem?_set_self (by omega), List.getElem?_eq_getElem hn]
    · rw [List.getElem?_set_ne he]
      exact left i (by omega)
  | @presence n f rest gate hr hg hs ih =>
    rw [readFields, chunks, FieldPlan.chunk, List.filterMap_cons, FieldPlan.back?]
    simp only [hr, Option.map_some, ByteArray.empty_append, List.foldl_cons]
    rw [readGate_of_left left (length ▸ hs.le) fun g hgate => (hg g hgate).1, pure_bind]
    exact ih (fun f' hf' => on f' (List.mem_cons_of_mem f hf'))
      (fun f' hf' => off f' (List.mem_cons_of_mem f hf')) length left _
  | @value n f rest layout gate hr hg hs ih =>
    have hrest := fun got => ih (fun f' hf' => on f' (List.mem_cons_of_mem f hf'))
      (fun f' hf' => off f' (List.mem_cons_of_mem f hf')) length left got
    rw [readFields, chunks, FieldPlan.chunk, octets_append, List.filterMap_cons, FieldPlan.back?]
    simp only [hr]
    rw [readGate_of_left left (length ▸ hs.le) fun g hgate => (hg g hgate).1, pure_bind]
    cases hset : gate.all (·.isOpen words) with
    | true =>
      obtain ⟨d, v, hd, hv, ht⟩ := on f List.mem_cons_self layout gate hr hset
      simp only [if_true, hd, hv, Option.getD_some, Option.map_some, List.foldl_cons]
      exact ht.bind (hrest _)
    | false =>
      obtain ⟨hd, hv⟩ := off f List.mem_cons_self layout gate hr hset
      simp only [Bool.false_eq_true, if_false, hd, hv, Option.getD_none, Option.map_none]
      exact hrest got

theorem takes_readBody {read : Layout → Read Value} {p : Plan} {words : Words}
    {payload : FieldPlan → Option ByteArray} {value : FieldPlan → Option Value}
    (slots : Slotted p.flagsWords 0 p.fields) (length : words.length = p.flagsWords)
    (on : ∀ f ∈ p.fields, ∀ layout gate, f.role = .value layout gate → gate.all (·.isOpen words) →
      ∃ d v, payload f = some d ∧ value f = some v ∧ Takes (read layout) (octets d) v [])
    (off : ∀ f ∈ p.fields, ∀ layout gate, f.role = .value layout gate →
      gate.all (·.isOpen words) = false → payload f = none ∧ value f = none) :
    Takes (readBody read p) (octets (chunks words payload p.fields))
      ⟨p.name, backs words value p.fields⟩ [] := by
  rw [← length] at slots
  have zeros : (List.replicate p.flagsWords (0 : UInt32)).length = words.length := by
    rw [List.length_replicate, length]
  have h := takes_readFields slots on off zeros (fun i hi => absurd hi (Nat.not_lt_zero i)) []
  exact h.map fun fields => (⟨p.name, fields⟩ : Object)

end Codec

end TypeLang
