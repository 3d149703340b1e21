import TypeLang.Proofs.Codec.Crash
import TypeLang.Proofs.Codec.Levels
import TypeLang.Proofs.Codec.WellFormed
import TypeLang.Proofs.Schema.Guards

/-!
Nothing is looked up that is not there. The checked readers and writers go the way of the others,
but wherever a flags word, a bit of it, or the plan or the width of a bare constructor is out of
range they fail with a fault of their own. With well-formed plans this fault does not come up,
whichever it is.
-/

namespace TypeLang

open Decl

def FieldPlan.inRange (n : Nat) (f : FieldPlan) : Bool :=
  match f.role with
  | .flags slot => slot < n
  | .presence gate | .value _ gate => gate.all fun g => g.slot < n && g.bit < 32

namespace Codec

def inRange (c : Codec) : Layout → Bool
  | .bare target => (c.plan? (.id target)).isSome
  | .vector (.bare target) _ => (c.widths.lookup target).isSome
  | _ => true

/-! Reading, level by level -/

section

variable (stray : ReadFault)

def checkedFields (read : Layout → Read Value) : List FieldPlan → Words → Fields → Read Fields
  | [], _, fields => return fields
  | f :: rest, words, fields =>
    if f.inRange words.length then
      match f.role with
      | .flags slot => do
        let word ← Read.word32
        checkedFields read rest (words.set slot word) fields
      | .presence gate =>
        let isThere := gate.all (·.isOpen words)
        checkedFields read rest words (Dict.insert f.name (.bool isThere) fields)
      | .value layout gate =>
        if gate.all (·.isOpen words) then do
          let v ← read layout
          checkedFields read rest words (Dict.insert f.name v fields)
        else checkedFields read rest words fields
    else throw stray

def checkedBody (read : Layout → Read Value) (p : Plan) : Read Object := do
  return ⟨p.name, ← checkedFields stray read p.fields (List.replicate p.flagsWords 0) []⟩

variable (c : Codec)

def checkedBoxed (union : Option String) (read : Layout → Read Value) (readPacked : Read Value) :
    Read Value := do
  let id ← Read.word32
  if c.isPacked id then readPacked
  else match c.plan? (.id id) with
    | none => throw (.unknownConstructor id)
    | some p =>
      if c.admits union p then return (← checkedBody stray read p).toValue
      else throw (.unexpectedConstructor (union.getD "") id)

def checkedAny (r : Readers) : Read Value := do
  let id ← Read.word32
  if id = Id.vector then CountGuard.vector c.countFault? 4 r.any
  else if id = Id.boolTrue then return .bool true
  else if id = Id.boolFalse then return .bool false
  else if c.isPacked id then r.packedAny
  else match c.plan? (.id id) with
    | none => throw (.unknownConstructor id)
    | some p => return (← checkedBody stray r.as p).toValue

def checkedAs (r : Readers) (layout : Layout) : Read Value :=
  if c.inRange layout then
    match layout with
    | .boxed union => checkedBoxed stray c union r.as (r.packedBoxed union)
    | .bare target =>
      match c.plan? (.id target) with
      | none => throw stray
      | some p => do return (← checkedBody stray r.as p).toValue
    | layout => c.nextAs c.countFault? r layout
  else throw stray

def checkedNext (r : Readers) : Readers where
  any := checkedAny stray c r
  as := checkedAs stray c r
  packedAny := c.readUnpacked r.any
  packedAs layout := c.readUnpacked (r.as layout)
  packedBoxed union := c.readUnpacked (checkedBoxed stray c union r.as (r.packedBoxed union))

def checkedReaders : (n : Nat) → Readers
  | 0 => c.readers 0
  | n + 1 => checkedNext stray c (checkedReaders n)

def checkedDecodeAny : Read Value := (checkedReaders stray c c.config.maxDepth).decodeAny

def checkedDecodeAs (key : Key) : Read Object := do
  let p ← c.planToRead key
  Read.rewinding do
    let id ← Read.word32
    if id = p.id then checkedBody stray (checkedReaders stray c c.config.maxDepth).as p
    else throw (.unexpectedConstructor p.name id)

def checkedDecodeBare (key : Key) : Read Object := do
  let p ← c.planToRead key
  Read.rewinding (checkedBody stray (checkedReaders stray c c.config.maxDepth).as p)

def checkedDecodeResult (method : String) : Read Value :=
  (checkedReaders stray c c.config.maxDepth).decodeResult c method

end

/-! Writing, field by field -/

section

variable (stray : WriteFault)

def checkedWords (entry : String) (given : String → Option Value) :
    List FieldPlan → Words → Except WriteFault Words
  | [], words => .ok words
  | f :: rest, words =>
    if f.inRange words.length then
      flagsWords entry given [f] words >>= checkedWords entry given rest
    else .error stray

def checkedWriteFields (entry : String) (given : Dict Pending) (words : Words) :
    List FieldPlan → Write Unit
  | [] => return ()
  | f :: rest =>
    if f.inRange words.length then do
      match f.role with
      | .flags slot => Write.emit (Wire.word32 (words[slot]?.getD 0))
      | .presence _ => pure ()
      | .value layout _ =>
        match given.get? f.name with
        | none => pure ()
        | some v => v.write layout ⟨entry, f⟩
      checkedWriteFields entry given words rest
    else throw stray

def checkedWriteBody (p : Plan) (given : Dict Pending) : Write Unit := do
  let words ← writeBody.liftExcept
    (checkedWords stray p.name (fun name => (given.get? name).map (·.value)) p.fields
      (List.replicate p.flagsWords 0))
  checkedWriteFields stray p.name given words p.fields

variable (c : Codec)

def checkedWriteBoxed (union : Option String) (name : String) (given : Dict Pending) :
    Write Unit := do
  let p ← c.planToWrite (.name name)
  if c.admits union p then
    Write.emit (Wire.word32 p.id)
    checkedWriteBody stray p given
  else throw (.unexpectedConstructor (union.getD "") p.id)

mutual
def checkedWriteAs : Value → Layout → Site → Write Unit
  | .vector items, .vector elem isBoxed, site => do
    if isBoxed then Write.emit (Wire.word32 Id.vector)
    Write.emit (Wire.word32 (UInt32.ofNat items.length))
    checkedWriteItems items elem site
  | .object name fields, .boxed union, _ =>
    checkedWriteBoxed stray c union name (checkedPending fields)
  | .object name fields, .generic, _ =>
    checkedWriteBoxed stray c none name (checkedPending fields)
  | .object name fields, .bare target, site =>
    match c.plan? (.id target) with
    | none => throw stray
    | some p =>
      if name = p.name then checkedWriteBody stray p (checkedPending fields)
      else throw (site.mismatch (.object name fields))
  | v, layout, site => c.writeAs v layout site
def checkedWriteItems : List Value → Layout → Site → Write Unit
  | [], _, _ => return ()
  | v :: rest, layout, site => do
    checkedWriteAs v layout site
    checkedWriteItems rest layout site
def checkedPending : List (String × Value) → List (String × Pending)
  | [] => []
  | (name, v) :: rest => (name, ⟨v, checkedWriteAs v⟩) :: checkedPending rest
end

def checkedEncode (key : Key) (fields : Fields) : Write Unit := do
  let p ← c.planToWrite key
  Write.appending do
    Write.emit (Wire.word32 p.id)
    checkedWriteBody stray p (checkedPending stray c fields)

def checkedEncodeBare (key : Key) (fields : Fields) : Write Unit := do
  let p ← c.planToWrite key
  Write.appending (checkedWriteBody stray p (checkedPending stray c fields))

end

/-- Whether the plan and the width of each bare constructor in the layout, at any depth, are
there. -/
def Holds (c : Codec) : Layout → Prop
  | .bare target => (c.plan? (.id target)).isSome ∧ (c.widths.lookup target).isSome
  | .vector elem _ => c.Holds elem
  | _ => True

theorem Holds.inRange {c : Codec} {layout : Layout} (h : c.Holds layout) :
    c.inRange layout = true := by
  cases layout with
  | bare target => exact h.1
  | vector elem isBoxed =>
    cases elem with
    | bare target => exact h.2
    | _ => rfl
  | _ => rfl

structure Tight (c : Codec) (p : Plan) : Prop where
  fields : ∀ f ∈ p.fields, f.inRange p.flagsWords = true
  layouts : ∀ f ∈ p.fields, ∀ layout gate, f.role = .value layout gate → c.Holds layout
  result : ∀ layout, p.result = some layout → c.Holds layout

section

variable {stray : ReadFault} {c : Codec}

theorem slots_lt {gate : Option Gate} {n : Nat}
    (h : gate.all (fun g => g.slot < n && g.bit < 32) = true) : ∀ g ∈ gate, g.slot < n := by
  rintro g rfl
  simp only [Option.all_some, Bool.and_eq_true, decide_eq_true_eq] at h
  exact h.1

theorem checkedFields_eq {read read' : Layout → Read Value} {fields : List FieldPlan}
    {words : Words} (given : Fields) (inRange : ∀ f ∈ fields, f.inRange words.length = true)
    (agree : ∀ f ∈ fields, ∀ layout gate, f.role = .value layout gate → read layout = read' layout) :
    checkedFields stray read fields words given = readFields read' fields words given := by
  induction fields generalizing words given with
  | nil => rfl
  | cons f rest ih =>
    obtain ⟨here, inRange⟩ := List.forall_mem_cons.mp inRange
    obtain ⟨same, agree⟩ := List.forall_mem_cons.mp agree
    rw [checkedFields, readFields, if_pos here]
    rw [FieldPlan.inRange] at here
    cases hr : f.role with
    | flags slot =>
      rw [hr] at here
      dsimp only
      congr 1
      funext word
      rw [fillWord_of_lt (of_decide_eq_true here), pure_bind]
      exact ih given (by simpa using inRange) agree
    | presence gate =>
      rw [hr] at here
      dsimp only
      rw [readGate_of_lt (slots_lt here), pure_bind]
      exact ih _ inRange agree
    | value layout gate =>
      rw [hr] at here
      dsimp only
      rw [readGate_of_lt (slots_lt here), pure_bind]
      split
      · rw [same layout gate hr]
        congr 1
        funext v
        exact ih _ inRange agree
      · exact ih given inRange agree

theorem checkedBody_eq {read read' : Layout → Read Value} {p : Plan} (tight : c.Tight p)
    (agree : ∀ layout, c.Holds layout → read layout = read' layout) :
    checkedBody stray read p = readBody read' p := by
  rw [checkedBody, readBody, checkedFields_eq []]
  · simpa using tight.fields
  · exact fun f hf layout gate hr => agree layout (tight.layouts f hf layout gate hr)

structure Agree (c : Codec) (r r' : Readers) : Prop where
  any : r.any = r'.any
  as : ∀ layout, c.Holds layout → r.as layout = r'.as layout
  packedAny : r.packedAny = r'.packedAny
  packedAs : ∀ layout, c.Holds layout → r.packedAs layout = r'.packedAs layout
  packedBoxed : ∀ union, r.packedBoxed union = r'.packedBoxed union

variable (tight : ∀ p ∈ c.plans, c.Tight p)

include tight

theorem checkedBoxed_eq {read read' : Layout → Read Value} {packed packed' : Read Value}
    (union : Option String) (agree : ∀ layout, c.Holds layout → read layout = read' layout)
    (same : packed = packed') :
    checkedBoxed stray c union read packed = c.readBoxed union read' packed' := by
  rw [checkedBoxed, readBoxed, same]
  congr 1
  funext id
  split
  · rfl
  · cases hp : c.plan? (.id id) with
    | none => rfl
    | some p =>
      dsimp only
      rw [checkedBody_eq (tight p (mem_of_plan? hp)) agree]

theorem checkedAny_eq {r r' : Readers} (agree : c.Agree r r') :
    checkedAny stray c r = c.nextAny c.countFault? r' := by
  rw [checkedAny, nextAny, agree.any, agree.packedAny]
  congr 1
  funext id
  cases hp : c.plan? (.id id) with
  | none => rfl
  | some p =>
    dsimp only
    rw [checkedBody_eq (tight p (mem_of_plan? hp)) agree.as]

theorem checkedAs_eq {r r' : Readers} (agree : c.Agree r r') {layout : Layout}
    (holds : c.Holds layout) : checkedAs stray c r layout = c.nextAs c.countFault? r' layout := by
  unfold checkedAs
  rw [if_pos holds.inRange]
  cases layout with
  | boxed union => exact checkedBoxed_eq tight union agree.as (agree.packedBoxed union)
  | bare target =>
    obtain ⟨p, hp⟩ := Option.isSome_iff_exists.mp holds.1
    rw [nextAs_bare]
    dsimp only
    rw [hp]
    dsimp only
    rw [checkedBody_eq (tight p (mem_of_plan? hp)) agree.as]
  | vector elem isBoxed =>
    have elems : r.as elem = r'.as elem := agree.as elem holds
    dsimp only
    cases isBoxed with
    | false => rw [nextAs_vector, nextAs_vector, elems]
    | true =>
      rw [nextAs_boxedVector, nextAs_boxedVector, elems, agree.packedAs (.vector elem true) holds]
  | generic => exact agree.any
  | _ => rfl

theorem agree_checkedNext {r r' : Readers} (agree : c.Agree r r') :
    c.Agree (checkedNext stray c r) (c.next c.countFault? r') where
  any := checkedAny_eq tight agree
  as _ holds := checkedAs_eq tight agree holds
  packedAny := by rw [checkedNext, next, agree.any]
  packedAs layout holds := by
    rw [checkedNext, next]
    dsimp only
    rw [agree.as layout holds]
  packedBoxed union := by
    rw [checkedNext, next]
    dsimp only
    rw [checkedBoxed_eq tight union agree.as (agree.packedBoxed union)]

theorem agree_checkedReaders (n : Nat) : c.Agree (checkedReaders stray c n) (c.readers n) := by
  rw [← guardedReaders_countFault?]
  induction n with
  | zero =>
    rw [guardedReaders_countFault?]
    exact ⟨rfl, fun _ _ => rfl, rfl, fun _ _ => rfl, fun _ => rfl⟩
  | succ n ih => exact agree_checkedNext tight ih

theorem checkedDecodeAny_eq : checkedDecodeAny stray c = c.decodeAny := by
  rw [checkedDecodeAny, Readers.decodeAny, (agree_checkedReaders tight _).any]
  rfl

theorem checkedDecodeAs_eq (key : Key) : checkedDecodeAs stray c key = c.decodeAs key := by
  rw [checkedDecodeAs, decodeAs, planToRead]
  cases hp : c.plan? key with
  | none => rfl
  | some p =>
    rw [pure_bind, pure_bind,
      checkedBody_eq (tight p (mem_of_plan? hp)) (agree_checkedReaders tight _).as]
    rfl

theorem checkedDecodeBare_eq (key : Key) : checkedDecodeBare stray c key = c.decodeBare key := by
  rw [checkedDecodeBare, decodeBare, planToRead]
  cases hp : c.plan? key with
  | none => rfl
  | some p =>
    rw [pure_bind, pure_bind,
      checkedBody_eq (tight p (mem_of_plan? hp)) (agree_checkedReaders tight _).as]
    rfl

theorem checkedDecodeResult_eq (method : String) :
    checkedDecodeResult stray c method = c.decodeResult method := by
  rw [checkedDecodeResult, Readers.decodeResult, decodeResult, planToRead]
  cases hp : c.plan? (.name method) with
  | none => rfl
  | some p =>
    rw [pure_bind, pure_bind]
    cases hr : p.result with
    | none => rfl
    | some layout =>
      have holds := (tight p (mem_of_plan? hp)).result layout hr
      dsimp only
      rw [(agree_checkedReaders tight _).as layout holds]
      rfl

end

section

variable {stray : WriteFault} {c : Codec}

theorem flagsWords_eq_bind (entry : String) (given : String → Option Value) (f : FieldPlan)
    (rest : List FieldPlan) (words : Words) : flagsWords entry given (f :: rest) words =
      flagsWords entry given [f] words >>= flagsWords entry given rest := by
  have marked (g : Gate) : (setBit words g >>= flagsWords entry given rest) =
      setBit words g >>= flagsWords entry given [] >>= flagsWords entry given rest := by
    cases setBit words g with
    | error e => rfl
    | ok words' => rfl
  rw [flagsWords, flagsWords]
  split
  · exact marked _
  · rfl
  · rfl
  · rfl
  · exact marked _
  · rfl
  · rfl

theorem checkedWords_eq {entry : String} {given : String → Option Value} {fields : List FieldPlan}
    {words : Words} (inRange : ∀ f ∈ fields, f.inRange words.length = true) :
    checkedWords stray entry given fields words = flagsWords entry given fields words := by
  induction fields generalizing words with
  | nil => rfl
  | cons f rest ih =>
    obtain ⟨here, inRange⟩ := List.forall_mem_cons.mp inRange
    rw [checkedWords, if_pos here, flagsWords_eq_bind entry given f rest]
    cases hw : flagsWords entry given [f] words with
    | error e => rfl
    | ok words' => exact ih (by rwa [length_of_flagsWords hw])

theorem get?_checkedPending (fields : Fields) (key : String) :
    Dict.get? (checkedPending stray c fields) key =
      (Dict.get? fields key).map fun v => ⟨v, checkedWriteAs stray c v⟩ := by
  have eq : checkedPending stray c fields =
      fields.map fun kv => (kv.1, ⟨kv.2, checkedWriteAs stray c kv.2⟩) := by
    induction fields with
    | nil => rfl
    | cons kv rest ih => rw [checkedPending, ih, List.map_cons]
  rw [eq]
  exact Dict.get?_map (fun v => Pending.mk v (checkedWriteAs stray c v)) fields key

def WritesSame (stray : WriteFault) (c : Codec) (v : Value) : Prop :=
  ∀ layout site, c.Holds layout → checkedWriteAs stray c v layout site = c.writeAs v layout site

theorem checkedWriteFields_eq {entry : String} {fields : Fields} {words : Words}
    (inner : ∀ kv ∈ fields, WritesSame stray c kv.2) {plans : List FieldPlan}
    (inRange : ∀ f ∈ plans, f.inRange words.length = true)
    (holds : ∀ f ∈ plans, ∀ layout gate, f.role = .value layout gate → c.Holds layout) :
    checkedWriteFields stray entry (checkedPending stray c fields) words plans =
      writeFields entry (c.pending fields) words plans := by
  induction plans with
  | nil => rfl
  | cons f rest ih =>
    obtain ⟨here, inRange⟩ := List.forall_mem_cons.mp inRange
    obtain ⟨laid, holds⟩ := List.forall_mem_cons.mp holds
    rw [checkedWriteFields, if_pos here, writeFields, get?_checkedPending, get?_pending]
    cases hr : f.role with
    | flags slot =>
      rw [FieldPlan.inRange, hr] at here
      have lt := of_decide_eq_true here
      dsimp only
      rw [ih inRange holds, writeWord_of_lt lt, List.getElem?_eq_getElem lt]
      rfl
    | presence gate => exact ih inRange holds
    | value layout gate =>
      cases hv : Dict.get? fields f.name with
      | none => exact ih inRange holds
      | some v =>
        dsimp only [Option.map_some]
        rw [inner _ (Dict.mem_of_get? hv) layout _ (laid layout gate hr), ih inRange holds]

theorem checkedWriteBody_eq {p : Plan} (tight : c.Tight p) {fields : Fields}
    (inner : ∀ kv ∈ fields, WritesSame stray c kv.2) :
    checkedWriteBody stray p (checkedPending stray c fields) =
      writeBody p (c.pending fields) := by
  have values : (fun name => (Dict.get? (checkedPending stray c fields) name).map (·.value)) =
      fun name => (Dict.get? (c.pending fields) name).map (·.value) := by
    funext name
    rw [get?_checkedPending, get?_pending, Option.map_map, Option.map_map]
    rfl
  rw [checkedWriteBody, writeBody, values, checkedWords_eq (by simpa using tight.fields)]
  cases hw : flagsWords p.name (fun name => (Dict.get? (c.pending fields) name).map (·.value))
      p.fields (List.replicate p.flagsWords 0) with
  | error e => rfl
  | ok words =>
    have length := length_of_flagsWords hw
    rw [List.length_replicate] at length
    exact checkedWriteFields_eq inner (length ▸ tight.fields) tight.layouts

variable (tight : ∀ p ∈ c.plans, c.Tight p)

include tight

theorem checkedWriteBoxed_eq (union : Option String) (name : String) {fields : Fields}
    (inner : ∀ kv ∈ fields, WritesSame stray c kv.2) :
    checkedWriteBoxed stray c union name (checkedPending stray c fields) =
      c.writeBoxed union name (c.pending fields) := by
  rw [checkedWriteBoxed, writeBoxed, planToWrite]
  cases hp : c.plan? (.name name) with
  | none => rfl
  | some p =>
    rw [pure_bind, pure_bind, checkedWriteBody_eq (tight p (mem_of_plan? hp)) inner]

omit tight in
theorem checkedWriteItems_eq {items : List Value} (inner : ∀ v ∈ items, WritesSame stray c v)
    {layout : Layout} (holds : c.Holds layout) (site : Site) :
    checkedWriteItems stray c items layout site = c.writeItems items layout site := by
  induction items with
  | nil => rfl
  | cons v rest ih =>
    obtain ⟨here, rest⟩ := List.forall_mem_cons.mp inner
    rw [checkedWriteItems, writeItems, here layout site holds, ih rest]

theorem writesSame (v : Value) : WritesSame stray c v := by
  refine v.forall_of_children fun v inner layout site holds => ?_
  unfold checkedWriteAs
  split
  · next items elem isBoxed =>
    have elems : c.Holds elem := holds
    have same : checkedWriteItems stray c items elem site = c.writeItems items elem site :=
      checkedWriteItems_eq inner elems site
    rw [writeAs_vector, same]
    cases isBoxed with
    | true => rfl
    | false => rfl
  · next name fields union =>
    rw [writeAs, checkedWriteBoxed_eq tight union name (List.forall_mem_map.mp inner)]
  · next name fields =>
    rw [writeAs, checkedWriteBoxed_eq tight none name (List.forall_mem_map.mp inner)]
  · next name fields target =>
    obtain ⟨p, hp⟩ := Option.isSome_iff_exists.mp holds.1
    rw [writeAs, hp]
    dsimp only
    rw [checkedWriteBody_eq (tight p (mem_of_plan? hp)) (List.forall_mem_map.mp inner)]
  · rfl

theorem checkedEncode_eq (key : Key) (fields : Fields) :
    checkedEncode stray c key fields = c.encode key fields := by
  rw [checkedEncode, encode, planToWrite]
  cases hp : c.plan? key with
  | none => rfl
  | some p =>
    rw [pure_bind, pure_bind, checkedWriteBody_eq (tight p (mem_of_plan? hp))
      fun kv _ => writesSame tight kv.2]

theorem checkedEncodeBare_eq (key : Key) (fields : Fields) :
    checkedEncodeBare stray c key fields = c.encodeBare key fields := by
  rw [checkedEncodeBare, encodeBare, planToWrite]
  cases hp : c.plan? key with
  | none => rfl
  | some p =>
    rw [pure_bind, pure_bind, checkedWriteBody_eq (tight p (mem_of_plan? hp))
      fun kv _ => writesSame tight kv.2]

end

end Codec

/-! What is there with well-formed plans -/

namespace Widths

theorem isSome_lookup_ofPlans {plans : List Plan} {p : Plan} (h : p ∈ plans) :
    ((ofPlans plans).lookup p.id).isSome = true := by
  have keys : (ofPlans plans).map (·.1) = plans.map (·.id) := by
    rw [ofPlans, keys_settle, List.map_map]
    rfl
  have mem : p.id ∈ (ofPlans plans).map (·.1) := by
    rw [keys]
    exact List.mem_map_of_mem h
  obtain ⟨kv, hkv, hid⟩ := List.mem_map.mp mem
  exact List.lookup_isSome_iff.mpr ⟨kv, hkv, by simp [hid]⟩

end Widths

namespace Plan

section

variable {s : Schema} {c : Codec}

theorem GateOf.inRange {left rest : List Argument} {guard : Option FlagBit} {gate : Option Gate}
    (h : GateOf left guard gate) :
    gate.all (fun g => g.slot < flagsIn (left ++ rest) && g.bit < 32) = true := by
  cases h with
  | none => rfl
  | @some front back b g hleft hb _ hbit =>
    subst hleft
    have earlier := flagsIn_lt hb front (back ++ rest)
    rw [← List.cons_append, ← List.append_assoc] at earlier
    simp only [Option.all_some, Bool.and_eq_true, decide_eq_true_eq]
    exact ⟨earlier, hbit⟩

theorem RoleOf.inRange {left rest : List Argument} {a : Argument} {f : FieldPlan}
    (h : RoleOf s c left a f.role) : f.inRange (flagsIn (left ++ a :: rest)) = true := by
  rw [FieldPlan.inRange]
  generalize f.role = role at h
  cases h with
  | flags ha => exact decide_eq_true (flagsIn_lt ha left rest)
  | presence _ hg => exact hg.inRange
  | value _ _ hg => exact hg.inRange

variable (widths : ∀ p ∈ c.plans, (c.widths.lookup p.id).isSome = true)

include widths

theorem Laid.holds {ty : Ty} {l : Layout} (h : Laid s ty l) (bare : BareWithin s c ty l) :
    c.Holds l := by
  induction h with
  | bare _ =>
    obtain ⟨k, e, p, -, -, -, -, hp, -, -⟩ := bare
    refine ⟨by rw [hp]; rfl, ?_⟩
    rw [← Codec.id_of_plan? hp]
    exact widths p (Codec.mem_of_plan? hp)
  | vector _ _ ih => exact ih bare
  | int | long | int128 | int256 | double | string | bytes | bool | boxed | generic => trivial

theorem WellFormed.tight {e : Entry} {p : Plan} (h : WellFormed s c e p) : c.Tight p := by
  have field : ∀ f ∈ p.fields, ∃ left a rest, e.arguments = left ++ a :: rest ∧
      RoleOf s c left a f.role := by
    intro f hf
    obtain ⟨i, hi, rfl⟩ := List.mem_iff_getElem.mp hf
    have hlt : i < e.arguments.length := h.length ▸ hi
    refine ⟨_, e.arguments[i], e.arguments.drop (i + 1), ?_,
      (h.field (List.getElem?_eq_getElem hlt) (List.getElem?_eq_getElem hi)).role⟩
    rw [← List.drop_eq_getElem_cons hlt, List.take_append_drop]
  refine ⟨fun f hf => ?_, fun f hf layout gate hr => ?_, fun layout hr => ?_⟩
  · obtain ⟨left, a, rest, harguments, role⟩ := field f hf
    rw [h.flagsWords, harguments]
    exact role.inRange
  · obtain ⟨left, a, rest, -, role⟩ := field f hf
    rw [hr] at role
    cases role with
    | value laid bare _ => exact laid.holds widths bare
  · have result := h.result
    rw [hr] at result
    cases result with
    | method _ laid bare => exact laid.holds widths bare

end

end Plan

namespace Codec

section

variable {s : Schema} {config : Config} {unpack : ByteArray → Option ByteArray} {c : Codec}

theorem tight_of_wellFormed (compiled : OfSchema s config unpack c)
    (plans : List.Forall₂ (Plan.WellFormed s c) s.entries c.plans) : ∀ p ∈ c.plans, c.Tight p := by
  intro p hp
  obtain ⟨e, -, h⟩ := exists_left_of_forall₂ plans hp
  refine h.tight fun q hq => ?_
  rw [compiled.widths]
  exact Widths.isSome_lookup_ofPlans hq

/-- The plans of a codec are those of the entries, one for each and in order, and well-formed,
unless two flags words of an entry share a name. So reading and writing never look up a flags
word, a bit, a plan or a width that is not there: it would make no difference which fault came of
it. -/
theorem plans_wellFormed
    (distinct : ∀ e ∈ s.entries, ((e.arguments.filter (·.type = .flags)).map (·.name)).Nodup)
    (hc : ofSchema s config unpack = .ok c) :
    List.Forall₂ (Plan.WellFormed s c) s.entries c.plans ∧
      (∀ stray, checkedDecodeAny stray c = c.decodeAny ∧
        (∀ key, checkedDecodeAs stray c key = c.decodeAs key) ∧
        (∀ key, checkedDecodeBare stray c key = c.decodeBare key) ∧
        ∀ method, checkedDecodeResult stray c method = c.decodeResult method) ∧
      ∀ stray key fields, checkedEncode stray c key fields = c.encode key fields ∧
        checkedEncodeBare stray c key fields = c.encodeBare key fields := by
  have plans := forall₂_wellFormed distinct hc
  have tight := tight_of_wellFormed (ofSchema_eq_ok hc) plans
  refine ⟨plans, fun stray => ⟨?_, ?_, ?_, ?_⟩, fun stray key fields => ⟨?_, ?_⟩⟩
  · exact checkedDecodeAny_eq tight
  · exact checkedDecodeAs_eq tight
  · exact checkedDecodeBare_eq tight
  · exact checkedDecodeResult_eq tight
  · exact checkedEncode_eq tight key fields
  · exact checkedEncodeBare_eq tight key fields

end

/-- `hedge#3 a:# b:# x:b.3?vector<%Leaf> y:a.31?true = Hedge` -/
def hedge : Entry where
  kind := .constructor
  name := "hedge"
  id := 3
  type := .named "Hedge" false
  generics := []
  arguments := [⟨"a", .flags, none⟩, ⟨"b", .flags, none⟩,
    ⟨"x", .vector (.named "Leaf" true) false, some ⟨"b", 3⟩⟩, ⟨"y", .presence, some ⟨"a", 31⟩⟩]
  comment := none

/-- `grow#4 = vector<vector<hedge>>`, a method -/
def grow : Entry :=
  ⟨.method, "grow", 4, .vector (.vector (.named "hedge" true) false) false, [], [], none⟩

def hedgeSchema : Schema := .of [leaf, hedge, grow] [] rfl

theorem plans_wellFormed_hedge : ∃ c p q, ofSchema hedgeSchema {} = .ok c ∧
    List.Forall₂ (Plan.WellFormed hedgeSchema c) hedgeSchema.entries c.plans ∧
    c.plans.tail = [p, q] ∧ p.fields.map (·.role) = [.flags 0, .flags 1,
      .value (.vector (.bare 1) false) (some ⟨1, 3⟩), .presence (some ⟨0, 31⟩)] ∧
    q.result = some (.vector (.vector (.bare 3) false) false) ∧
    checkedDecodeAny .badGzip c = c.decodeAny := by
  have hc : ofSchema hedgeSchema {} = .ok _ := rfl
  obtain ⟨plans, read, -⟩ := plans_wellFormed (by decide) hc
  exact ⟨_, _, _, hc, plans, rfl, rfl, rfl, (read _).1⟩

/-- Where two flags words share a name, a bit is looked up in a word that is not there. -/
example (stray : ReadFault) : ∃ d, checkedDecodeBare stray twiceCodec (.id 1)
    (.ofBytes (twiceBytes.extract 4 12)) = .error stray d := ⟨_, rfl⟩

end Codec

end TypeLang
