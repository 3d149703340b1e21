import TypeLang.Proofs.Codec.Conforms
import TypeLang.Proofs.Schema.Bareness
import TypeLang.Schema.Layered

namespace TypeLang

open Decl Write

namespace Decl.TypeName

def asksId (n : TypeName) : Bool := !n.bare

def getsId (n : TypeName) : Bool :=
  if n.space.isEmpty && Ty.isVectorName n.name then n.name = "Vector" else !n.bare

variable {n : TypeName}

theorem getsId_vector (alone : n.space = []) (vector : Ty.isVectorName n.name) :
    n.getsId = decide (n.name = "Vector") := by
  rw [getsId, if_pos (by simp [alone, vector])]

theorem getsId_other (h : n.space = [] → Ty.isVectorName n.name = false) :
    n.getsId = !n.bare := by
  rw [getsId, if_neg]
  rw [Bool.and_eq_true, List.isEmpty_iff]
  rintro ⟨alone, vector⟩
  rw [h alone] at vector
  cases vector

theorem getsId_eq_asksId_iff (unmarked : n.placeholder = false)
    (lower : startsLower n.name → n.bare) : n.getsId = n.asksId ↔ ¬ n.IsBareVector := by
  by_cases vector : n.space = [] ∧ Ty.isVectorName n.name
  · rw [getsId_vector vector.1 vector.2]
    exact Ty.keepsMark_vector_iff unmarked vector.1 vector.2 lower .int
  · have other : n.space = [] → Ty.isVectorName n.name = false := fun alone =>
      Bool.eq_false_iff.mpr fun hv => vector ⟨alone, hv⟩
    exact iff_of_true (getsId_other other) (not_isBareVector_of_other other)

end Decl.TypeName

namespace Plan

theorem Planned.laid {s : Schema} {total : Nat} {slots : Dict Nat} {args : List Argument}
    {fields : List FieldPlan} (h : Planned s total slots args fields) :
    ∀ f ∈ fields, ∀ layout gate, f.role = .value layout gate → Laid s f.type layout := by
  induction h with
  | nil => simp
  | flags _ _ ih =>
    rw [List.forall_mem_cons]
    exact ⟨fun _ _ hr => (by cases hr), ih⟩
  | presence _ _ _ ih =>
    rw [List.forall_mem_cons]
    exact ⟨fun _ _ hr => (by cases hr), ih⟩
  | value _ hl _ _ ih =>
    rw [List.forall_mem_cons]
    refine ⟨fun layout gate hr => ?_, ih⟩
    cases hr
    exact laid_of_layout hl

end Plan

namespace Codec

/- What is written for a type -/

def scalar? : Value → Option ByteArray
  | .int n => some (Wire.int n)
  | .long n => some (Wire.long n)
  | .int128 b => some b.val
  | .int256 b => some b.val
  | .double d => some (Wire.double d)
  | .string s => some (Wire.bytes s.toUTF8)
  | .bytes b => some (Wire.bytes b)
  | .bool b => some (Wire.bool b)
  | .vector _ | .object .. | .raw _ => none

def ObjectBytes (c : Codec) (boxed : Bool) (v : Value) (b : ByteArray) : Prop :=
  ∃ p ∈ c.plans, ∃ fields body, v = .object p.name fields ∧
    Writes (writeBody p (c.pending fields)) body () ∧
    b = (if boxed then Wire.word32 p.id else .empty) ++ body

def joined (parts : List ByteArray) : ByteArray := parts.foldr (· ++ ·) .empty

theorem joined_singleton (b : ByteArray) : joined [b] = b := ByteArray.append_empty

def VectorBytes (boxed : Bool) (item : Value → ByteArray → Prop) (v : Value) (b : ByteArray) :
    Prop :=
  ∃ items parts, v = .vector items ∧ List.Forall₂ item items parts ∧
    b = (if boxed then Wire.word32 Id.vector else .empty)
      ++ (Wire.word32 (UInt32.ofNat items.length) ++ joined parts)

/-- Whether the bytes are those of a value of a type with ids just where `boxed` says so. A built-in
type has one form, and nothing is said about generics. -/
def TypedBytes (c : Codec) (boxed : TypeName → Bool) : TypeExpr → Value → ByteArray → Prop
  | .plain n, v, b => n.placeholder = false →
    if n.space = [] ∧ (Ty.builtin? n.name).isSome then scalar? v = some b
    else c.ObjectBytes (boxed n) v b
  | .apply n arg, v, b => n.placeholder = false →
    VectorBytes (boxed n) (TypedBytes c boxed arg) v b

theorem TypedBytes.of_placeholder {c : Codec} {boxed : TypeName → Bool} {e : TypeExpr}
    (h : e.head.placeholder) (v : Value) (b : ByteArray) : c.TypedBytes boxed e v b := by
  cases e with
  | plain n =>
    intro generic
    cases generic.symm.trans h
  | apply n arg =>
    intro generic
    cases generic.symm.trans h

theorem typedBytes_congr {c : Codec} {boxed boxed' : TypeName → Bool} {e : TypeExpr}
    (h : ∀ n ∈ e.levels, n.placeholder = false → boxed n = boxed' n) (v : Value) (b : ByteArray) :
    c.TypedBytes boxed e v b ↔ c.TypedBytes boxed' e v b := by
  induction e generalizing v b with
  | plain n =>
    refine forall_congr' fun generic => ?_
    rw [h n (List.mem_singleton_self n) generic]
  | apply n arg ih =>
    refine forall_congr' fun generic => ?_
    rw [TypeExpr.levels_apply generic, List.forall_mem_cons] at h
    have same : c.TypedBytes boxed arg = c.TypedBytes boxed' arg := by
      funext v b
      exact propext (ih h.2 v b)
    rw [h.1 generic, same]

theorem writes_items {c : Codec} {items : List Value} {elem : Layout} {site : Site}
    {b : ByteArray} : Writes (c.writeItems items elem site) b () ↔
      ∃ parts, List.Forall₂ (fun v d => Writes (c.writeAs v elem site) d ()) items parts ∧
        b = joined parts := by
  induction items generalizing b with
  | nil =>
    constructor
    · intro h
      exact ⟨[], .nil, (h.unique (writes_pure ())).1⟩
    · rintro ⟨_, ⟨⟩, rfl⟩
      exact writes_pure ()
  | cons v rest ih =>
    constructor
    · intro h
      obtain ⟨_, d, e, hd, he, rfl⟩ := h.of_bind (c.uniform_writeAs v elem site)
        fun _ => c.uniform_writeItems rest elem site
      obtain ⟨parts, hparts, rfl⟩ := ih.mp he
      exact ⟨d :: parts, .cons hd hparts, rfl⟩
    · rintro ⟨_, hparts, rfl⟩
      cases hparts with
      | cons hd hparts => exact hd.bind (ih.mpr ⟨_, hparts, rfl⟩)

theorem objectBytes_of_boxed {c : Codec} {union : Option String} {v : Value} {site : Site}
    {b : ByteArray} (h : Writes (c.writeAs v (.boxed union) site) b ()) :
    c.ObjectBytes true v b := by
  cases kinded_of_writes h with
  | boxed name fields =>
    rw [writeAs] at h
    obtain ⟨p, body, hp, -, hb, rfl⟩ := writes_of_writeBoxed h
    obtain rfl := name_of_plan? hp
    exact ⟨p, mem_of_plan? hp, fields, body, rfl, hb, rfl⟩

theorem objectBytes_of_bare {c : Codec} {target : UInt32} {v : Value} {site : Site}
    {b : ByteArray} (h : Writes (c.writeAs v (.bare target) site) b ()) :
    c.ObjectBytes false v b := by
  cases kinded_of_writes h with
  | bare name fields =>
    obtain ⟨p, hp, rfl, hb⟩ := writes_bare.mp h
    exact ⟨p, mem_of_plan? hp, fields, b, rfl, hb, ByteArray.empty_append.symm⟩

theorem scalar?_of_writes {c : Codec} {s : Schema} {name : String} {t : Ty} {layout : Layout}
    (builtin : Ty.builtin? name = some t) (hl : Plan.Laid s t layout) {v : Value} {site : Site}
    {b : ByteArray} (h : Writes (c.writeAs v layout site) b ()) : scalar? v = some b := by
  have primitive := Ty.isPrimitive_of_builtin? builtin
  cases hl with
  | boxed | bare | vector | generic => cases primitive
  | int | long | int128 | int256 | double | bool =>
    cases kinded_of_writes h
    rw [writeAs] at h
    exact congrArg some h.of_emit.symm
  | string =>
    cases kinded_of_writes h
    rw [writeAs] at h
    exact congrArg some h.of_bytes.2.symm
  | bytes =>
    cases kinded_of_writes h with
    | text t =>
      rw [writeAs] at h
      exact congrArg some h.of_bytes.2.symm
    | bytes d =>
      rw [writeAs] at h
      exact congrArg some h.of_bytes.2.symm

section

variable {c : Codec} {s : Schema} {e : TypeExpr} {t : Ty} {layout : Layout}

/-- By induction on the type: ids are written where the names get them. -/
theorem typedBytes_of_writes (ht : Ty.OfExpr e t) (hl : Plan.Laid s t layout) {v : Value}
    {site : Site} {b : ByteArray} (h : Writes (c.writeAs v layout site) b ()) :
    c.TypedBytes TypeName.getsId e v b := by
  induction ht generalizing layout v b with
  | generic hp => exact .of_placeholder hp v b
  | builtin _ alone builtin =>
    intro _
    rw [if_pos ⟨alone, by rw [builtin]; rfl⟩]
    exact scalar?_of_writes builtin hl h
  | @named n _ other =>
    intro _
    rw [if_neg, TypeName.getsId_other fun alone => (other alone).1]
    · cases hb : n.bare with
      | false =>
        rw [hb] at hl
        cases hl
        exact objectBytes_of_boxed h
      | true =>
        rw [hb] at hl
        cases hl
        exact objectBytes_of_bare h
    · rintro ⟨alone, builtin⟩
      rw [(other alone).2] at builtin
      cases builtin
  | @vector n arg elem _ alone vector _ ih =>
    intro _
    cases hl with
    | vector _ hl =>
      cases kinded_of_writes h with
      | vector items =>
        obtain ⟨body, hbody, rfl⟩ := writes_vector.mp h
        obtain ⟨parts, hparts, rfl⟩ := writes_items.mp hbody
        refine ⟨items, parts, rfl, hparts.imp fun v b hb => ih hl hb, ?_⟩
        rw [TypeName.getsId_vector alone vector]

theorem typedBytes_asked (lower : ∀ n ∈ e.names, startsLower n.name → n.bare)
    (kept : ∀ n ∈ e.levels, ¬ n.IsBareVector) {v : Value} {b : ByteArray}
    (h : c.TypedBytes TypeName.getsId e v b) : c.TypedBytes TypeName.asksId e v b := by
  refine (typedBytes_congr (fun n hn generic => ?_) v b).mp h
  have small := lower n (TypeExpr.mem_names_of_mem_levels hn)
  exact (TypeName.getsId_eq_asksId_iff generic small).mpr (kept n hn)

/-- By induction on the type: if a name is `%Vector`, an empty vector there has an id that the text
does not ask for. -/
theorem exists_not_typedBytes (ht : Ty.OfExpr e t) (hl : Plan.Laid s t layout)
    (lower : ∀ n ∈ e.names, startsLower n.name → n.bare) (lost : ∃ n ∈ e.levels, n.IsBareVector)
    (site : Site) : ∃ v b, Writes (c.writeAs v layout site) b () ∧
      ¬ c.TypedBytes TypeName.asksId e v b := by
  induction ht generalizing layout with
  | generic hp =>
    obtain ⟨n, hn, bare⟩ := lost
    rw [TypeExpr.levels_of_placeholder hp, List.mem_singleton] at hn
    subst hn
    exact absurd bare (TypeName.not_isBareVector_of_placeholder hp)
  | builtin _ _ builtin =>
    obtain ⟨n, hn, bare⟩ := lost
    obtain rfl := List.mem_singleton.mp hn
    exact absurd bare (TypeName.not_isBareVector_of_other fun _ =>
      Ty.not_isVectorName_of_builtin? builtin)
  | named _ other =>
    obtain ⟨n, hn, bare⟩ := lost
    obtain rfl := List.mem_singleton.mp hn
    exact absurd bare (TypeName.not_isBareVector_of_other fun alone => (other alone).1)
  | @vector n arg elem generic alone vector _ ih =>
    rw [TypeExpr.names, List.forall_mem_cons] at lower
    cases hl with
    | @vector _ inner _ hl =>
      by_cases bare : n.IsBareVector
      · obtain ⟨-, -, name, marked⟩ := bare
        refine ⟨.vector [], _, writes_vector.mpr ⟨.empty, writes_pure (), rfl⟩, fun typed => ?_⟩
        obtain ⟨items, parts, hv, hparts, hb⟩ := typed generic
        cases hv
        cases hparts
        rw [TypeName.asksId, marked, name] at hb
        exact absurd hb (by decide)
      · rw [TypeExpr.levels_apply generic, List.exists_mem_cons_iff] at lost
        obtain ⟨v, b, hw, untyped⟩ := ih hl lower.2 (lost.resolve_left bare)
        refine ⟨.vector [v], _, writes_vector.mpr ⟨b, ?_, rfl⟩, fun typed => untyped ?_⟩
        · exact writes_items.mpr ⟨[b], .cons hw .nil, (joined_singleton b).symm⟩
        · obtain ⟨items, parts, hv, hparts, hb⟩ := typed generic
          cases hv
          cases hparts with
          | @cons _ d _ _ hd hnil =>
            cases hnil
            have same := (TypeName.getsId_eq_asksId_iff generic lower.1).mpr bare
            rw [← same, TypeName.getsId_vector alone vector, joined_singleton] at hb
            rwa [append_left_cancel (append_left_cancel hb)]

end

/- Where a type is used -/

/-- Whether a body is the bytes of its fields in order, where those of a type have ids just where
`boxed` says so. -/
def BodyBytes (c : Codec) (boxed : TypeName → Bool) (e : TypeExpr) (t : Ty) (p : Plan)
    (fields : Fields) (body : ByteArray) : Prop :=
  body = chunks (p.words (Dict.get? fields)) (FieldPlan.payload? p.name (c.pending fields)) p.fields
    ∧ ∀ f ∈ p.fields, ∀ layout gate, f.type = t → f.role = .value layout gate →
      ∀ v, Dict.get? fields f.name = some v →
        ∃ b, f.payload? p.name (c.pending fields) = some b ∧ c.TypedBytes boxed e v b

theorem bodyBytes_of_writes {s : Schema} {config : Config} {unpack : ByteArray → Option ByteArray}
    {c : Codec} (hc : OfSchema s config unpack c) {e : TypeExpr} {t : Ty} (ht : Ty.OfExpr e t)
    {p : Plan} (hp : p ∈ c.plans) {fields : Fields} {body : ByteArray}
    (h : Writes (writeBody p (c.pending fields)) body ()) :
    c.BodyBytes TypeName.getsId e t p fields body := by
  obtain ⟨-, -, writable, rfl⟩ := (writes_writeBody (c.uniform_pending fields) p body).mp h
  rw [get?_pending_value]
  refine ⟨rfl, fun f hf layout gate type hr v hv => ?_⟩
  obtain ⟨entry, -, planned⟩ := hc.entry hp
  have hl := planned.fields.laid f hf layout gate hr
  rw [type] at hl
  have given : Dict.get? (c.pending fields) f.name = some ⟨v, c.writeAs v⟩ := by
    rw [get?_pending, hv]
    rfl
  obtain ⟨b, hb⟩ := writable f hf layout gate _ hr given
  refine ⟨b, ?_, typedBytes_of_writes ht hl hb⟩
  rw [FieldPlan.payload?, hr]
  dsimp only
  rw [given, Option.bind_some, hb.output?_eq]

/-- Of a type that has been read, each level is bare just if it is written so, unless it is written
`%Vector`. So ids are written just where the text asks for them if this is written nowhere, and only
then: in front of the values of the type, and in every body with a field of the type, be it encoded
by itself or within another one. -/
theorem bareness_of_read {cs : List Char} {e : TypeExpr} {t : Ty} (read : TypeExpr.read cs = .ok e)
    (resolved : Ty.ofExpr e = .ok t) :
    List.Forall₂ (fun n t => t.KeepsMark n ↔ ¬ n.IsBareVector) e.levels t.levels ∧
      ∀ {s : Schema} {config : Config} {unpack : ByteArray → Option ByteArray} {c : Codec},
        ofSchema s config unpack = .ok c →
        (∀ layout, Plan.layout s t = .ok layout →
          ((∀ v site b, Writes (c.writeAs v layout site) b () →
              c.TypedBytes TypeName.asksId e v b) ↔ ∀ n ∈ e.levels, ¬ n.IsBareVector)) ∧
        (∀ p ∈ c.plans, ∀ fields body, Writes (writeBody p (c.pending fields)) body () →
          c.BodyBytes TypeName.getsId e t p fields body ∧
            ((∀ n ∈ e.levels, ¬ n.IsBareVector) →
              c.BodyBytes TypeName.asksId e t p fields body)) ∧
        ∀ (bare : Bool) key fields buffer buffer',
          (if bare then c.encodeBare key fields else c.encode key fields) buffer =
            .ok () buffer' →
          ∃ p body, c.plan? key = some p ∧ Writes (writeBody p (c.pending fields)) body () ∧
            buffer' = buffer ++ ((if bare then .empty else Wire.word32 p.id) ++ body) := by
  have ht := Ty.ofExpr_eq_ok_iff.mp resolved
  have lower := TypeExpr.bare_of_read read
  refine ⟨ht.forall₂_levels lower, fun {s config unpack c} hc => ⟨fun layout hl => ?_,
    fun p hp fields body hb => ?_, fun bare key fields buffer buffer' => writes_of_encode⟩⟩
  · have hl := Plan.laid_of_layout hl
    refine ⟨fun asked n hn lost => ?_, fun kept v site b hb => ?_⟩
    · obtain ⟨v, b, hb, untyped⟩ := exists_not_typedBytes (c := c) ht hl lower ⟨n, hn, lost⟩
        ⟨"", "", t, .presence none⟩
      exact untyped (asked v _ b hb)
    · exact typedBytes_asked lower kept (typedBytes_of_writes ht hl hb)
  · obtain ⟨chunked, typed⟩ := bodyBytes_of_writes (ofSchema_eq_ok hc) ht hp hb
    refine ⟨⟨chunked, typed⟩, fun kept => ⟨chunked, fun f hf layout gate type hr v hv => ?_⟩⟩
    obtain ⟨b, hb, bytes⟩ := typed f hf layout gate type hr v hv
    exact ⟨b, hb, typedBytes_asked lower kept bytes⟩

def sheetText : String :=
  "cell#1 n:int = Cell;\nsheet#2 rows:vector<Vector<%Cell>> = Sheet;"

def rowsExpr : TypeExpr :=
  .apply ⟨[], "vector", true, false⟩
    (.apply ⟨[], "Vector", false, false⟩ (.plain ⟨[], "Cell", true, false⟩))

def rowsType : Ty := .vector (.vector (.named "Cell" true) true) false

def sheetSchema : Schema :=
  .of [⟨.constructor, "cell", 1, .named "Cell" false, [], [⟨"n", .int, none⟩], none⟩,
    ⟨.constructor, "sheet", 2, .named "Sheet" false, [], [⟨"rows", rowsType, none⟩], none⟩] [] rfl

def sheetPlan : Plan where
  id := 2
  name := "sheet"
  kind := .constructor
  union := some "Sheet"
  fields := [⟨"rows", rowsType, .value (.vector (.vector (.bare 1) true) false) none⟩]
  flagsWords := 0
  result := none

def sheetCodec : Codec :=
  ⟨{}, Deflate.unpack,
    [⟨1, "cell", .constructor, some "Cell", [⟨"n", .int, .value .int none⟩], 0, none⟩, sheetPlan],
    [(1, 4), (2, 4)]⟩

def sheetFields : Fields := [("rows", .vector [.vector [.object "cell" [("n", .int 7)]]])]

theorem bareness_of_read_sheet : Schema.parse none sheetText = .ok sheetSchema ∧
    ofSchema sheetSchema {} = .ok sheetCodec ∧
    TypeExpr.read "vector<Vector<%Cell>>".toList = .ok rowsExpr ∧
    Ty.ofExpr rowsExpr = .ok rowsType ∧
    ∃ b body, sheetCodec.encode (.name "sheet") sheetFields .empty = .ok () b ∧
      b = .empty ++ (Wire.word32 2 ++ body) ∧
      sheetCodec.BodyBytes TypeName.asksId rowsExpr rowsType sheetPlan sheetFields body := by
  have parsed : Schema.parse none sheetText = .ok sheetSchema := by decide +kernel
  have compiled : ofSchema sheetSchema {} = .ok sheetCodec := rfl
  have read : TypeExpr.read "vector<Vector<%Cell>>".toList = .ok rowsExpr := by decide +kernel
  have kept : ∀ n ∈ rowsExpr.levels, ¬ n.IsBareVector := by decide
  have encoded : (if false then sheetCodec.encodeBare (.name "sheet") sheetFields
      else sheetCodec.encode (.name "sheet") sheetFields) .empty = .ok () _ := rfl
  obtain ⟨-, used⟩ := bareness_of_read read rfl
  obtain ⟨-, bodies, encodings⟩ := used compiled
  obtain ⟨p, body, hp, hb, whole⟩ := encodings false _ _ _ _ encoded
  obtain rfl : sheetPlan = p := Option.some.inj hp
  exact ⟨parsed, compiled, read, rfl, _, body, encoded, whole,
    (bodies sheetPlan (mem_of_plan? hp) _ body hb).2 kept⟩

def listSchema : Schema :=
  .of [⟨.constructor, "list", 1, .named "List" false, [], [⟨"x", .vector .int true, none⟩], none⟩] []
    rfl

def listCodec : Codec :=
  ⟨{}, Deflate.unpack,
    [⟨1, "list", .constructor, some "List",
      [⟨"x", .vector .int true, .value (.vector .int true) none⟩], 0, none⟩],
    [(1, 8)]⟩

/-- An empty vector that is written as bare is encoded behind an id. -/
theorem bareness_lost_list :
    Schema.parse none "list#1 x:%Vector<int> = List;" = .ok listSchema ∧
      ofSchema listSchema {} = .ok listCodec ∧
      ∃ e b, TypeExpr.read "%Vector<int>".toList = .ok e ∧ e.head.bare ∧
        Ty.ofExpr e = .ok (.vector .int true) ∧
        listCodec.encodeBare (.name "list") [("x", .vector [])] .empty = .ok () b ∧
        b = ⟨#[0x15, 0xc4, 0xb5, 0x1c, 0, 0, 0, 0]⟩ ∧
        ¬ listCodec.TypedBytes TypeName.asksId e (.vector []) b := by
  have read : TypeExpr.read "%Vector<int>".toList
      = .ok (.apply ⟨[], "Vector", true, false⟩ (.plain ⟨[], "int", true, false⟩)) := by
    decide +kernel
  refine ⟨by decide +kernel, rfl, _, _, read, rfl, rfl, rfl, by decide, fun typed => ?_⟩
  obtain ⟨items, parts, hv, hparts, hb⟩ := typed rfl
  cases hv
  cases hparts
  exact absurd hb (by decide)

end Codec

end TypeLang
