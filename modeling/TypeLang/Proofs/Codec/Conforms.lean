import Mathlib.Data.List.Nodup
import TypeLang.Proofs.Codec.RoundTrip
import TypeLang.Proofs.Schema.HasType
import TypeLang.Proofs.Schema.Unions
import TypeLang.Proofs.Value

namespace TypeLang

open Write

namespace Plan

inductive Laid (s : Schema) : Ty → Layout → Prop
  | int : Laid s .int .int
  | long : Laid s .long .long
  | int128 : Laid s .int128 .int128
  | int256 : Laid s .int256 .int256
  | double : Laid s .double .double
  | string : Laid s .string .string
  | bytes : Laid s .bytes .bytes
  | bool : Laid s .bool .bool
  | boxed (name : String) : Laid s (.named name false) (.boxed ((s.union? name).map (·.name)))
  | bare {name : String} {target : UInt32} :
      bareTarget s name = .ok target → Laid s (.named name true) (.bare target)
  | vector {elem : Ty} {layout : Layout} (isBoxed : Bool) :
      Laid s elem layout → Laid s (.vector elem isBoxed) (.vector layout isBoxed)
  | generic (name : String) : Laid s (.generic name) .generic

theorem laid_of_layout {s : Schema} {ty : Ty} {l : Layout} (h : layout s ty = .ok l) :
    Laid s ty l := by
  induction ty generalizing l with
  | named name bare =>
    cases bare with
    | false =>
      cases h
      exact .boxed name
    | true =>
      obtain ⟨target, ht, rfl⟩ := except_map_eq_ok.mp h
      exact .bare ht
  | vector elem isBoxed ih =>
    obtain ⟨l, hl, rfl⟩ := except_map_eq_ok.mp h
    exact .vector isBoxed (ih hl)
  | int | long | int128 | int256 | double | string | bytes | bool | generic =>
    cases h
    constructor
  | presence | flags => cases h

theorem Laid.ne_flags {s : Schema} {ty : Ty} {l : Layout} (h : Laid s ty l) : ty ≠ .flags := by
  rintro rfl
  cases h

theorem Laid.ne_presence {s : Schema} {ty : Ty} {l : Layout} (h : Laid s ty l) :
    ty ≠ .presence := by
  rintro rfl
  cases h

inductive FieldOf (s : Schema) (a : Argument) (f : FieldPlan) : Prop
  | flags (slot : Nat) : f.name = a.name → a.type = .flags → f.role = .flags slot → FieldOf s a f
  | presence (gate : Option Gate) : f.name = a.name → a.type = .presence →
      f.role = .presence gate → FieldOf s a f
  | value (layout : Layout) (gate : Option Gate) : f.name = a.name → Laid s a.type layout →
      gate.isSome = a.guard.isSome → f.role = .value layout gate → FieldOf s a f

theorem isSome_of_gate {slots : Dict Nat} {a : Argument} {g : Option Gate}
    (h : gate slots a = .ok g) : g.isSome = a.guard.isSome := by
  rw [gate] at h
  split at h
  · next ha =>
    cases h
    rw [ha]
    rfl
  · next ha =>
    split at h
    · cases h
    · split at h
      · cases h
      · cases h
        rw [ha]
        rfl

theorem Planned.forall₂ {s : Schema} {total : Nat} {slots : Dict Nat} {args : List Argument}
    {fields : List FieldPlan} (h : Planned s total slots args fields) :
    List.Forall₂ (FieldOf s) args fields := by
  induction h with
  | nil => exact .nil
  | flags ht _ ih => exact .cons (.flags _ rfl ht rfl) ih
  | presence ht _ _ ih => exact .cons (.presence _ rfl ht rfl) ih
  | value _ hl hg _ ih => exact .cons (.value _ _ rfl (laid_of_layout hl) (isSome_of_gate hg) rfl) ih

end Plan

namespace Codec

/-- What the names of a schema stand for in its codec. -/
structure Resolves (s : Schema) (c : Codec) : Prop where
  plan : ∀ e ∈ s.entries, ∃ p, Plan.OfEntry s e p ∧ c.plan? (.name e.name) = some p ∧
    c.plan? (.id e.id) = some p
  entry : ∀ key p, c.plan? key = some p → ∃ e ∈ s.entries, Plan.OfEntry s e p
  slotted : ∀ key p, c.plan? key = some p → Slotted p.flagsWords 0 p.fields
  admits : ∀ e ∈ s.entries, ∀ p, Plan.OfEntry s e p → ∀ name,
    c.admits ((s.union? name).map (·.name)) p ↔ s.Admits name e
  denotes : ∀ name target, Plan.bareTarget s name = .ok target → ∀ e,
    s.Denotes name e ↔ e ∈ s.entries ∧ e.id = target

section

variable {s : Schema} {config : Config} {unpack : ByteArray → Option ByteArray} {c : Codec}

theorem admits_iff
    (kinds : ∀ e ∈ s.entries, ∀ f ∈ s.entries, e.name = f.name → e.kind = f.kind)
    (check : c.config.checkUnions = true) {e : Entry} (he : e ∈ s.entries) {p : Plan}
    (hp : Plan.OfEntry s e p) (name : String) :
    c.admits ((s.union? name).map (·.name)) p ↔ s.Admits name e := by
  rw [admits, check, Schema.Admits, and_iff_right he, hp.union]
  cases hu : s.union? name with
  | none =>
    simp only [Option.map_none, Option.all_none, Bool.or_true, true_iff]
    intro u hm hn
    exact absurd hn (Schema.union?_eq_none_iff.mp hu u hm)
  | some u =>
    obtain ⟨hm, rfl⟩ := Schema.union?_eq_some_iff.mp hu
    simp only [Option.map_some, Option.all_some, Bool.not_true, Bool.false_or, decide_eq_true_eq]
    rw [Schema.unionName?_eq_some_iff kinds he hm]
    constructor
    · intro h v hv hn
      cases hu.symm.trans (Schema.union?_eq_some_iff.mpr ⟨hv, hn⟩)
      exact h
    · intro h
      exact h u hm rfl

theorem denotes_of_bareTarget {name : String} {target : UInt32}
    (h : Plan.bareTarget s name = .ok target) : ∃ e, s.Denotes name e ∧ e.id = target := by
  rw [Plan.bareTarget] at h
  split at h
  · next e he =>
    cases h
    obtain ⟨hm, hk, hn⟩ := Schema.mem_of_find? he
    exact ⟨e, .named hm hk hn, rfl⟩
  · next none =>
    split at h
    · cases h
    · next u hu =>
      obtain ⟨hum, hun⟩ := Schema.union?_eq_some_iff.mp hu
      split at h
      · next member members =>
        split at h
        · next e he =>
          cases h
          obtain ⟨hm, hk, rfl⟩ := Schema.mem_of_find? he
          exact ⟨e, .alone (Schema.ne_of_find? none) hum hun members hm hk, rfl⟩
        · cases h
      · cases h

theorem denotes_iff
    (kinds : ∀ e ∈ s.entries, ∀ f ∈ s.entries, e.name = f.name → e.kind = f.kind) {name : String}
    {target : UInt32} (h : Plan.bareTarget s name = .ok target) (e : Entry) :
    s.Denotes name e ↔ e ∈ s.entries ∧ e.id = target := by
  obtain ⟨f, hf, rfl⟩ := denotes_of_bareTarget h
  constructor
  · intro he
    rw [he.unique kinds hf]
    exact ⟨hf.mem, rfl⟩
  · rintro ⟨he, hid⟩
    rwa [List.inj_on_of_nodup_map (Schema.ids_nodup _) he hf.mem hid]

theorem resolves_ofSchema
    (kinds : ∀ e ∈ s.entries, ∀ f ∈ s.entries, e.name = f.name → e.kind = f.kind)
    (flags : ∀ e ∈ s.entries, ((e.arguments.filter (·.type = .flags)).map (·.name)).Nodup)
    (hc : ofSchema s config unpack = .ok c) (check : config.checkUnions = true) :
    c.Resolves s where
  plan e he := by
    have compiled := ofSchema_eq_ok hc
    obtain ⟨p, hm, hp⟩ := exists_left_of_forall₂ compiled.plans.flip he
    have hid := plan?_id (by rw [compiled.ids]; exact Schema.ids_nodup _) hm
    have hname := plan?_name (by rw [compiled.names]; exact Schema.names_nodup kinds) hm
    rw [hp.id] at hid
    rw [hp.name] at hname
    exact ⟨p, hp, hname, hid⟩
  entry key p hp := (ofSchema_eq_ok hc).entry (mem_of_plan? hp)
  slotted key p hp := (ofSchema_eq_ok hc).slotted flags (mem_of_plan? hp)
  admits e he p hp := admits_iff kinds ((ofSchema_eq_ok hc).config ▸ check) he hp
  denotes _ _ := denotes_iff kinds

end

theorem admits_none (c : Codec) (p : Plan) : c.admits none p ↔ True := by simp [admits]

def WritesTyped (s : Schema) (c : Codec) (v : Value) : Prop :=
  ∀ ty layout site, Plan.Laid s ty layout →
    ((∃ b, Writes (c.writeAs v layout site) b ()) ↔ HasType s v ty)

section

variable {s : Schema} {c : Codec}

theorem writable_of_role {fields : Fields} {f : FieldPlan}
    (h : ∀ layout gate, f.role ≠ .value layout gate) (entry : String) :
    f.Writable entry (c.pending fields) := fun _ _ _ hr => absurd hr (h _ _)

theorem writable_iff {fields : Fields} {f : FieldPlan} {layout : Layout} {gate : Option Gate}
    (hr : f.role = .value layout gate) (entry : String) :
    f.Writable entry (c.pending fields) ↔ ∀ v, Dict.get? fields f.name = some v →
      ∃ b, Writes (c.writeAs v layout ⟨entry, f⟩) b () := by
  constructor
  · intro h v hv
    exact h layout gate _ hr (by rw [get?_pending, hv, Option.map_some])
  · intro h layout' gate' v' hr' hv'
    cases hr.symm.trans hr'
    rw [get?_pending, Option.map_eq_some_iff] at hv'
    obtain ⟨v, hv, rfl⟩ := hv'
    exact h v hv

theorem fills_none_iff {a : Argument} {layout : Layout} (h : Plan.Laid s a.type layout) :
    Fills s a none ↔ a.guard.isSome := by
  constructor
  · rintro (⟨-, ht⟩ | - | ht | ht)
    · exact absurd ht h.ne_flags
    · exact ht.resolve_left h.ne_presence
  · intro hg
    exact .absent (.inr hg)

theorem fills_some_iff {a : Argument} {layout : Layout} (h : Plan.Laid s a.type layout)
    {v : Value} : Fills s a (some v) ↔ HasType s v a.type := by
  constructor
  · rintro (⟨-, ht⟩ | ⟨b, ht⟩ | - | hv)
    · exact absurd ht h.ne_flags
    · exact absurd ht h.ne_presence
    · exact hv
  · exact .value

theorem fills_iff {fields : Fields} {a : Argument} {f : FieldPlan} (hf : Plan.FieldOf s a f)
    (typed : ∀ v, Dict.get? fields a.name = some v → c.WritesTyped s v) (entry : String) :
    f.Accepts (Dict.get? fields) ∧ f.Writable entry (c.pending fields) ↔
      Fills s a (Dict.get? fields a.name) := by
  cases hf with
  | flags slot hn ht hr =>
    simp only [FieldPlan.Accepts, hr, writable_of_role (f := f) (by simp [hr]), true_and, true_iff]
    exact .flags _ ht
  | presence gate hn ht hr =>
    rw [and_iff_left (writable_of_role (by simp [hr]) entry), FieldPlan.Accepts, hr, hn]
    cases Dict.get? fields a.name with
    | none => exact iff_of_true trivial (.absent (.inl ht))
    | some v =>
      constructor
      · rintro ⟨b, rfl⟩
        exact .presence b ht
      · rintro (⟨-, h⟩ | ⟨b, -⟩ | - | h)
        · cases ht.symm.trans h
        · exact ⟨b, rfl⟩
        · rw [ht] at h
          cases h
  | value layout gate hn hl hg hr =>
    rw [writable_iff hr, FieldPlan.Accepts, hr, hn]
    cases hv : Dict.get? fields a.name with
    | none =>
      simp only [reduceCtorEq, false_implies, implies_true, and_true]
      rw [fills_none_iff hl, ← hg]
      cases gate with
      | none => simp
      | some g => simp
    | some v =>
      simp only [true_and, Option.some.injEq, forall_eq', fills_some_iff hl]
      exact typed v hv a.type layout ⟨entry, f⟩ hl

theorem writes_body_iff {e : Entry} {p : Plan} (hp : Plan.OfEntry s e p)
    (slots : Slotted p.flagsWords 0 p.fields) {fields : Fields}
    (typed : ∀ v ∈ fields.map (·.2), c.WritesTyped s v) :
    (∃ b, Writes (writeBody p (c.pending fields)) b ()) ↔ Conforms s e fields := by
  have fill : ∀ a f, Plan.FieldOf s a f →
      (Fills s a (Dict.get? fields a.name) ↔
        f.Accepts (Dict.get? fields) ∧ f.Writable p.name (c.pending fields)) := fun a f hf =>
    (fills_iff hf (fun v hv => typed v (List.mem_map_of_mem (Dict.mem_of_get? hv))) p.name).symm
  rw [conforms_iff, forall_iff_of_forall₂ hp.fields.forall₂ fill]
  have finds : ∀ f ∈ p.fields, f.Finds (Dict.get? fields) p.flagsWords ↔ True := fun f hf =>
    iff_of_true (slots.finds _ f hf) trivial
  simp +contextual only [writes_writeBody (c.uniform_pending fields), get?_pending_value,
    exists_and_left, exists_eq, and_true, forall_and, finds, implies_true, true_and]

theorem writes_items_iff {items : List Value} {elem : Ty} {layout : Layout} {site : Site}
    (hl : Plan.Laid s elem layout) (typed : ∀ v ∈ items, c.WritesTyped s v) :
    (∃ b, Writes (c.writeItems items layout site) b ()) ↔ ∀ v ∈ items, HasType s v elem := by
  induction items with
  | nil => exact iff_of_true ⟨.empty, writes_pure ()⟩ (by simp)
  | cons v rest ih =>
    rw [List.forall_mem_cons] at typed ⊢
    rw [← typed.1 elem layout site hl, ← ih typed.2]
    constructor
    · rintro ⟨b, h⟩
      obtain ⟨_, d, e, hd, he, -⟩ := h.of_bind (c.uniform_writeAs v layout site)
        fun _ => c.uniform_writeItems rest layout site
      exact ⟨⟨d, hd⟩, e, he⟩
    · rintro ⟨⟨d, hd⟩, e, he⟩
      exact ⟨d ++ e, hd.bind he⟩

theorem writes_vector_iff {items : List Value} {layout : Layout} {isBoxed : Bool} {site : Site} :
    (∃ b, Writes (c.writeAs (.vector items) (.vector layout isBoxed) site) b ()) ↔
      ∃ b, Writes (c.writeItems items layout site) b () := by
  constructor
  · rintro ⟨b, h⟩
    obtain ⟨body, hbody, -⟩ := writes_vector.mp h
    exact ⟨body, hbody⟩
  · rintro ⟨body, hbody⟩
    exact ⟨_, writes_vector.mpr ⟨body, hbody, rfl⟩⟩

section

variable (resolves : c.Resolves s) {name : String} {fields : Fields}
  (typed : ∀ v ∈ fields.map (·.2), c.WritesTyped s v)

include resolves typed

theorem writes_boxed_iff {union : Option String} {ok : Entry → Prop}
    (admits : ∀ e ∈ s.entries, ∀ p, Plan.OfEntry s e p → (c.admits union p ↔ ok e)) :
    (∃ b, Writes (c.writeBoxed union name (c.pending fields)) b ()) ↔
      ∃ e ∈ s.entries, ok e ∧ e.name = name ∧ Conforms s e fields := by
  constructor
  · rintro ⟨b, h⟩
    obtain ⟨p, body, hp, ha, hb, -⟩ := writes_of_writeBoxed h
    obtain ⟨e, he, hep⟩ := resolves.entry _ p hp
    refine ⟨e, he, (admits e he p hep).mp ha, ?_,
      (writes_body_iff hep (resolves.slotted _ p hp) typed).mp ⟨body, hb⟩⟩
    rw [← hep.name, name_of_plan? hp]
  · rintro ⟨e, he, ha, rfl, hf⟩
    obtain ⟨p, hep, hp, -⟩ := resolves.plan e he
    obtain ⟨body, hb⟩ := (writes_body_iff hep (resolves.slotted _ p hp) typed).mpr hf
    exact ⟨_, writes_writeBoxed hp ((admits e he p hep).mpr ha) hb⟩

theorem writes_bare_iff {target : UInt32} {site : Site} :
    (∃ b, Writes (c.writeAs (.object name fields) (.bare target) site) b ()) ↔
      ∃ e ∈ s.entries, e.id = target ∧ e.name = name ∧ Conforms s e fields := by
  constructor
  · rintro ⟨b, h⟩
    obtain ⟨p, hp, hn, hb⟩ := writes_bare.mp h
    obtain ⟨e, he, hep⟩ := resolves.entry _ p hp
    refine ⟨e, he, ?_, ?_, (writes_body_iff hep (resolves.slotted _ p hp) typed).mp ⟨b, hb⟩⟩
    · rw [← hep.id, id_of_plan? hp]
    · rw [hn, hep.name]
  · rintro ⟨e, he, rfl, rfl, hf⟩
    obtain ⟨p, hep, -, hp⟩ := resolves.plan e he
    obtain ⟨body, hb⟩ := (writes_body_iff hep (resolves.slotted _ p hp) typed).mpr hf
    exact ⟨body, writes_bare.mpr ⟨p, hp, hep.name.symm, hb⟩⟩

end

theorem le_maxLength_iff {n : Nat} : n ≤ Wire.maxLength ↔ n < 2 ^ 24 := Nat.lt_succ_iff.symm

section

variable (resolves : c.Resolves s) {v : Value} (typed : ∀ w ∈ v.children, c.WritesTyped s w)
  {ty : Ty} {layout : Layout} {site : Site} (hl : Plan.Laid s ty layout)

include resolves typed hl

theorem hasType_of_writes {b : ByteArray} (h : Writes (c.writeAs v layout site) b ()) :
    HasType s v ty := by
  cases kinded_of_writes h with
  | int | long | int128 | int256 | double | bool | raw =>
    cases hl
    constructor
  | string t =>
    rw [writeAs] at h
    cases hl
    exact .string (le_maxLength_iff.mp h.of_bytes.1)
  | text t =>
    rw [writeAs] at h
    cases hl
    exact .text (le_maxLength_iff.mp h.of_bytes.1)
  | bytes b =>
    rw [writeAs] at h
    cases hl
    exact .bytes (le_maxLength_iff.mp h.of_bytes.1)
  | vector items elem isBoxed =>
    cases hl with
    | vector _ hl => exact .vector ((writes_items_iff hl typed).mp (writes_vector_iff.mp ⟨b, h⟩))
  | boxed name fields union =>
    rw [writeAs] at h
    cases hl with
    | boxed union =>
      obtain ⟨e, -, ha, rfl, hf⟩ := (writes_boxed_iff resolves typed fun e he p hp =>
        resolves.admits e he p hp union).mp ⟨b, h⟩
      exact .boxed ha hf
  | bare name fields target =>
    cases hl with
    | bare ht =>
      obtain ⟨e, he, hi, rfl, hf⟩ := (writes_bare_iff resolves typed).mp ⟨b, h⟩
      exact .bare ((resolves.denotes _ _ ht e).mpr ⟨he, hi⟩) hf
  | generic name fields =>
    rw [writeAs] at h
    cases hl
    obtain ⟨e, he, -, rfl, hf⟩ := (writes_boxed_iff resolves typed fun e _ p _ =>
      c.admits_none p).mp ⟨b, h⟩
    exact .generic he hf

theorem writes_of_hasType (h : HasType s v ty) : ∃ b, Writes (c.writeAs v layout site) b () := by
  cases h with
  | int | long | int128 | int256 | double | bool | raw =>
    cases hl
    rw [writeAs]
    exact ⟨_, writes_emit _⟩
  | string ht | text ht | bytes ht =>
    cases hl
    rw [writeAs]
    exact ⟨_, writes_bytes (le_maxLength_iff.mpr ht)⟩
  | vector h =>
    cases hl with
    | vector _ hl => exact writes_vector_iff.mpr ((writes_items_iff hl typed).mpr h)
  | bare hd hf =>
    cases hl with
    | bare ht =>
      obtain ⟨he, hi⟩ := (resolves.denotes _ _ ht _).mp hd
      exact (writes_bare_iff resolves typed).mpr ⟨_, he, hi, rfl, hf⟩
  | boxed ha hf =>
    cases hl with
    | boxed =>
      rw [writeAs]
      exact (writes_boxed_iff resolves typed fun e he p hp =>
        resolves.admits e he p hp _).mpr ⟨_, ha.1, ha, rfl, hf⟩
  | generic he hf =>
    cases hl
    rw [writeAs]
    exact (writes_boxed_iff resolves typed fun e _ p _ =>
      c.admits_none p).mpr ⟨_, he, trivial, rfl, hf⟩

end

/-- By induction on the value: what is inside it is written just if it has its type. -/
theorem writesTyped (resolves : c.Resolves s) (v : Value) : c.WritesTyped s v := by
  induction v using Value.forall_of_children with
  | h v typed =>
    intro ty layout site hl
    constructor
    · rintro ⟨b, h⟩
      exact hasType_of_writes resolves typed hl h
    · exact writes_of_hasType resolves typed hl

end

section

variable {s : Schema} {config : Config} {unpack : ByteArray → Option ByteArray} {c : Codec}

/-- An entry is encoded, by its name or by its id, just if the fields conform to it. A codec in
which flags words share a name may crash instead. -/
theorem encode_iff_conforms
    (kinds : ∀ e ∈ s.entries, ∀ f ∈ s.entries, e.name = f.name → e.kind = f.kind)
    (flags : ∀ e ∈ s.entries, ((e.arguments.filter (·.type = .flags)).map (·.name)).Nodup)
    (hc : ofSchema s config unpack = .ok c) (check : config.checkUnions = true) {e : Entry}
    (he : e ∈ s.entries) {key : Key} (hk : key = .name e.name ∨ key = .id e.id) (fields : Fields)
    (buffer : ByteArray) :
    (∃ buffer', c.encode key fields buffer = .ok () buffer') ↔ Conforms s e fields := by
  have resolves := resolves_ofSchema kinds flags hc check
  obtain ⟨p, hep, hname, hid⟩ := resolves.plan e he
  have hp : c.plan? key = some p := by
    rcases hk with rfl | rfl
    · exact hname
    · exact hid
  rw [← writes_body_iff hep (resolves.slotted key p hp) fun v _ => writesTyped resolves v]
  constructor
  · rintro ⟨buffer', h⟩
    have h : (if false then c.encodeBare key fields else c.encode key fields) buffer =
      .ok () buffer' := h
    obtain ⟨q, body, hq, hb, -⟩ := writes_of_encode h
    cases hp.symm.trans hq
    exact ⟨body, hb⟩
  · rintro ⟨body, hb⟩
    have h : Writes (c.encode key fields) (.empty ++ (Wire.word32 p.id ++ body)) () := by
      rw [encode, planToWrite, hp]
      exact (writes_pure p).bind (writes_appending.mpr ((writes_emit _).bind hb))
    exact ⟨_, h buffer⟩

end

/-- `leaf#1 label:string = Leaf` -/
def leaf : Entry where
  kind := .constructor
  name := "leaf"
  id := 1
  type := .named "Leaf" false
  generics := []
  arguments := [⟨"label", .string, none⟩]
  comment := none

/-- `fork#2 flags:# tag:%Leaf next:flags.0?Tree seen:flags.1?true any:!X = Tree` -/
def fork : Entry where
  kind := .constructor
  name := "fork"
  id := 2
  type := .named "Tree" false
  generics := []
  arguments := [⟨"flags", .flags, none⟩, ⟨"tag", .named "Leaf" true, none⟩,
    ⟨"next", .named "Tree" false, some ⟨"flags", 0⟩⟩, ⟨"seen", .presence, some ⟨"flags", 1⟩⟩,
    ⟨"any", .generic "X", none⟩]
  comment := none

def treeSchema : Schema := .of [leaf, fork] [] rfl

def leafValue : Value := .object "leaf" [("label", .string "a")]

def forkFields (next : List (String × Value)) : Fields :=
  [("any", .raw .empty)] ++ next ++ [("tag", leafValue)]

theorem conforms_fork {next : List (String × Value)}
    (h : Fills treeSchema ⟨"next", .named "Tree" false, some ⟨"flags", 0⟩⟩
      (Dict.get? (forkFields next) "next"))
    (tag : Dict.get? (forkFields next) "tag" = some leafValue)
    (seen : Dict.get? (forkFields next) "seen" = none) :
    Conforms treeSchema fork (forkFields next) := by
  have denotes : treeSchema.Denotes "Leaf" leaf :=
    .alone (u := ⟨"Leaf", ["leaf"], none⟩) (by decide) (by decide) rfl rfl (by decide) rfl
  have label : Conforms treeSchema leaf [("label", .string "a")] := by
    rw [conforms_iff]
    intro a ha
    cases List.mem_singleton.mp ha
    exact .value (.string (by decide))
  rw [conforms_iff, fork]
  simp only [List.forall_mem_cons, tag, seen]
  exact ⟨.flags _ rfl, .value (.bare denotes label), h, .absent (.inl rfl), .value (.raw _), by simp⟩

theorem encode_iff_conforms_fork : ∃ c, Schema.ofEntries [leaf, fork] [] = .ok treeSchema ∧
    ofSchema treeSchema {} = .ok c ∧
    (∃ b, c.encode (.name "fork") (forkFields [("next", .object "fork" (forkFields []))]) .empty =
      .ok () b) ∧
    ¬ Conforms treeSchema fork (forkFields [("next", leafValue)]) := by
  have hs : Schema.ofEntries [leaf, fork] [] = .ok treeSchema := rfl
  have hc : ofSchema treeSchema {} = .ok _ := rfl
  have iff := fun fields => encode_iff_conforms (by decide) (by decide) hc rfl (e := fork) (by decide)
    (.inl (Eq.refl (Key.name "fork"))) fields .empty
  refine ⟨_, hs, hc, (iff _).mpr ?_, fun h => ?_⟩
  · have behind : Conforms treeSchema fork (forkFields []) :=
      conforms_fork (.absent (.inr rfl)) rfl rfl
    exact conforms_fork (.value (.boxed (e := fork) ⟨by decide, by decide⟩ behind)) rfl rfl
  · obtain ⟨b, hb⟩ := (iff _).mpr h
    cases hb

end Codec

end TypeLang
