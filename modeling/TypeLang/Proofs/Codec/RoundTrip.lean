import TypeLang.Proofs.Codec.Normal

namespace TypeLang

open Read Write

namespace Codec

inductive Kinded : Value → Layout → Prop
  | int (n : Int32) : Kinded (.int n) .int
  | long (n : Int64) : Kinded (.long n) .long
  | int128 (b : Block 16) : Kinded (.int128 b) .int128
  | int256 (b : Block 32) : Kinded (.int256 b) .int256
  | double (d : Double) : Kinded (.double d) .double
  | string (s : String) : Kinded (.string s) .string
  | text (s : String) : Kinded (.string s) .bytes
  | bytes (b : ByteArray) : Kinded (.bytes b) .bytes
  | bool (b : Bool) : Kinded (.bool b) .bool
  | vector (items : List Value) (elem : Layout) (isBoxed : Bool) :
      Kinded (.vector items) (.vector elem isBoxed)
  | boxed (name : String) (fields : Fields) (union : Option String) :
      Kinded (.object name fields) (.boxed union)
  | bare (name : String) (fields : Fields) (target : UInt32) :
      Kinded (.object name fields) (.bare target)
  | generic (name : String) (fields : Fields) : Kinded (.object name fields) .generic
  | raw (b : ByteArray) : Kinded (.raw b) .generic

theorem kinded_of_writes {c : Codec} {v : Value} {layout : Layout} {site : Site} {b : ByteArray}
    (h : Writes (c.writeAs v layout site) b ()) : Kinded v layout := by
  unfold writeAs at h
  split at h
  · exact .int _
  · exact .long _
  · exact .int128 _
  · exact .int256 _
  · exact .double _
  · exact .string _
  · exact .text _
  · exact .bytes _
  · exact .bool _
  · exact .vector _ _ _
  · exact .boxed _ _ _
  · exact .generic _ _
  · exact .bare _ _ _
  · exact .raw _
  · exact absurd h (not_writes_throw _ _ _)

theorem takes_readItems {c : Codec} {r : Read Value} {elem : Layout} {site : Site}
    {items : List Value} {b : ByteArray} (h : Writes (c.writeItems items elem site) b ())
    (hr : ∀ v ∈ items, ∀ b, Writes (c.writeAs v elem site) b () →
      Takes r (octets b) (c.norm v elem) []) (before : List Value) :
    Takes (readItems r items.length before) (octets b)
      (before.reverse ++ c.normItems items elem) [] := by
  induction items generalizing b before with
  | nil =>
    obtain ⟨rfl, -⟩ := h.unique (writes_pure ())
    rw [normItems, List.append_nil]
    exact takes_pure _
  | cons v rest ih =>
    obtain ⟨_, d, e, hd, he, rfl⟩ := h.of_bind (c.uniform_writeAs v elem site)
      fun _ => c.uniform_writeItems rest elem site
    rw [octets_append, normItems]
    refine (hr v List.mem_cons_self d hd).bind (u := []) ?_
    have := ih he (fun v' hv' => hr v' (List.mem_cons_of_mem v hv')) (c.norm v elem :: before)
    simpa using this

theorem takes_readVector {c : Codec} {n : Nat} {elem : Layout} {site : Site}
    {items : List Value} {b : ByteArray} (bounded : c.Bounded c.widths)
    (h : Writes (c.writeItems items elem site) b ())
    (length : items.length < UInt32.size)
    (width : elem.width c.widths = 0 → items.length ≤ c.config.maxZeroWidthItems)
    (hr : ∀ v ∈ items, ∀ b, Writes (c.writeAs v elem site) b () →
      Takes (c.readAs n elem) (octets b) (c.norm v elem) []) :
    Takes (c.readVector (elem.width c.widths) (c.readAs n elem))
      (octets (Wire.word32 (UInt32.ofNat items.length) ++ b)) (.vector (c.normItems items elem))
      [] := by
  have taken := takes_readItems h hr []
  have enough := taken.le_length (atLeast_readItems (bounded.readAs n elem) items.length [])
  rw [readVector_eq, octets_append]
  refine (takes_word32 _).bind (u := []) ?_
  rw [UInt32.toNat_ofNat', Nat.mod_eq_of_lt length]
  intro d t hd
  have fault : c.countFault? (elem.width c.widths) items.length d.remaining = none := by
    rw [countFault?]
    split
    · next hw => rw [if_neg (Nat.not_lt.mpr (width hw))]
    · next hw =>
      have : items.length ≤ d.remaining / elem.width c.widths := by
        rw [Nat.le_div_iff_mul_le (Nat.pos_of_ne_zero hw), ← d.length_left, hd,
          List.length_append]
        omega
      rw [if_neg (Nat.not_lt.mpr this)]
  rw [readCounted]
  rw [fault]
  dsimp only
  rw [bind_of_ok (taken d t hd)]
  rfl

theorem takes_body {c : Codec} (sound : c.Sound) {n : Nat} {p : Plan} (hp : p ∈ c.plans)
    {fields : Fields} (balanced : p.Balanced (Dict.get? fields)) {b : ByteArray}
    (h : Writes (writeBody p (c.pending fields)) b ())
    (hr : ∀ f ∈ p.fields, ∀ layout gate v site b, f.role = .value layout gate →
      Dict.get? fields f.name = some v → Writes (c.writeAs v layout site) b () →
      Takes (c.readAs n layout) (octets b) (c.norm v layout) []) :
    Takes (readBody (c.readAs n) p) (octets b) ⟨p.name, p.norm (c.normals fields)⟩ [] := by
  obtain ⟨accepts, -, writable, rfl⟩ := (writes_writeBody (c.uniform_pending fields) p b).mp h
  have slots := sound.slotted p hp
  rw [get?_pending_value] at accepts ⊢
  have back : backs (p.words (Dict.get? fields)) (FieldPlan.norm? (c.normals fields)) p.fields =
      p.norm (c.normals fields) := by
    rw [← get?_normals_value c fields] at balanced ⊢
    rw [backs, Plan.norm]
    congr 1
    refine List.filterMap_congr fun f hf => ?_
    rw [balanced.back?_eq slots hf]
  rw [← back]
  refine takes_readBody slots (p.length_words _) ?_ ?_
  · intro f hf layout gate hrole hset
    rw [← balanced.inStep.isOn_eq slots hf (accepts f hf) hrole,
      FieldPlan.isOn_value hrole] at hset
    obtain ⟨v, hv⟩ := Option.isSome_iff_exists.mp hset
    have hp : Dict.get? (c.pending fields) f.name = some ⟨v, c.writeAs v⟩ := by
      rw [get?_pending, hv, Option.map_some]
    obtain ⟨d, hd⟩ := writable f hf layout gate _ hrole hp
    refine ⟨d, c.norm v layout, ?_, ?_, hr f hf layout gate v _ d hrole hv hd⟩
    · simp [FieldPlan.payload?, hrole, hp, hd.output?_eq]
    · simp [FieldPlan.norm?, hrole, get?_normals, hv]
  · intro f hf layout gate hrole hset
    rw [← balanced.inStep.isOn_eq slots hf (accepts f hf) hrole,
      FieldPlan.isOn_value hrole] at hset
    have hv := Option.not_isSome_iff_eq_none.mp (Bool.eq_false_iff.mp hset)
    refine ⟨?_, ?_⟩
    · simp [FieldPlan.payload?, hrole, get?_pending, hv]
    · simp [FieldPlan.norm?, hrole, get?_normals, hv]

theorem norm_object {c : Codec} {name : String} {p : Plan} (h : c.plan? (.name name) = some p)
    (fields : Fields) (layout : Layout) :
    c.norm (.object name fields) layout =
      (⟨p.name, p.norm (c.normals fields)⟩ : Object).toValue := by
  simp only [norm, h, name_of_plan? h, Object.toValue]

theorem readAny_eq {c : Codec} {n : Nat} {id : UInt32} {d : Cursor} {t : List UInt8}
    (hd : d.left = octets (Wire.word32 id) ++ t) (hv : id ≠ Id.vector) (ht : id ≠ Id.boolTrue)
    (hf : id ≠ Id.boolFalse) (hp : c.isPacked id = false) :
    c.readAny n d = c.readAs n (.boxed none) d := by
  cases n with
  | zero => rfl
  | succ n =>
    have hw := takes_word32 id d t hd
    rw [readAny_succ, readAs, readBoxed, bind_of_ok hw, bind_of_ok hw]
    rw [readBehind_eq hv ht hf hp, hp]
    cases c.plan? (.id id) with
    | none => rfl
    | some p => simp [admits]

section

variable {c : Codec} {n : Nat} {site : Site} {b : ByteArray}

def ReadsInner (c : Codec) (n : Nat) (x : Place) : Prop :=
  ∀ v layout site b, (v, layout) ∈ c.inner x → Writes (c.writeAs v layout site) b () →
    Takes (c.readAs n layout) (octets b) (c.norm v layout) []

theorem takes_vector (bounded : c.Bounded c.widths) {items : List Value} {elem : Layout}
    {isBoxed : Bool}
    (h : Writes (c.writeAs (.vector items) (.vector elem isBoxed) site) b ())
    (here : c.Regular (.vector items, .vector elem isBoxed))
    (inner : c.ReadsInner n (.vector items, .vector elem isBoxed)) :
    Takes (c.readAs (n + 1) (.vector elem isBoxed)) (octets b)
      (c.norm (.vector items) (.vector elem isBoxed)) [] := by
  obtain ⟨length, width⟩ := here
  obtain ⟨body, hitems, rfl⟩ := writes_vector.mp h
  have read := takes_readVector (n := n) bounded hitems length width fun v hv b =>
    inner v elem site b (mem_inner_vector hv _ _)
  cases isBoxed with
  | false =>
    rw [readAs_vector, if_neg Bool.false_ne_true, ByteArray.empty_append]
    exact read
  | true =>
    rw [readAs_boxedVector, if_pos rfl, octets_append]
    refine (takes_word32 Id.vector).bind (u := []) ?_
    rw [if_pos rfl]
    exact read

section

variable {name : String} {fields : Fields}

theorem takes_boxed (sound : c.Sound) {union : Option String}
    (h : Writes (c.writeAs (.object name fields) (.boxed union) site) b ())
    (here : c.Regular (.object name fields, .boxed union))
    (told : c.Told (.object name fields, .boxed union))
    (inner : c.ReadsInner n (.object name fields, .boxed union)) :
    Takes (c.readAs (n + 1) (.boxed union)) (octets b)
      (c.norm (.object name fields) (.boxed union)) [] := by
  rw [writeAs] at h
  obtain ⟨p, body, hp, ha, hb, rfl⟩ := writes_of_writeBoxed h
  have hid := plan?_id sound.ids (mem_of_plan? hp)
  have hbody := takes_body (n := n) sound (mem_of_plan? hp) (here p hp) hb
    fun f hf layout gate v site b hr hv =>
      inner v layout site b (mem_inner_object (by simp) hp hf hr hv)
  rw [readAs, readBoxed, octets_append, norm_object hp]
  refine (takes_word32 p.id).bind (u := []) ?_
  rw [told p hp, hid, if_neg (by simp)]
  dsimp only
  rw [if_pos ha]
  exact hbody.map Object.toValue

theorem takes_bare (sound : c.Sound) {target : UInt32}
    (h : Writes (c.writeAs (.object name fields) (.bare target) site) b ())
    (here : c.Regular (.object name fields, .bare target))
    (inner : c.ReadsInner n (.object name fields, .bare target)) :
    Takes (c.readAs (n + 1) (.bare target)) (octets b)
      (c.norm (.object name fields) (.bare target)) [] := by
  obtain ⟨p, hq, rfl, hb⟩ := writes_bare.mp h
  have hp := plan?_name sound.names (mem_of_plan? hq)
  have hbody := takes_body (n := n) sound (mem_of_plan? hq) (here p hp) hb
    fun f hf layout gate v site b hr hv =>
      inner v layout site b (mem_inner_object (by simp) hp hf hr hv)
  rw [readAs, hq, norm_object hp]
  exact hbody.map Object.toValue

theorem takes_generic (h : Writes (c.writeAs (.object name fields) .generic site) b ())
    (told : c.Told (.object name fields, .generic))
    (toldBoxed : c.Told (.object name fields, .boxed none))
    (inner : c.ReadsInner n (.object name fields, .generic)) :
    Takes (c.readAs (n + 1) .generic) (octets b) (c.norm (.object name fields) .generic) [] := by
  have taken := inner _ _ site b List.mem_cons_self h
  rw [writeAs] at h
  obtain ⟨p, body, hp, -, hb, rfl⟩ := writes_of_writeBoxed h
  obtain ⟨hvector, htrue, hfalse⟩ := told p hp
  rw [readAs, norm_object hp, ← norm_object hp fields (.boxed none)]
  intro d t hd
  have hid : d.left = octets (Wire.word32 p.id) ++ (octets body ++ t) := by
    rw [hd, octets_append, List.append_assoc]
  rw [readAny_eq hid hvector htrue hfalse (toldBoxed p hp), taken d t hd]

end

end

/-- A value is read as it was written: by induction on the levels, which suffice for what is inside
its place as well. -/
theorem takes_of_writes {c : Codec} (sound : c.Sound) {n : Nat} {v : Value} {layout : Layout}
    {site : Site} {b : ByteArray} (h : Writes (c.writeAs v layout site) b ())
    (nests : c.Nests n (v, layout))
    (regular : ∀ x, c.Inside (v, layout) x → c.Regular x ∧ c.Told x) :
    Takes (c.readAs n layout) (octets b) (c.norm v layout) [] := by
  induction n generalizing v layout site b with
  | zero => exact nests.elim
  | succ n ih =>
    obtain ⟨here, told⟩ := regular _ .refl
    have inner : c.ReadsInner n (v, layout) := fun v' layout' site b hi hw =>
      ih hw (nests _ hi) fun x hx => regular x (.head hi hx)
    cases kinded_of_writes h with
    | int k =>
      rw [writeAs] at h
      rw [h.of_emit, readAs]
      exact (takes_int k).map Value.int
    | long k =>
      rw [writeAs] at h
      rw [h.of_emit, readAs]
      exact (takes_long k).map Value.long
    | int128 k =>
      rw [writeAs] at h
      rw [h.of_emit, readAs]
      exact (takes_take k.val k.property).map Value.int128
    | int256 k =>
      rw [writeAs] at h
      rw [h.of_emit, readAs]
      exact (takes_take k.val k.property).map Value.int256
    | double d =>
      rw [writeAs] at h
      rw [h.of_emit, readAs]
      exact (takes_double d).map Value.double
    | string s =>
      rw [writeAs] at h
      obtain ⟨hs, rfl⟩ := h.of_bytes
      rw [readAs]
      exact (takes_string hs).map Value.string
    | text s =>
      rw [writeAs] at h
      obtain ⟨hs, rfl⟩ := h.of_bytes
      rw [readAs]
      exact (takes_bytes hs).map Value.bytes
    | bytes k =>
      rw [writeAs] at h
      obtain ⟨hs, rfl⟩ := h.of_bytes
      rw [readAs]
      exact (takes_bytes hs).map Value.bytes
    | bool k =>
      rw [writeAs] at h
      rw [h.of_emit, readAs]
      exact (takes_bool k).map Value.bool
    | vector items elem isBoxed => exact takes_vector sound.bounded h here inner
    | boxed name fields union => exact takes_boxed sound h here told inner
    | bare name fields target => exact takes_bare sound h here inner
    | generic name fields =>
      exact takes_generic h told (regular _ (.single List.mem_cons_self)).2 inner
    | raw k => exact here.elim

theorem decodeAny_of_writes {c : Codec} (sound : c.Sound) {o : Object} {b : ByteArray}
    (h : Writes (c.writeBoxed none o.name (c.pending o.fields)) b ())
    (nests : c.Nests c.config.maxDepth (o.toValue, .boxed none))
    (regular : ∀ x, c.Inside (o.toValue, .boxed none) x → c.Regular x ∧ c.Told x)
    (builtin : ∀ p, c.plan? (.name o.name) = some p →
      p.id ≠ Id.vector ∧ p.id ≠ Id.boolTrue ∧ p.id ≠ Id.boolFalse) :
    Takes c.decodeAny (octets b) (c.norm o.toValue (.boxed none)) [] := by
  let site : Site := ⟨o.name, ⟨"", .int, .presence none⟩⟩
  have hw : Writes (c.writeAs o.toValue (.boxed none) site) b () := h
  have taken := takes_of_writes sound hw nests regular
  obtain ⟨p, body, hp, -, -, rfl⟩ := writes_of_writeBoxed h
  obtain ⟨hvector, htrue, hfalse⟩ := builtin p hp
  have hpacked := (regular _ .refl).2 p hp
  intro d t hd
  have hid : d.left = octets (Wire.word32 p.id) ++ (octets body ++ t) := by
    rw [hd, octets_append, List.append_assoc]
  rw [decodeAny, rewinding, readAny_eq hid hvector htrue hfalse hpacked, taken d t hd]

theorem told_of_ids {c : Codec} (ids : ∀ p ∈ c.plans,
    p.id ∉ [Id.vector, Id.boolTrue, Id.boolFalse, Id.gzipPacked]) (x : Place) : c.Told x := by
  simp only [List.mem_cons, List.not_mem_nil, or_false, not_or] at ids
  unfold Told
  split
  · intro p hp
    simp [isPacked, ids p (mem_of_plan? hp)]
  · intro p hp
    obtain ⟨hvector, htrue, hfalse, -⟩ := ids p (mem_of_plan? hp)
    exact ⟨hvector, htrue, hfalse⟩
  · trivial

section

variable {s : Schema} {config : Config} {unpack : ByteArray → Option ByteArray} {c : Codec}

/-- Decoding returns what has been encoded, up to what `norm` says, and takes no more. -/
theorem decodeAny_encodeObject
    (ids : ∀ e ∈ s.entries, e.id ∉ [Id.vector, Id.boolTrue, Id.boolFalse, Id.gzipPacked])
    (kinds : ∀ e ∈ s.entries, ∀ f ∈ s.entries, e.name = f.name → e.kind = f.kind)
    (arguments : ∀ e ∈ s.entries, (e.arguments.map (·.name)).Nodup)
    (hc : ofSchema s config unpack = .ok c) {o : Object} {buffer b : ByteArray}
    (h : c.encodeObject o buffer = .ok () (buffer ++ b))
    (regular : ∀ x, c.Inside (o.toValue, .boxed none) x → c.Regular x)
    (nests : c.Nests config.maxDepth (o.toValue, .boxed none)) (t : ByteArray) :
    c.decodeAny (.ofBytes (b ++ t)) =
      .ok (c.norm o.toValue (.boxed none)) ⟨b ++ t, b.size, []⟩ := by
  have sound := sound_ofSchema kinds arguments hc
  have told : ∀ x, c.Told x := by
    apply told_of_ids
    intro p hp
    obtain ⟨e, he, hep⟩ := (ofSchema_eq_ok hc).entry hp
    rw [hep.id]
    exact ids e he
  rw [← (ofSchema_eq_ok hc).config] at nests
  have taken := decodeAny_of_writes sound (writes_of_encodeObject h) nests
    (fun x hx => ⟨regular x hx, told x⟩)
    (told (o.toValue, .generic))
  rw [taken _ (octets t) (by rw [Cursor.left_ofBytes, octets_append]), length_octets]
  simp [Cursor.move, Cursor.ofBytes]

end

theorem decodeAny_encodeObject_point : ∃ o b,
    pointCodec.encodeObject o .empty = .ok () (.empty ++ b) ∧
      ∀ t, pointCodec.decodeAny (.ofBytes (b ++ t)) = .ok
        (.object "point" [("seen", .bool true), ("tags", .vector [.bytes "hi".toUTF8]),
          ("x", .int 7), ("y", .int 8)]) ⟨b ++ t, b.size, []⟩ := by
  let o : Object := ⟨"point", [("more", .int 1), ("seen", .bool true),
    ("tags", .vector [.string "hi"]), ("x", .int 7), ("y", .int 8)]⟩
  have regular : ∀ x, pointCodec.Inside (o.toValue, .boxed none) x → pointCodec.Regular x := by
    have leaf : ∀ {x : Place}, pointCodec.inner x = [] → pointCodec.Regular x →
        ∀ y, pointCodec.Inside x y → pointCodec.Regular y := fun hi hr =>
      forall_inside.mpr ⟨hr, by simp [hi]⟩
    refine forall_inside.mpr ⟨?_, ?_⟩
    · intro p hp
      cases hp
      decide
    · change ∀ y ∈ [(Value.int 7, Layout.int), (Value.int 8, Layout.int),
          (Value.vector [Value.string "hi"], Layout.vector .bytes true)], _
      simp only [List.forall_mem_cons]
      refine ⟨leaf rfl trivial, leaf rfl trivial, forall_inside.mpr ⟨⟨by decide, by decide⟩, ?_⟩,
        by simp⟩
      change ∀ y ∈ [(Value.string "hi", Layout.bytes)], _
      rw [List.forall_mem_singleton]
      exact leaf rfl trivial
  let b : ByteArray := ⟨#[1, 0, 0, 0, 3, 0, 0, 0, 7, 0, 0, 0, 8, 0, 0, 0,
    0x15, 0xc4, 0xb5, 0x1c, 1, 0, 0, 0, 2, 104, 105, 0]⟩
  have h : pointCodec.encodeObject o .empty = .ok () (.empty ++ b) := rfl
  exact ⟨o, b, h, decodeAny_encodeObject (by decide) (by decide) (by decide) ofSchema_point h
    regular (by decide)⟩

end Codec

end TypeLang
