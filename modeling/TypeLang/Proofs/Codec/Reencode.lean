import TypeLang.Proofs.Codec.Held
import TypeLang.Proofs.Codec.RoundTrip

namespace TypeLang

open Read Write

theorem Object.toValue_injective {o o' : Object} (h : o.toValue = o'.toValue) : o = o' := by
  cases o with
  | mk name fields =>
    cases o' with
    | mk name' fields' =>
      cases h
      rfl

namespace Codec

def HoldsObjects (c : Codec) (x : Place) : Prop :=
  ∀ y, c.Inside x y → y.2 = .generic → y.1.object?.isSome

/-- What makes a value come back when it is written and read within `n` levels. -/
structure Kept (c : Codec) (n : Nat) (v : Value) (layout : Layout) : Prop where
  writes : ∀ site, ∃ b, Writes (c.writeAs v layout site) b ()
  nests : c.Nests n (v, layout)
  regular : ∀ x, c.Inside (v, layout) x → c.Regular x ∧ c.Told x
  norm : c.norm v layout = v

def Keeps (c : Codec) (n : Nat) (layout : Layout) (r : Read Value) : Prop :=
  ∀ ⦃d d' v⦄, r d = .ok v d' → c.HoldsObjects (v, layout) → c.Kept n v layout

theorem HoldsObjects.inner {c : Codec} {x y : Place} (h : c.HoldsObjects x) (hy : y ∈ c.inner x) :
    c.HoldsObjects y := fun z hz => h z (.head hy hz)

theorem Kept.mono {c : Codec} {n : Nat} {v : Value} {layout : Layout} (h : c.Kept n v layout) :
    c.Kept (n + 1) v layout := { h with nests := h.nests.mono }

structure Leaf (c : Codec) (v : Value) (layout : Layout) : Prop where
  inner : c.inner (v, layout) = []
  regular : c.Regular (v, layout)
  told : c.Told (v, layout)
  norm : c.norm v layout = v

theorem keeps_leaf {c : Codec} {α : Type} {r : Read α} {g : α → Value} {layout : Layout} (n : Nat)
    (leaf : ∀ a, c.Leaf (g a) layout)
    (writes : ∀ a d d', r d = .ok a d' → ∀ site, ∃ b, Writes (c.writeAs (g a) layout site) b ()) :
    c.Keeps (n + 1) layout (do return g (← r)) := by
  intro d d' v hr _
  obtain ⟨a, m, ha, hr⟩ := bind_eq_ok.mp hr
  cases hr
  obtain ⟨inner, regular, told, norm⟩ := leaf a
  refine ⟨writes a d _ ha, ?_, forall_inside.mpr ⟨⟨regular, told⟩, ?_⟩, norm⟩
  · intro y hy
    rw [inner] at hy
    cases hy
  · rw [inner]
    exact List.forall_mem_nil _

theorem exists_writes_items {c : Codec} {items : List Value} {elem : Layout} {site : Site}
    (h : ∀ v ∈ items, ∃ b, Writes (c.writeAs v elem site) b ()) :
    ∃ b, Writes (c.writeItems items elem site) b () := by
  induction items with
  | nil => exact ⟨_, writes_pure ()⟩
  | cons v rest ih =>
    obtain ⟨b, hb⟩ := h v List.mem_cons_self
    obtain ⟨d, hd⟩ := ih fun v' hv' => h v' (List.mem_cons_of_mem v hv')
    exact ⟨b ++ d, hb.bind hd⟩

theorem keeps_readVector {c : Codec} {n : Nat} {elem : Layout}
    (h : c.Keeps n elem (c.readAs n elem)) (isBoxed : Bool) :
    c.Keeps (n + 1) (.vector elem isBoxed)
      (c.readVector (elem.width c.widths) (c.readAs n elem)) := by
  intro d d' v hr objects
  rw [readVector_eq] at hr
  obtain ⟨count, m, -, hr⟩ := bind_eq_ok.mp hr
  obtain ⟨fault, items, hi, rfl⟩ := readCounted_eq_ok hr
  obtain ⟨length, read⟩ := items_of_readItems hi
  rw [List.length_nil, Nat.zero_add] at length
  have kept : ∀ v ∈ items, c.Kept n v elem := by
    intro v hv
    obtain ⟨e, e', he⟩ := (read v hv).resolve_left List.not_mem_nil
    exact h he (objects.inner (mem_inner_vector hv elem isBoxed))
  have small : elem.width c.widths = 0 → items.length ≤ c.config.maxZeroWidthItems := by
    intro hw
    rw [countFault?, if_pos hw] at fault
    split at fault
    · cases fault
    · omega
  refine ⟨?_, ?_, ?_, ?_⟩
  · intro site
    obtain ⟨b, hb⟩ := exists_writes_items fun v hv => (kept v hv).writes site
    exact ⟨_, writes_vector.mpr ⟨b, hb, rfl⟩⟩
  · intro y hy
    obtain ⟨v, hv, rfl⟩ := List.mem_map.mp hy
    exact (kept v hv).nests
  · refine forall_inside.mpr ⟨⟨⟨?_, small⟩, trivial⟩, ?_⟩
    · rw [length]
      exact count.toNat_lt
    · intro y hy
      obtain ⟨v, hv, rfl⟩ := List.mem_map.mp hy
      exact (kept v hv).regular
  · change Value.vector (c.normItems items elem) = _
    rw [normItems_eq, List.map_congr_left fun v hv => (kept v hv).norm, List.map_id'']
    simp

theorem Keeps.mono {c : Codec} {n : Nat} {layout : Layout} {r : Read Value}
    (h : c.Keeps n layout r) : c.Keeps (n + 1) layout r :=
  fun _ _ _ hr objects => (h hr objects).mono

theorem keeps_readUnpacked {c : Codec} {n : Nat} {layout : Layout} {r : Read Value}
    (h : c.Keeps n layout r) : c.Keeps n layout (c.readUnpacked r) := by
  intro d d' v hr objects
  obtain ⟨packed, m, -, hr⟩ := bind_eq_ok.mp hr
  cases hu : c.unpack packed with
  | none =>
    rw [hu] at hr
    cases hr
  | some plain =>
    rw [hu] at hr
    obtain ⟨inner, hi, -⟩ := within_eq_ok hr
    exact h hi objects

structure KeptBody (c : Codec) (n : Nat) (p : Plan) (o : Object) (outer : Layout) : Prop where
  plan : c.plan? (.name o.name) = some p
  balanced : p.Balanced (Dict.get? o.fields)
  writes : ∃ b, Writes (writeBody p (c.pending o.fields)) b ()
  inner : ∀ y ∈ c.inner (o.toValue, outer), c.Nests n y ∧
    ∀ z, c.Inside y z → c.Regular z ∧ c.Told z
  norm : p.norm (c.normals o.fields) = o.fields

theorem kept_body {c : Codec} (sound : c.Sound) {n : Nat}
    (h : ∀ layout, c.Keeps n layout (c.readAs n layout)) {p : Plan} (hp : p ∈ c.plans)
    {outer : Layout} (ho : outer ≠ .generic) {o : Object} {d d' : Cursor}
    (hr : readBody (c.readAs n) p d = .ok o d') (objects : c.HoldsObjects (o.toValue, outer)) :
    c.KeptBody n p o outer := by
  have slots := sound.slotted p hp
  obtain ⟨words, name, held, hfields⟩ := held_of_readBody slots (sound.fieldNames p hp) hr
  have plan : c.plan? (.name o.name) = some p := by
    rw [name]
    exact plan?_name sound.names hp
  have balanced := Plan.balanced_of_held held
  have kept : ∀ f ∈ p.fields, ∀ layout gate v, f.role = .value layout gate →
      Dict.get? o.fields f.name = some v → c.Kept n v layout := by
    intro f hf layout gate v hrole hv
    obtain ⟨e, e', he⟩ := (held f hf).read_eq hrole hv
    exact h layout he (objects.inner (mem_inner_object ho plan hf hrole hv))
  refine ⟨plan, balanced, ?_, ?_, ?_⟩
  · refine ⟨_, (writes_writeBody (c.uniform_pending o.fields) p _).mpr
      ⟨?_, slots.finds _, ?_, rfl⟩⟩
    · rw [get?_pending_value]
      exact fun f hf => (held f hf).accepts
    · intro f hf layout gate v hrole hv
      rw [get?_pending] at hv
      obtain ⟨v', hv', rfl⟩ := Option.map_eq_some_iff.mp hv
      exact (kept f hf layout gate v' hrole hv').writes _
  · intro y hy
    change y ∈ c.inner (.object o.name o.fields, outer) at hy
    rw [inner_object c ho plan, List.mem_filterMap] at hy
    obtain ⟨f, hf, hy⟩ := hy
    split at hy
    · next layout gate hrole =>
      obtain ⟨v, hv, rfl⟩ := Option.map_eq_some_iff.mp hy
      have := kept f hf layout gate v hrole hv
      exact ⟨this.nests, this.regular⟩
    · cases hy
  · refine Eq.trans ?_ hfields.symm
    rw [Plan.norm, backs]
    congr 1
    refine List.filterMap_congr fun f hf => ?_
    congr 1
    rw [FieldPlan.norm?, FieldPlan.back?]
    cases hrole : f.role with
    | flags slot => rfl
    | presence gate =>
      cases gate with
      | none => rfl
      | some g =>
        have hg : f.gate? = some g := by rw [FieldPlan.gate?, hrole]
        dsimp only
        rw [get?_normals_value, (held f hf).isOn_eq hg, Option.all_some]
    | value layout gate =>
      dsimp only
      rw [get?_normals, Option.map_map]
      cases hv : Dict.get? o.fields f.name with
      | none => rfl
      | some v => exact congrArg some (kept f hf layout gate v hrole hv).norm

theorem KeptBody.boxed {c : Codec} {n : Nat} {p : Plan} {o : Object} {union : Option String}
    (h : c.KeptBody n p o (.boxed union)) (admits : c.admits union p)
    (packed : c.isPacked p.id = false) : c.Kept (n + 1) o.toValue (.boxed union) where
  writes site := by
    obtain ⟨b, hb⟩ := h.writes
    exact ⟨_, writes_writeBoxed h.plan admits hb⟩
  nests y hy := (h.inner y hy).1
  regular := by
    refine forall_inside.mpr ⟨⟨?_, ?_⟩, fun y hy => (h.inner y hy).2⟩
    · intro q hq
      cases h.plan.symm.trans hq
      exact h.balanced
    · intro q hq
      cases h.plan.symm.trans hq
      exact packed
  norm := by
    change c.norm (.object o.name o.fields) _ = _
    rw [norm_object h.plan, h.norm, name_of_plan? h.plan]

theorem KeptBody.bare {c : Codec} {n : Nat} {p : Plan} {o : Object} {target : UInt32}
    (h : c.KeptBody n p o (.bare target)) (hp : c.plan? (.id target) = some p) :
    c.Kept (n + 1) o.toValue (.bare target) where
  writes site := by
    obtain ⟨b, hb⟩ := h.writes
    refine ⟨b, ?_⟩
    rw [Object.toValue, writeAs, hp]
    dsimp only
    rw [if_pos (name_of_plan? h.plan).symm]
    exact hb
  nests y hy := (h.inner y hy).1
  regular := by
    refine forall_inside.mpr ⟨⟨?_, trivial⟩, fun y hy => (h.inner y hy).2⟩
    intro q hq
    cases h.plan.symm.trans hq
    exact h.balanced
  norm := by
    change c.norm (.object o.name o.fields) _ = _
    rw [norm_object h.plan, h.norm, name_of_plan? h.plan]

theorem keeps_readBoxed {c : Codec} (sound : c.Sound) {n : Nat}
    (h : ∀ layout, c.Keeps n layout (c.readAs n layout)) {union : Option String}
    {packed : Read Value} (hp : c.Keeps n (.boxed union) packed) :
    c.Keeps (n + 1) (.boxed union) (c.readBoxed union (c.readAs n) packed) := by
  intro d d' v hr objects
  obtain ⟨id, m, -, hr⟩ := bind_eq_ok.mp hr
  split at hr
  · exact (hp hr objects).mono
  · next hpacked =>
    cases hq : c.plan? (.id id) with
    | none =>
      rw [hq] at hr
      cases hr
    | some p =>
      rw [hq] at hr
      dsimp only at hr
      split at hr
      · next admits =>
        obtain ⟨o, m, ho, hr⟩ := bind_eq_ok.mp hr
        cases hr
        rw [Bool.not_eq_true, ← id_of_plan? hq] at hpacked
        exact (kept_body sound h (mem_of_plan? hq) (by simp) ho objects).boxed admits hpacked
      · cases hr

def KeepsAny (c : Codec) (n : Nat) (r : Read Value) : Prop :=
  ∀ ⦃d d' o⦄, r d = .ok (Object.toValue o) d' → c.HoldsObjects (o.toValue, .boxed none) →
    c.Kept n o.toValue (.boxed none) ∧ c.Told (o.toValue, .generic)

theorem KeepsAny.mono {c : Codec} {n : Nat} {r : Read Value} (h : c.KeepsAny n r) :
    c.KeepsAny (n + 1) r := by
  intro d d' o hr objects
  obtain ⟨kept, told⟩ := h hr objects
  exact ⟨kept.mono, told⟩

theorem keepsAny_readUnpacked {c : Codec} {n : Nat} {r : Read Value} (h : c.KeepsAny n r) :
    c.KeepsAny n (c.readUnpacked r) := by
  intro d d' o hr objects
  obtain ⟨packed, m, -, hr⟩ := bind_eq_ok.mp hr
  cases hu : c.unpack packed with
  | none =>
    rw [hu] at hr
    cases hr
  | some plain =>
    rw [hu] at hr
    obtain ⟨inner, hi, -⟩ := within_eq_ok hr
    exact h hi objects

theorem keepsAny_readAny {c : Codec} (sound : c.Sound) {n : Nat}
    (h : ∀ layout, c.Keeps n layout (c.readAs n layout))
    (hp : c.KeepsAny n (c.readPackedAny n)) : c.KeepsAny (n + 1) (c.readAny (n + 1)) := by
  intro d d' o hr objects
  rw [readAny_succ] at hr
  obtain ⟨id, m, -, hr⟩ := bind_eq_ok.mp hr
  rw [readBehind] at hr
  split at hr
  · rw [readVector_eq] at hr
    obtain ⟨count, m, -, hr⟩ := bind_eq_ok.mp hr
    obtain ⟨-, items, -, hv⟩ := readCounted_eq_ok hr
    cases hv
  · next hvector =>
    split at hr
    · cases hr
    · next htrue =>
      split at hr
      · cases hr
      · next hfalse =>
        split at hr
        · exact hp.mono hr objects
        · next hpacked =>
          cases hq : c.plan? (.id id) with
          | none =>
            rw [hq] at hr
            cases hr
          | some p =>
            rw [hq] at hr
            obtain ⟨o', m, ho, hr⟩ := bind_eq_ok.mp hr
            injection hr with hv _
            obtain rfl := Object.toValue_injective hv
            rw [Bool.not_eq_true, ← id_of_plan? hq] at hpacked
            have body := kept_body sound h (mem_of_plan? hq) (by simp) ho objects
            refine ⟨body.boxed (by simp [admits]) hpacked, fun q hq' => ?_⟩
            cases body.plan.symm.trans hq'
            rw [id_of_plan? hq]
            exact ⟨hvector, htrue, hfalse⟩

theorem keeps_generic {c : Codec} {n : Nat} {r : Read Value} (h : c.KeepsAny n r) :
    c.Keeps (n + 1) .generic r := by
  intro d d' v hr objects
  have hv := objects _ .refl rfl
  cases v with
  | object name fields =>
    have hi : c.inner (.object name fields, .generic) = [(.object name fields, .boxed none)] := rfl
    obtain ⟨kept, told⟩ := h (o := ⟨name, fields⟩) hr (objects.inner List.mem_cons_self)
    refine ⟨kept.writes, ?_, forall_inside.mpr ⟨⟨(kept.regular _ .refl).1, told⟩, ?_⟩, kept.norm⟩
    · rw [Nests, hi]
      exact List.forall_mem_singleton.mpr kept.nests
    · rw [hi]
      exact List.forall_mem_singleton.mpr kept.regular
  | _ => cases hv

/-- All readers return what comes back: by induction on the levels. -/
theorem keeps_readers {c : Codec} (sound : c.Sound) (n : Nat) :
    (∀ layout, c.Keeps n layout (c.readAs n layout)) ∧
      (∀ layout, c.Keeps n layout (c.readPackedAs n layout)) ∧
      (∀ union, c.Keeps n (.boxed union) (c.readPackedBoxed n union)) ∧
      c.KeepsAny n (c.readAny n) ∧ c.KeepsAny n (c.readPackedAny n) := by
  induction n with
  | zero =>
    have tooDeep : ∀ {d d' : Cursor} {v : Value}, c.tooDeep d ≠ .ok v d' := fun h => nomatch h
    simp only [readAny, readAs, readPackedAny, readPackedAs, readPackedBoxed]
    exact ⟨fun _ _ _ _ h => absurd h tooDeep, fun _ _ _ _ h => absurd h tooDeep,
      fun _ _ _ _ h => absurd h tooDeep, fun _ _ _ h => absurd h tooDeep,
      fun _ _ _ h => absurd h tooDeep⟩
  | succ n ih =>
    obtain ⟨hAs, hPackedAs, hPackedBoxed, hAny, hPackedAny⟩ := ih
    refine ⟨?_, ?_, ?_, ?_, ?_⟩
    · intro layout
      cases layout with
      | boxed union =>
        rw [readAs]
        exact keeps_readBoxed sound hAs (hPackedBoxed union)
      | bare target =>
        intro d d' v hr objects
        rw [readAs] at hr
        cases hq : c.plan? (.id target) with
        | none =>
          rw [hq] at hr
          cases hr
        | some p =>
          rw [hq] at hr
          obtain ⟨o, m, ho, hr⟩ := bind_eq_ok.mp hr
          cases hr
          exact (kept_body sound hAs (mem_of_plan? hq) (by simp) ho objects).bare hq
      | vector elem isBoxed =>
        cases isBoxed with
        | false => exact keeps_readVector (hAs elem) false
        -- a packed vector was read with a level less, but it is written without the packing
        | true =>
          intro d d' v hr objects
          rw [readAs_boxedVector] at hr
          obtain ⟨id, m, -, hr⟩ := bind_eq_ok.mp hr
          split at hr
          · exact keeps_readVector (hAs elem) true hr objects
          · split at hr
            · exact (hPackedAs _).mono hr objects
            · cases hr
      | generic =>
        rw [readAs]
        exact keeps_generic hAny
      | int =>
        rw [readAs]
        exact keeps_leaf n (fun _ => ⟨rfl, trivial, trivial, rfl⟩) fun _ _ _ _ _ =>
          ⟨_, writes_emit _⟩
      | long =>
        rw [readAs]
        exact keeps_leaf n (fun _ => ⟨rfl, trivial, trivial, rfl⟩) fun _ _ _ _ _ =>
          ⟨_, writes_emit _⟩
      | int128 =>
        rw [readAs]
        exact keeps_leaf n (fun _ => ⟨rfl, trivial, trivial, rfl⟩) fun _ _ _ _ _ =>
          ⟨_, writes_emit _⟩
      | int256 =>
        rw [readAs]
        exact keeps_leaf n (fun _ => ⟨rfl, trivial, trivial, rfl⟩) fun _ _ _ _ _ =>
          ⟨_, writes_emit _⟩
      | double =>
        rw [readAs]
        exact keeps_leaf n (fun _ => ⟨rfl, trivial, trivial, rfl⟩) fun _ _ _ _ _ =>
          ⟨_, writes_emit _⟩
      | bool =>
        rw [readAs]
        exact keeps_leaf n (fun _ => ⟨rfl, trivial, trivial, rfl⟩) fun _ _ _ _ _ =>
          ⟨_, writes_emit _⟩
      | string =>
        rw [readAs]
        exact keeps_leaf n (fun _ => ⟨rfl, trivial, trivial, rfl⟩) fun s d d' h _ =>
          ⟨_, writes_bytes (length_left_of_bytes (bytes_of_string h)).1⟩
      | bytes =>
        rw [readAs]
        exact keeps_leaf n (fun _ => ⟨rfl, trivial, trivial, rfl⟩) fun b d d' h _ =>
          ⟨_, writes_bytes (length_left_of_bytes h).1⟩
    · intro layout
      rw [readPackedAs]
      exact (keeps_readUnpacked (hAs layout)).mono
    · intro union
      rw [readPackedBoxed]
      exact keeps_readUnpacked (keeps_readBoxed sound hAs (hPackedBoxed union))
    · exact keepsAny_readAny sound hAs hPackedAny
    · rw [readPackedAny]
      exact (keepsAny_readUnpacked hAny).mono

section

variable {s : Schema} {config : Config} {unpack : ByteArray → Option ByteArray} {c : Codec}

/-- An object that has been decoded can be encoded, and decoding what is written then returns it and
takes all of it. -/
theorem encodeObject_decodeAny
    (kinds : ∀ e ∈ s.entries, ∀ f ∈ s.entries, e.name = f.name → e.kind = f.kind)
    (arguments : ∀ e ∈ s.entries, (e.arguments.map (·.name)).Nodup)
    (hc : ofSchema s config unpack = .ok c) {d d' : Cursor} {o : Object}
    (h : c.decodeAny d = .ok o.toValue d')
    (objects : c.HoldsObjects (o.toValue, .boxed none)) :
    ∃ b, (∀ buffer, c.encodeObject o buffer = .ok () (buffer ++ b)) ∧ c.toBytes o = .ok b ∧
      c.decodeAny (.ofBytes b) = .ok o.toValue ⟨b, b.size, []⟩ := by
  have sound := sound_ofSchema kinds arguments hc
  obtain ⟨kept, told⟩ := (keeps_readers sound c.config.maxDepth).2.2.2.1 (rewinding_eq_ok h) objects
  obtain ⟨b, hb⟩ := kept.writes ⟨o.name, ⟨"", .int, .presence none⟩⟩
  have encoded := writes_encodeObject hb
  have taken := decodeAny_of_writes sound hb kept.nests kept.regular told
  rw [kept.norm] at taken
  refine ⟨b, encoded, ?_, ?_⟩
  · rw [toBytes, encoded .empty, ByteArray.empty_append]
  · rw [taken (.ofBytes b) [] (by simp), length_octets]
    simp [Cursor.move, Cursor.ofBytes]

end

def loosePoint : ByteArray :=
  ⟨#[1, 0, 0, 0, 3, 0, 0, 0x80, 7, 0, 0, 0, 8, 0, 0, 0,
    0x15, 0xc4, 0xb5, 0x1c, 1, 0, 0, 0, 2, 104, 105, 9]⟩

def pointObject : Object :=
  ⟨"point", [("seen", .bool true), ("tags", .vector [.bytes ⟨#[104, 105]⟩]), ("x", .int 7),
    ("y", .int 8)]⟩

theorem encodeObject_decodeAny_point : ∃ d b,
    pointCodec.decodeAny (.ofBytes loosePoint) = .ok pointObject.toValue d ∧
      pointCodec.toBytes pointObject = .ok b ∧ b ≠ loosePoint ∧
      pointCodec.decodeAny (.ofBytes b) = .ok pointObject.toValue ⟨b, b.size, []⟩ := by
  have h : pointCodec.decodeAny (.ofBytes loosePoint) =
      .ok pointObject.toValue ⟨loosePoint, 28, []⟩ := by rfl
  have leaf : ∀ {x : Place}, pointCodec.inner x = [] → x.2 ≠ .generic →
      pointCodec.HoldsObjects x := fun hi hl =>
    forall_inside.mpr ⟨fun h => absurd h hl, by simp [hi]⟩
  have objects : pointCodec.HoldsObjects (pointObject.toValue, .boxed none) := by
    refine forall_inside.mpr ⟨by simp, ?_⟩
    change ∀ y ∈ [(Value.int 7, Layout.int), (Value.int 8, Layout.int),
      (Value.vector [Value.bytes ⟨#[104, 105]⟩], Layout.vector .bytes true)],
      pointCodec.HoldsObjects y
    simp only [List.forall_mem_cons]
    refine ⟨leaf rfl (by simp), leaf rfl (by simp), forall_inside.mpr ⟨by simp, ?_⟩, by simp⟩
    change ∀ y ∈ [(Value.bytes ⟨#[104, 105]⟩, Layout.bytes)], pointCodec.HoldsObjects y
    exact List.forall_mem_singleton.mpr (leaf rfl (by simp))
  obtain ⟨b, -, hb, hd⟩ := encodeObject_decodeAny (by decide) (by decide) ofSchema_point
    h objects
  have written : pointCodec.toBytes pointObject = .ok ⟨#[1, 0, 0, 0, 3, 0, 0, 0, 7, 0, 0, 0,
    8, 0, 0, 0, 0x15, 0xc4, 0xb5, 0x1c, 1, 0, 0, 0, 2, 104, 105, 0]⟩ := by rfl
  rw [hb] at written
  injection written with written
  refine ⟨_, b, h, hb, ?_, hd⟩
  rw [written]
  decide

end Codec

end TypeLang
