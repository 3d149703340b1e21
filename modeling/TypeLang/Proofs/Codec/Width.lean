import TypeLang.Proofs.Codec.Compiled
import TypeLang.Proofs.Codec.Readers

namespace TypeLang

open Read

namespace Widths

theorem put_cons (id i : UInt32) (width v : Nat) (widths : Widths) :
    put id width ((i, v) :: widths) = (i, if i = id then width else v) :: widths.put id width := by
  by_cases h : i = id
  · simp [put, h]
  · simp [put, h]

theorem keys_put (id : UInt32) (width : Nat) (widths : Widths) :
    (widths.put id width).map (·.1) = widths.map (·.1) := by
  rw [put, List.map_map]
  refine List.map_congr_left fun kv _ => ?_
  dsimp only [Function.comp]
  split
  · rfl
  · rfl

theorem keys_round (plans : List Plan) (widths : Widths) :
    (round plans widths).map (·.1) = widths.map (·.1) := by
  rw [round]
  induction plans generalizing widths with
  | nil => rfl
  | cons p rest ih => rw [List.foldl_cons, ih, keys_put]

theorem keys_settle (plans : List Plan) (rounds : Nat) (widths : Widths) :
    (settle plans rounds widths).map (·.1) = widths.map (·.1) := by
  induction rounds generalizing widths with
  | zero => rfl
  | succ n ih =>
    rw [settle]
    split
    · rfl
    · rw [ih, keys_round]

end Widths

namespace Codec

theorem within_eq_ok {packed plain : ByteArray} {r : Read Value} {c c' : Cursor} {v : Value}
    (h : within packed plain r c = .ok v c') :
    ∃ inner, r ⟨plain, 0, c.unpacked ++ [(packed.size, plain.size)]⟩ = .ok v inner ∧
      c' = { c with unpacked := inner.unpacked } := by
  rw [within] at h
  split at h
  · next a inner hr =>
    cases h
    exact ⟨inner, hr, rfl⟩
  · cases h

theorem readCounted_eq_ok {c : Codec} {width count : Nat} {r : Read Value} {d d' : Cursor}
    {v : Value} (h : c.readCounted width r count d = .ok v d') :
    c.countFault? width count d.remaining = none ∧
      ∃ items, readItems r count [] d = .ok items d' ∧ v = .vector items := by
  rw [readCounted] at h
  split at h
  · cases h
  · next hf =>
    obtain ⟨items, m, hi, h⟩ := bind_eq_ok.mp h
    cases h
    exact ⟨hf, items, hi, rfl⟩

theorem items_of_readItems {r : Read Value} {count : Nat} {before items : List Value}
    {d d' : Cursor} (h : readItems r count before d = .ok items d') :
    items.length = before.length + count ∧
      ∀ v ∈ items, v ∈ before ∨ ∃ e e', r e = .ok v e' := by
  induction count generalizing before d with
  | zero =>
    cases h
    exact ⟨List.length_reverse, fun v hv => .inl (List.mem_reverse.mp hv)⟩
  | succ n ih =>
    obtain ⟨v, m, hv, h⟩ := bind_eq_ok.mp h
    obtain ⟨length, read⟩ := ih h
    refine ⟨by rw [length, List.length_cons]; omega, fun v' hv' => ?_⟩
    rcases read v' hv' with hm | hm
    · rcases List.mem_cons.mp hm with rfl | hm
      · exact .inr ⟨d, m, hv⟩
      · exact .inl hm
    · exact .inr hm

theorem atLeast_readItems {w : Nat} {r : Read Value} (h : AtLeast w r) (count : Nat)
    (items : List Value) : AtLeast (count * w) (readItems r count items) := by
  induction count generalizing items with
  | zero =>
    rw [readItems, Nat.zero_mul]
    exact atLeast_pure _
  | succ n ih =>
    rw [readItems, Nat.succ_mul, Nat.add_comm]
    exact h.bind fun v => ih (v :: items)

theorem readLaw_atLeast_zero (c : Codec) : ReadLaw c (AtLeast 0) where
  pure a := atLeast_pure a
  throw e _ := atLeast_throw 0 e
  bind h h' := h.bind h'
  byte _ _ _ h := by
    have := length_left_of_byte h
    omega
  take n := (atLeast_take n).mono (Nat.zero_le n)
  within packed plain r _ d d' v h := by
    obtain ⟨inner, -, rfl⟩ := within_eq_ok h
    exact Nat.le_refl _
  countedAny count h d d' v hr := by
    obtain ⟨-, items, hi, -⟩ := readCounted_eq_ok hr
    exact (atLeast_readItems h count []).mono (Nat.zero_le _) hi
  countedAs elem count h d d' v hr := by
    obtain ⟨-, items, hi, -⟩ := readCounted_eq_ok hr
    exact (atLeast_readItems h count []).mono (Nat.zero_le _) hi

/-- No body takes fewer bytes than the widths say. -/
def Bounded (c : Codec) (w : Widths) : Prop :=
  ∀ p ∈ c.plans, ∀ n, AtLeast (w.body p.id) (readBody (c.readAs n) p)

theorem atLeast_readVector (c : Codec) (n width : Nat) (elem : Layout) :
    AtLeast 4 (c.readVector width (c.readAs n elem)) := by
  rw [readVector_eq]
  refine atLeast_word32.bind (w := 0) fun count d d' v hr => ?_
  obtain ⟨-, items, hi, -⟩ := readCounted_eq_ok hr
  have h := ((readLaw_atLeast_zero c).readers n).2.1 elem
  exact (atLeast_readItems h _ []).mono (Nat.zero_le _) hi

theorem atLeast_readUnpacked {c : Codec} {r : Read Value} (h : AtLeast 0 r) :
    AtLeast 4 (c.readUnpacked r) := by
  refine atLeast_bytes.bind (w := 0) fun packed => ?_
  split
  · exact atLeast_throw 0 _
  · exact (readLaw_atLeast_zero c).within packed _ h

theorem atLeast_readPackedAs (c : Codec) (n : Nat) (layout : Layout) :
    AtLeast 4 (c.readPackedAs n layout) := by
  cases n with
  | zero =>
    rw [readPackedAs]
    exact atLeast_throw 4 _
  | succ n =>
    rw [readPackedAs]
    exact atLeast_readUnpacked (((readLaw_atLeast_zero c).readers n).2.1 layout)

theorem atLeast_readAny (c : Codec) (n : Nat) : AtLeast 4 (c.readAny n) := by
  cases n with
  | zero =>
    rw [readAny]
    exact atLeast_throw 4 _
  | succ n =>
    have law := readLaw_atLeast_zero c
    obtain ⟨hAny, hAs, hPackedAny, -⟩ := law.readers n
    rw [readAny_succ]
    exact atLeast_word32.bind (w := 0) fun id => law.behind hAny hAs hPackedAny id

theorem Bounded.readAs {c : Codec} {w : Widths} (h : c.Bounded w) (n : Nat) (layout : Layout) :
    AtLeast (layout.width w) (c.readAs n layout) := by
  cases n with
  | zero =>
    rw [Codec.readAs]
    exact atLeast_throw _ _
  | succ n =>
    have law := readLaw_atLeast_zero c
    obtain ⟨hAny, hAs, -, -, hPackedBoxed⟩ := law.readers n
    cases layout with
    | int =>
      rw [Codec.readAs]
      exact (atLeast_word32.map _).map _
    | long =>
      rw [Codec.readAs]
      exact (atLeast_word64.map _).map _
    | int128 =>
      rw [Codec.readAs]
      exact (atLeast_take 16).map _
    | int256 =>
      rw [Codec.readAs]
      exact (atLeast_take 32).map _
    | double =>
      rw [Codec.readAs]
      exact (atLeast_word64.map _).map _
    | string =>
      rw [Codec.readAs]
      exact atLeast_string.map _
    | bytes =>
      rw [Codec.readAs]
      exact atLeast_bytes.map _
    | bool =>
      rw [Codec.readAs]
      exact atLeast_bool.map _
    | boxed union =>
      rw [Codec.readAs]
      refine atLeast_word32.bind (w := 0) fun id => ?_
      split
      · exact hPackedBoxed union
      · split
        · exact atLeast_throw 0 _
        · next p hp =>
          split
          · exact law.object hAs (mem_of_plan? hp)
          · exact atLeast_throw 0 _
    | bare target =>
      rw [Codec.readAs]
      split
      · exact atLeast_throw _ _
      · next p hp =>
        have := h p (mem_of_plan? hp) n
        rw [id_of_plan? hp] at this
        exact this.bind (w := 0) fun _ => atLeast_pure _
    | vector elem isBoxed =>
      cases isBoxed with
      | false => exact atLeast_readVector c n _ elem
      | true =>
        rw [readAs_boxedVector]
        refine atLeast_word32.bind (w := 4) fun id => ?_
        split
        · exact atLeast_readVector c n _ elem
        · split
          · exact atLeast_readPackedAs c n _
          · exact atLeast_throw 4 _
    | generic =>
      rw [Codec.readAs]
      exact atLeast_readAny c n

theorem atLeast_fillWord (words : Words) (slot : Nat) (word : UInt32) :
    AtLeast 0 (fillWord words slot word) := by
  rw [fillWord]
  split
  · exact atLeast_pure _
  · exact atLeast_throw 0 _

theorem atLeast_readGate (words : Words) (gate : Option Gate) :
    AtLeast 0 (readGate words gate) := by
  unfold readGate
  split
  · exact atLeast_pure _
  · split
    · exact atLeast_pure _
    · exact atLeast_throw 0 _

theorem Bounded.readFields {c : Codec} {w : Widths} (h : c.Bounded w) (n : Nat)
    (fields : List FieldPlan) (words : Words) (given : Fields) :
    AtLeast (fields.foldr (fun f rest => f.width w + rest) 0)
      (Codec.readFields (c.readAs n) fields words given) := by
  induction fields generalizing words given with
  | nil => exact atLeast_pure given
  | cons f rest ih =>
    rw [Codec.readFields, List.foldr_cons]
    cases hr : f.role with
    | flags slot =>
      simp only [FieldPlan.width, hr]
      refine atLeast_word32.bind fun word => ?_
      rw [← Nat.zero_add (List.foldr _ 0 rest)]
      exact (atLeast_fillWord words slot word).bind fun _ => ih _ _
    | presence gate =>
      simp only [FieldPlan.width, hr]
      exact (atLeast_readGate words gate).bind fun _ => ih _ _
    | value layout gate =>
      cases gate with
      | none =>
        simp only [FieldPlan.width, hr]
        exact (h.readAs n layout).bind fun _ => ih _ _
      | some g =>
        simp only [FieldPlan.width, hr]
        refine (atLeast_readGate words (some g)).bind fun isThere => ?_
        split
        · have := (h.readAs n layout).bind fun v => ih words (Dict.insert f.name v given)
          exact this.mono (Nat.le_add_left _ _)
        · exact ih _ _

theorem Bounded.readBody {c : Codec} {w : Widths} (h : c.Bounded w) (n : Nat) (p : Plan) :
    AtLeast (p.width w) (Codec.readBody (c.readAs n) p) := by
  refine ((h.readFields n _ _ _).bind fun _ => atLeast_pure _).mono ?_
  rw [Nat.add_zero]
  exact Nat.min_le_left _ _

theorem body_put (id other : UInt32) (width : Nat) (w : Widths) :
    (Widths.put id width w).body other = w.body other ∨
      other = id ∧ (Widths.put id width w).body other = width := by
  induction w with
  | nil => exact .inl rfl
  | cons row w ih =>
    obtain ⟨i, v⟩ := row
    rw [Widths.put_cons]
    simp only [Widths.body, List.lookup_cons] at ih ⊢
    cases hi : other == i with
    | false => exact ih
    | true =>
      obtain rfl := eq_of_beq hi
      by_cases h : other = id
      · exact .inr ⟨h, by simp [h]⟩
      · exact .inl (by simp [h])

theorem Bounded.put {c : Codec} {w : Widths} (ids : (c.plans.map (·.id)).Nodup)
    (h : c.Bounded w) {p : Plan} (hp : p ∈ c.plans) :
    c.Bounded (Widths.put p.id (p.width w) w) := by
  intro q hq n
  rcases body_put p.id q.id (p.width w) w with he | ⟨hid, he⟩
  · rw [he]
    exact h q hq n
  · have : q = p := by
      have hf := plan?_id ids hq
      rw [hid, plan?_id ids hp] at hf
      exact (Option.some.inj hf).symm
    rw [he, this]
    exact h.readBody n p

theorem Bounded.round {c : Codec} (ids : (c.plans.map (·.id)).Nodup) {plans : List Plan}
    (hp : ∀ p ∈ plans, p ∈ c.plans) {w : Widths} (h : c.Bounded w) :
    c.Bounded (Widths.round plans w) := by
  induction plans generalizing w with
  | nil => exact h
  | cons p plans ih =>
    exact ih (fun q hq => hp q (List.mem_cons_of_mem p hq)) (h.put ids (hp p List.mem_cons_self))

theorem Bounded.settle {c : Codec} (ids : (c.plans.map (·.id)).Nodup) (rounds : Nat) {w : Widths}
    (h : c.Bounded w) : c.Bounded (Widths.settle c.plans rounds w) := by
  induction rounds generalizing w with
  | zero => exact h
  | succ n ih =>
    rw [Widths.settle]
    split
    · exact h
    · exact ih (h.round ids fun _ hp => hp)

theorem body_zeros (plans : List Plan) (id : UInt32) :
    Widths.body (plans.map fun p => (p.id, 0)) id = 0 := by
  induction plans with
  | nil => rfl
  | cons p plans ih =>
    simp only [Widths.body, List.map_cons, List.lookup_cons] at ih ⊢
    cases id == p.id with
    | false => exact ih
    | true => rfl

theorem bounded_ofPlans {c : Codec} (ids : (c.plans.map (·.id)).Nodup) :
    c.Bounded (Widths.ofPlans c.plans) := by
  refine Bounded.settle ids _ fun p hp n => ?_
  rw [body_zeros]
  exact (readLaw_atLeast_zero c).body ((readLaw_atLeast_zero c).readers n).2.1 hp

theorem bounded_widths {s : Schema} {config : Config} {unpack : ByteArray → Option ByteArray}
    {c : Codec} (hc : ofSchema s config unpack = .ok c) : c.Bounded c.widths := by
  have h := ofSchema_eq_ok hc
  rw [h.widths]
  refine bounded_ofPlans ?_
  rw [h.ids]
  exact Schema.ids_nodup _

end Codec

end TypeLang
