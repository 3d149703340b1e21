import TypeLang.Proofs.Codec.Normal

namespace TypeLang

open Read

/-- What a body that has been read holds of a field, with the flags words of the body. -/
def FieldPlan.Held (read : Layout → Read Value) (words : Words) (fields : Fields)
    (f : FieldPlan) : Prop :=
  match f.role with
  | .flags _ => True
  | .presence gate => Dict.get? fields f.name = some (.bool (gate.all (·.isOpen words)))
  | .value layout gate =>
    if gate.all (·.isOpen words) then
      ∃ v d d', Dict.get? fields f.name = some v ∧ read layout d = .ok v d'
    else Dict.get? fields f.name = none

namespace Codec

theorem fresh_insert {got : Fields} {f : FieldPlan} {rest : List FieldPlan}
    (fresh : ∀ f' ∈ f :: rest, Dict.get? got f'.name = none) (new : f.name ∉ rest.map (·.name))
    (v : Value) : ∀ f' ∈ rest, Dict.get? (Dict.insert f.name v got) f'.name = none := by
  intro f' hf'
  rw [Dict.get?_insert_of_ne (ne_of_mem_of_not_mem (List.mem_map_of_mem hf') new)]
  exact fresh f' (List.mem_cons_of_mem f hf')

/-- The fields of a body are those that its flags words ask for. Of the words, `seen` has those that
stand to the left. -/
theorem held_of_readFields {read : Layout → Read Value} {total n : Nat} {fields : List FieldPlan}
    (slots : Slotted total n fields) (names : (fields.map (·.name)).Nodup) {seen : Words}
    (length : seen.length = total) {got out : Fields}
    (fresh : ∀ f ∈ fields, Dict.get? got f.name = none) {d d' : Cursor}
    (h : readFields read fields seen got d = .ok out d') :
    ∃ words : Words, (∀ i < n, words[i]? = seen[i]?) ∧
      (∀ key ∉ fields.map (·.name), Dict.get? out key = Dict.get? got key) ∧
      (∀ f ∈ fields, f.Held read words out) ∧
      out = (fields.filterMap fun f => (f.back? words fun f => Dict.get? out f.name).map
        (f.name, ·)).foldl (fun d kv => Dict.insert kv.1 kv.2 d) got := by
  induction slots generalizing seen got d with
  | nil =>
    cases h
    exact ⟨seen, fun _ _ => rfl, fun _ _ => rfl, by simp, rfl⟩
  | @flags n f rest hr hs ih =>
    rw [List.map_cons, List.nodup_cons] at names
    simp only [readFields, hr] at h
    obtain ⟨word, m, -, h⟩ := bind_eq_ok.mp h
    rw [fillWord_of_lt (length ▸ hs.le), pure_bind] at h
    obtain ⟨words, left, others, held, hout⟩ := ih names.2 (by rw [List.length_set, length])
      (fun f' hf' => fresh f' (List.mem_cons_of_mem f hf')) h
    refine ⟨words, ?_, ?_, ?_, ?_⟩
    · intro i hi
      rw [left i (Nat.lt_succ_of_lt hi), List.getElem?_set_ne (Nat.ne_of_gt hi)]
    · intro key hk
      exact others key fun hm => hk (List.mem_cons_of_mem _ hm)
    · exact List.forall_mem_cons.mpr ⟨by simp [FieldPlan.Held, hr], held⟩
    · rw [List.filterMap_cons, FieldPlan.back?, hr]
      exact hout
  | @presence n f rest gate hr hg hs ih =>
    rw [List.map_cons, List.nodup_cons] at names
    simp only [readFields, hr] at h
    rw [readGate_of_lt fun g hgate => Nat.lt_of_lt_of_le (hg g hgate).1 (length ▸ hs.le),
      pure_bind] at h
    obtain ⟨words, left, others, held, hout⟩ := ih names.2 length
      (fresh_insert fresh names.1 _) h
    have hset := all_isOpen_congr left fun g hgate => (hg g hgate).1
    have hf := others f.name names.1
    rw [Dict.get?_insert_self, ← hset] at hf
    refine ⟨words, left, ?_, ?_, ?_⟩
    · intro key hk
      rw [List.map_cons, List.mem_cons, not_or] at hk
      rw [others key hk.2, Dict.get?_insert_of_ne hk.1]
    · exact List.forall_mem_cons.mpr ⟨by rw [FieldPlan.Held, hr]; exact hf, held⟩
    · simp only [List.filterMap_cons, FieldPlan.back?, hr, hset]
      exact hout
  | @value n f rest layout gate hr hg hs ih =>
    rw [List.map_cons, List.nodup_cons] at names
    simp only [readFields, hr] at h
    rw [readGate_of_lt fun g hgate => Nat.lt_of_lt_of_le (hg g hgate).1 (length ▸ hs.le),
      pure_bind] at h
    split at h
    · next hset =>
      obtain ⟨v, m, hv, h⟩ := bind_eq_ok.mp h
      obtain ⟨words, left, others, held, hout⟩ := ih names.2 length
        (fresh_insert fresh names.1 _) h
      have hcongr := all_isOpen_congr left fun g hgate => (hg g hgate).1
      have hf := others f.name names.1
      rw [Dict.get?_insert_self] at hf
      refine ⟨words, left, ?_, ?_, ?_⟩
      · intro key hk
        rw [List.map_cons, List.mem_cons, not_or] at hk
        rw [others key hk.2, Dict.get?_insert_of_ne hk.1]
      · refine List.forall_mem_cons.mpr ⟨?_, held⟩
        simp only [FieldPlan.Held, hr]
        rw [if_pos (hcongr.trans hset)]
        exact ⟨v, _, _, hf, hv⟩
      · simp only [List.filterMap_cons, FieldPlan.back?, hr, hf]
        exact hout
    · next hset =>
      obtain ⟨words, left, others, held, hout⟩ := ih names.2 length
        (fun f' hf' => fresh f' (List.mem_cons_of_mem f hf')) h
      have hcongr := all_isOpen_congr left fun g hgate => (hg g hgate).1
      have hf : Dict.get? out f.name = none := by
        rw [others f.name names.1, fresh f List.mem_cons_self]
      refine ⟨words, left, ?_, ?_, ?_⟩
      · intro key hk
        exact others key fun hm => hk (List.mem_cons_of_mem _ hm)
      · refine List.forall_mem_cons.mpr ⟨?_, held⟩
        simp only [FieldPlan.Held, hr]
        rw [if_neg (by rw [hcongr]; exact hset)]
        exact hf
      · simp only [List.filterMap_cons, FieldPlan.back?, hr, hf]
        exact hout

theorem held_of_readBody {read : Layout → Read Value} {p : Plan}
    (slots : Slotted p.flagsWords 0 p.fields) (names : (p.fields.map (·.name)).Nodup)
    {o : Object} {d d' : Cursor} (h : readBody read p d = .ok o d') :
    ∃ words : Words, o.name = p.name ∧ (∀ f ∈ p.fields, f.Held read words o.fields) ∧
      o.fields = backs words (fun f => Dict.get? o.fields f.name) p.fields := by
  obtain ⟨fields, m, hf, h⟩ := bind_eq_ok.mp h
  cases h
  obtain ⟨words, -, -, held, hout⟩ := held_of_readFields slots names List.length_replicate
    (by simp) hf
  exact ⟨words, rfl, held, hout⟩

end Codec

theorem FieldPlan.Held.isOn_eq {read : Layout → Read Value} {words : Words} {fields : Fields}
    {f : FieldPlan} (h : f.Held read words fields) {g : Gate} (hg : f.gate? = some g) :
    f.isOn (Dict.get? fields) = g.isOpen words := by
  rw [Held] at h
  rw [gate?] at hg
  split at h
  · next hr =>
    rw [hr] at hg
    cases hg
  · next gate hr =>
    rw [hr] at hg
    cases hg
    rw [isOn, hr, h]
    rfl
  · next layout gate hr =>
    rw [hr] at hg
    cases hg
    rw [isOn_value hr]
    rw [Option.all_some] at h
    split at h
    · next hs =>
      obtain ⟨v, d, d', hv, -⟩ := h
      rw [hv, hs]
      rfl
    · next hs =>
      rw [h, Bool.eq_false_iff.mpr hs]
      rfl

theorem FieldPlan.Held.accepts {read : Layout → Read Value} {words : Words} {fields : Fields}
    {f : FieldPlan} (h : f.Held read words fields) : f.Accepts (Dict.get? fields) := by
  rw [Held] at h
  rw [Accepts]
  cases hr : f.role with
  | flags slot => trivial
  | presence gate =>
    rw [hr] at h
    rw [h]
    exact ⟨_, rfl⟩
  | value layout gate =>
    rw [hr] at h
    cases gate with
    | some g =>
      cases Dict.get? fields f.name with
      | none => trivial
      | some v => trivial
    | none =>
      obtain ⟨v, d, d', hv, -⟩ := h
      rw [hv]
      trivial

theorem FieldPlan.Held.read_eq {read : Layout → Read Value} {words : Words} {fields : Fields}
    {f : FieldPlan} (h : f.Held read words fields) {layout : Layout} {gate : Option Gate}
    (hr : f.role = .value layout gate) {v : Value} (hv : Dict.get? fields f.name = some v) :
    ∃ d d', read layout d = .ok v d' := by
  simp only [Held, hr] at h
  split at h
  · obtain ⟨v', d, d', hv', hread⟩ := h
    cases hv.symm.trans hv'
    exact ⟨d, d', hread⟩
  · rw [hv] at h
    cases h

theorem Plan.balanced_of_held {read : Layout → Read Value} {words : Words} {fields : Fields}
    {p : Plan} (h : ∀ f ∈ p.fields, f.Held read words fields) :
    p.Balanced (Dict.get? fields) := by
  intro f hf f' hf' g hg hg'
  rw [(h f hf).isOn_eq hg, (h f' hf').isOn_eq hg']

end TypeLang
