import TypeLang.Proofs.Merge.Newest
import TypeLang.Proofs.Schema.Rebuild

namespace TypeLang.Merge

def definitions (sources : List Layered) (key : Kind × String) : List Entry :=
  newest (·.schema.find? key.1 key.2) sources

def Agree (es : List Entry) : Prop := ∀ a ∈ es, ∀ b ∈ es, a.plain = b.plain

instance (es : List Entry) : Decidable (Agree es) :=
  inferInstanceAs (Decidable (∀ a ∈ es, ∀ b ∈ es, a.plain = b.plain))

/-- The first of some definitions, with the first comment among all of them. -/
def common? (es : List Entry) : Option Entry :=
  es.head?.map fun e => { e with comment := es.findSome? (·.comment) }

def firstDifference? : List Entry → Option Entry.Part
  | [] => none
  | first :: rest => rest.findSome? first.difference?

def dispute? (sources : List Layered) (key : Kind × String) : Option Conflict :=
  (firstDifference? (definitions sources key)).map fun part => {
    kind := key.1
    name := key.2
    part
    candidates := candidates sources key.1 key.2
    topLayer := highest (layersOf (·.schema.find? key.1 key.2) sources) }

def disputes (sources : List Layered) : List Conflict := (keys sources).filterMap (dispute? sources)

/-- The entry that the merged schema has under a key, once conflicts are settled. -/
def choice (sources : List Layered) (settled : List (Conflict × Resolution))
    (key : Kind × String) : Option Entry :=
  if Agree (definitions sources key) then common? (definitions sources key)
  else
    match settled.find? fun cr => (cr.1.kind, cr.1.name) = key with
    | some (_, .keep entry) => some entry
    | _ => none

def chosen (sources : List Layered) (answers : List Resolution) : List Entry :=
  (keys sources).filterMap (choice sources ((disputes sources).zip answers))

theorem firstDifference?_eq_none_iff {es : List Entry} :
    firstDifference? es = none ↔ Agree es := by
  cases es with
  | nil => simp [firstDifference?, Agree]
  | cons first rest =>
    simp only [firstDifference?, List.findSome?_eq_none_iff, Entry.difference?_eq_none_iff, Agree]
    constructor
    · intro h a ha b hb
      have same : ∀ x ∈ first :: rest, first.plain = x.plain :=
        List.forall_mem_cons.mpr ⟨rfl, h⟩
      exact (same a ha).symm.trans (same b hb)
    · intro h x hx
      exact h first List.mem_cons_self x (List.mem_cons_of_mem first hx)

theorem dispute?_eq_none_iff {sources : List Layered} {key : Kind × String} :
    dispute? sources key = none ↔ Agree (definitions sources key) := by
  rw [dispute?, Option.map_eq_none_iff, firstDifference?_eq_none_iff]

theorem isSome_dispute?_iff {sources : List Layered} {key : Kind × String} :
    (dispute? sources key).isSome ↔ ¬ Agree (definitions sources key) := by
  rw [Option.isSome_iff_ne_none, Ne, dispute?_eq_none_iff]

theorem key_of_dispute? {sources : List Layered} {key : Kind × String} {c : Conflict}
    (h : dispute? sources key = some c) : (c.kind, c.name) = key := by
  obtain ⟨part, -, rfl⟩ := Option.map_eq_some_iff.mp h
  rfl

theorem candidates_of_dispute? {sources : List Layered} {key : Kind × String} {c : Conflict}
    (h : dispute? sources key = some c) : c.candidates = candidates sources c.kind c.name := by
  obtain ⟨part, -, rfl⟩ := Option.map_eq_some_iff.mp h
  rfl

theorem candidates_of_mem_disputes {sources : List Layered} {c : Conflict}
    (h : c ∈ disputes sources) : c.candidates = candidates sources c.kind c.name := by
  obtain ⟨key, -, h⟩ := List.mem_filterMap.mp h
  exact candidates_of_dispute? h

/- What a single key comes to. -/

theorem filterMap_candidates {α : Type} (sources : List Layered) (kind : Kind) (name : String)
    (f : Int32 → Option Entry → Option α) :
    (candidates sources kind name).filterMap (fun c => f c.layer c.entry) =
      sources.filterMap fun s => f s.layer (s.schema.find? kind name) := by
  rw [candidates, List.filterMap_map]
  conv_rhs => rw [← List.zipIdx_map_fst 0 sources, List.filterMap_map]
  rfl

theorem layers_candidates (sources : List Layered) (kind : Kind) (name : String) :
    ((candidates sources kind name).filter (·.entry.isSome)).map (·.layer) =
      layersOf (·.schema.find? kind name) sources := by
  rw [layersOf, ← List.filterMap_eq_map, ← List.filterMap_eq_map, List.filterMap_filter,
    List.filterMap_filter]
  exact filterMap_candidates sources kind name fun layer entry =>
    if entry.isSome then some layer else none

theorem definitionsAt_candidates (sources : List Layered) (kind : Kind) (name : String) :
    definitionsAt (highest (layersOf (·.schema.find? kind name) sources))
      (candidates sources kind name) = definitions sources (kind, name) := by
  rw [definitionsAt, List.filterMap_filter, definitions,
    newest_eq_of_isHighest (isHighest_highest _)]
  simp only [decide_eq_true_eq]
  exact filterMap_candidates sources kind name fun layer entry =>
    if layer = highest (layersOf (·.schema.find? kind name) sources) then entry else none

theorem judge_eq (sources : List Layered) (kind : Kind) (name : String) :
    judge sources kind name =
      match dispute? sources (kind, name) with
      | some c => .disputed c
      | none =>
        match common? (definitions sources (kind, name)) with
        | some entry => .agreed entry
        | none => .absent := by
  simp only [judge, layers_candidates, definitionsAt_candidates, dispute?]
  cases definitions sources (kind, name) with
  | nil => rfl
  | cons first rest =>
    dsimp only [firstDifference?]
    cases rest.findSome? first.difference? with
    | none => rfl
    | some part => rfl

theorem choice_of_agree {sources : List Layered} {key : Kind × String}
    (h : dispute? sources key = none) (settled : List (Conflict × Resolution)) :
    choice sources settled key = common? (definitions sources key) :=
  if_pos (dispute?_eq_none_iff.mp h)

theorem choice_of_dispute {sources : List Layered} {key : Kind × String} {c : Conflict}
    (h : dispute? sources key = some c) (r : Resolution) (settled : List (Conflict × Resolution)) :
    choice sources ((c, r) :: settled) key =
      match r with
      | .keep entry => some entry
      | .drop => none := by
  have disagree : ¬ Agree (definitions sources key) := by
    rw [← isSome_dispute?_iff, h]
    rfl
  rw [choice, if_neg disagree, List.find?_cons_of_pos (by simpa using key_of_dispute? h)]
  cases r with
  | keep entry => rfl
  | drop => rfl

theorem choice_cons_of_ne {sources : List Layered} {key : Kind × String} {c : Conflict}
    (h : (c.kind, c.name) ≠ key) (r : Resolution) (settled : List (Conflict × Resolution)) :
    choice sources ((c, r) :: settled) key = choice sources settled key := by
  rw [choice, choice, List.find?_cons_of_neg (by simpa using h)]

/- What a run over many keys comes to. -/

section

variable {σ : Type} {sources : List Layered} {resolve : Resolver σ}

theorem mapM_cons_eq (c : Conflict) (cs : List Conflict) (state : σ) :
    (c :: cs).mapM resolve state =
      ((resolve c state).1 :: (cs.mapM resolve (resolve c state).2).1,
        (cs.mapM resolve (resolve c state).2).2) := by
  rw [List.mapM_cons]
  rfl

theorem run_of_agree {kind : Kind} {name : String} (h : dispute? sources (kind, name) = none)
    (rest : List (Kind × String)) (state : σ) :
    run sources resolve ((kind, name) :: rest) state =
      match common? (definitions sources (kind, name)) with
      | none => run sources resolve rest state
      | some entry =>
        ((run sources resolve rest state).1.choose entry, (run sources resolve rest state).2) := by
  rw [run, judge_eq, h]
  cases common? (definitions sources (kind, name)) with
  | none => rfl
  | some entry => rfl

theorem run_of_dispute {kind : Kind} {name : String} {c : Conflict}
    (h : dispute? sources (kind, name) = some c) (rest : List (Kind × String)) (state : σ) :
    run sources resolve ((kind, name) :: rest) state =
      match (resolve c state).1 with
      | none => (⟨[], [], some c⟩, (resolve c state).2)
      | some r =>
        ((run sources resolve rest (resolve c state).2).1.settle c r,
          (run sources resolve rest (resolve c state).2).2) := by
  rw [run, judge_eq, h]
  rcases hr : resolve c state with ⟨answer, after⟩
  simp only [bind, StateT.bind, hr]
  cases answer with
  | none => rfl
  | some r => rfl

theorem run_map {τ : Type} {resolve' : Resolver τ} {f : τ → σ}
    (alike : ∀ key c, dispute? sources key = some c → ∀ t,
      resolve c (f t) = ((resolve' c t).1, f (resolve' c t).2))
    (ks : List (Kind × String)) (t : τ) :
    run sources resolve ks (f t) =
      ((run sources resolve' ks t).1, f (run sources resolve' ks t).2) := by
  induction ks generalizing t with
  | nil => rfl
  | cons key ks ih =>
    obtain ⟨kind, name⟩ := key
    cases hd : dispute? sources (kind, name) with
    | none =>
      rw [run_of_agree hd, run_of_agree hd, ih]
      cases common? (definitions sources (kind, name)) with
      | none => rfl
      | some entry => rfl
    | some c =>
      rw [run_of_dispute hd, run_of_dispute hd, alike _ c hd]
      dsimp only
      cases (resolve' c t).1 with
      | none => rfl
      | some r => rw [ih]

/-- A run over distinct keys, all of whose conflicts are answered or the last one asked about is
left open. By induction on the keys: what is settled about the first changes nothing about the
others. -/
theorem run_eq {ks : List (Kind × String)} (distinct : ks.Nodup) (state : σ) :
    (∃ (answers : List Resolution) (after : σ),
      (ks.filterMap (dispute? sources)).mapM resolve state = (answers.map some, after) ∧
      run sources resolve ks state =
        (⟨ks.filterMap (choice sources ((ks.filterMap (dispute? sources)).zip answers)),
          (ks.filterMap (dispute? sources)).zip answers, none⟩, after)) ∨
    ∃ asked c later, ∃ (answers : List Resolution) (after : σ) (p : Progress),
      ks.filterMap (dispute? sources) = asked ++ c :: later ∧
      (asked ++ [c]).mapM resolve state = (answers.map some ++ [none], after) ∧
      run sources resolve ks state = (p, after) ∧ p.stuck = some c := by
  induction ks generalizing state with
  | nil => exact .inl ⟨[], state, rfl, rfl⟩
  | cons key ks ih =>
    obtain ⟨kind, name⟩ := key
    rw [List.nodup_cons] at distinct
    cases hd : dispute? sources (kind, name) with
    | none =>
      rw [List.filterMap_cons_none hd, run_of_agree hd]
      rcases ih distinct.2 state with ⟨answers, after, asked, hr⟩ |
        ⟨asked, c, later, answers, after, p, hc, hasked, hr, hp⟩
      · refine .inl ⟨answers, after, asked, ?_⟩
        rw [hr, List.filterMap_cons, choice_of_agree hd]
        cases common? (definitions sources (kind, name)) with
        | none => rfl
        | some entry => rfl
      · rw [hr]
        cases common? (definitions sources (kind, name)) with
        | none => exact .inr ⟨asked, c, later, answers, after, p, hc, hasked, rfl, hp⟩
        | some entry =>
          exact .inr ⟨asked, c, later, answers, after, p.choose entry, hc, hasked, rfl, hp⟩
    | some c =>
      rw [List.filterMap_cons_some hd, run_of_dispute hd]
      cases ha : (resolve c state).1 with
      | none =>
        refine .inr ⟨[], c, _, [], (resolve c state).2, _, rfl, ?_, rfl, rfl⟩
        rw [List.nil_append, mapM_cons_eq, ha]
        rfl
      | some r =>
        rcases ih distinct.2 (resolve c state).2 with ⟨answers, after, asked, hr⟩ |
          ⟨asked, d, later, answers, after, p, hc, hasked, hr, hp⟩
        · refine .inl ⟨r :: answers, after, ?_, ?_⟩
          · rw [mapM_cons_eq, ha, asked]
            rfl
          · have others : ∀ key ∈ ks, (c.kind, c.name) ≠ key := by
              rintro key hk rfl
              exact distinct.1 (key_of_dispute? hd ▸ hk)
            rw [hr, List.filterMap_cons, List.zip_cons_cons, choice_of_dispute hd,
              List.filterMap_congr fun key hk => choice_cons_of_ne (others key hk) r _]
            cases r with
            | keep entry => rfl
            | drop => rfl
        · refine .inr ⟨c :: asked, d, later, r :: answers, after, p.settle c r, ?_, ?_, ?_, hp⟩
          · rw [hc]
            rfl
          · rw [List.cons_append, mapM_cons_eq, ha, hasked]
            rfl
          · rw [hr]

end

end TypeLang.Merge
