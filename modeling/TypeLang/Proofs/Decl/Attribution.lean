import Mathlib.Data.List.Basic
import TypeLang.Proofs.Except
import TypeLang.Proofs.Int32
import TypeLang.Decl.Source

namespace TypeLang.Decl

open Text

def remark? (raw : List Char) : Option (List Char) := (after? "//".toList (trim raw)).map trim

def IsDeclaration (raw : List Char) : Prop :=
  trim raw ≠ [] ∧ remark? raw = none ∧ separator? (trim raw) = none ∧ isBuiltin (trim raw) = false

instance : DecidablePred IsDeclaration := fun _ => inferInstanceAs (Decidable (_ ∧ _ ∧ _ ∧ _))

/-- The kind that the nearest separator above a line states. -/
def kindBelow (above : List (List Char)) : Kind :=
  (above.reverse.findSome? fun raw => separator? (trim raw)).getD .constructor

/-- The remarks in the longest run of remarks right above a line, but for empty ones and layers. -/
def remarksBelow (above : List (List Char)) : List (List Char) :=
  ((above.reverse.takeWhile fun raw => (remark? raw).isSome).reverse.filterMap remark?).filter
    fun remark => remark ≠ [] ∧ layer? remark = none

def commentBelow (above : List (List Char)) : Option String :=
  if remarksBelow above = [] then none
  else some (String.ofList (join [' '] (remarksBelow above)))

/-- What the declaration on a line comes to: it is read by itself, and has to end with a
semicolon. -/
def attributed (rule : IdRule) (line : Nat) (above : List (List Char)) (raw : List Char) :
    Except LineFault Decl :=
  let text := String.ofList (trim raw)
  if (trim raw).getLast? = some ';' then
    match parse rule text with
    | .ok d => .ok { d with kind := kindBelow above, comment := commentBelow above }
    | .error cause => .error ⟨line, text, cause⟩
  else .error ⟨line, text, .noSemicolon⟩

def statedLayer? (raw : List Char) : Option Int32 := (remark? raw).bind layer?

theorem kindBelow_append (above : List (List Char)) (raw : List Char) :
    kindBelow (above ++ [raw]) = (separator? (trim raw)).getD (kindBelow above) := by
  rw [kindBelow, List.reverse_append, List.reverse_singleton, List.singleton_append,
    List.findSome?_cons]
  cases separator? (trim raw) with
  | none => rfl
  | some kind => rfl

theorem remarksBelow_of_remark (above : List (List Char)) {raw remark : List Char}
    (h : remark? raw = some remark) : remarksBelow (above ++ [raw]) =
      remarksBelow above ++ [remark].filter fun remark => remark ≠ [] ∧ layer? remark = none := by
  rw [remarksBelow, List.reverse_append, List.reverse_singleton, List.singleton_append,
    List.takeWhile_cons_of_pos (by simp [h]), List.reverse_cons, List.filterMap_append,
    List.filter_append, List.filterMap_cons_some h]
  rfl

theorem remarksBelow_of_none (above : List (List Char)) {raw : List Char}
    (h : remark? raw = none) : remarksBelow (above ++ [raw]) = [] := by
  rw [remarksBelow, List.reverse_append, List.reverse_singleton, List.singleton_append,
    List.takeWhile_cons_of_neg (by simp [h])]
  rfl

theorem separator?_of_remark {raw remark : List Char} (h : remark? raw = some remark) :
    separator? (trim raw) = none := by
  rw [separator?]
  split
  · next ht =>
    rw [remark?, ht] at h
    cases h
  · split
    · next ht =>
      rw [remark?, ht] at h
      cases h
    · rfl

theorem trim_ne_nil_of_remark {raw remark : List Char} (h : remark? raw = some remark) :
    trim raw ≠ [] := by
  intro ht
  rw [remark?, ht] at h
  cases h

theorem trim_ne_nil_of_separator {raw : List Char} {kind : Kind}
    (h : separator? (trim raw) = some kind) : trim raw ≠ [] := by
  intro ht
  rw [ht] at h
  cases h

section

variable (rule : IdRule) (kind : Kind) (comment : List (List Char)) (line : Nat)
  {raw : List Char} (rest : List (List Char))

theorem scan_blank (h : trim raw = []) : scan rule kind comment line (raw :: rest) =
    scan rule kind [] (line + 1) rest := by
  rw [scan, h]
  rfl

theorem scan_remark {remark : List Char} (h : remark? raw = some remark) :
    scan rule kind comment line (raw :: rest) =
      (layer? remark).toList.map .layer ++ scan rule kind
        (comment ++ [remark].filter fun r => r ≠ [] ∧ layer? r = none) (line + 1) rest := by
  obtain ⟨text, ha, ht⟩ := Option.map_eq_some_iff.mp h
  rw [scan]
  dsimp only
  rw [if_neg (by simpa using trim_ne_nil_of_remark h), ha]
  dsimp only
  rw [ht]
  cases hl : layer? remark with
  | some n => simp [hl]
  | none =>
    by_cases he : remark = []
    · simp [he]
    · simp [hl, he]

theorem scan_separator {kind' : Kind} (hr : remark? raw = none)
    (h : separator? (trim raw) = some kind') : scan rule kind comment line (raw :: rest) =
      scan rule kind' [] (line + 1) rest := by
  rw [scan]
  dsimp only
  rw [if_neg (by simpa using trim_ne_nil_of_separator h), Option.map_eq_none_iff.mp hr, h]

theorem scan_builtin (ht : trim raw ≠ []) (hr : remark? raw = none)
    (hs : separator? (trim raw) = none) (h : isBuiltin (trim raw) = true) :
    scan rule kind comment line (raw :: rest) =
      .builtin line (String.ofList (trim raw)) :: scan rule kind [] (line + 1) rest := by
  rw [scan]
  dsimp only
  rw [if_neg (by simpa using ht), Option.map_eq_none_iff.mp hr, hs]
  dsimp only
  rw [if_pos h]

theorem scan_declaration (h : IsDeclaration raw) : scan rule kind comment line (raw :: rest) =
    .declared (readLine rule kind (commentText? comment) line (trim raw)) ::
      scan rule kind [] (line + 1) rest := by
  obtain ⟨ht, hr, hs, hb⟩ := h
  rw [scan]
  dsimp only
  rw [if_neg (by simpa using ht), Option.map_eq_none_iff.mp hr, hs]
  dsimp only
  rw [if_neg (by simp [hb])]

end

theorem readLine_eq_attributed (rule : IdRule) (above : List (List Char)) (raw : List Char) :
    readLine rule (kindBelow above) (commentText? (remarksBelow above)) (above.length + 1)
      (trim raw) = attributed rule (above.length + 1) above raw := by
  rw [readLine, attributed, parse, String.toList_ofList, commentBelow, commentText?]
  simp only [List.isEmpty_iff]
  by_cases hs : (trim raw).getLast? = some ';'
  · rw [if_pos hs]
    cases read rule (trim raw) with
    | ok d => exact (if_pos hs).symm
    | error cause => exact (if_pos hs).symm
  · rw [if_neg hs, if_neg hs]

def itemsBelow (rule : IdRule) (above rest : List (List Char)) : List Item :=
  scan rule (kindBelow above) (remarksBelow above) (above.length + 1) rest

/-- One line: what it contributes follows from it and from what stands above it, and then it stands
above the others. -/
theorem itemsBelow_cons (rule : IdRule) (above : List (List Char)) (raw : List Char)
    (rest : List (List Char)) : ∃ items,
      itemsBelow rule above (raw :: rest) = items ++ itemsBelow rule (above ++ [raw]) rest ∧
      items.filterMap Item.result? =
        (if IsDeclaration raw then [attributed rule (above.length + 1) above raw] else []) ∧
      items.filterMap Item.layer? = (statedLayer? raw).toList := by
  rw [itemsBelow, itemsBelow, kindBelow_append, List.length_append, List.length_singleton]
  cases hr : remark? raw with
  | some remark =>
    have hd : ¬ IsDeclaration raw := fun h => by simp [IsDeclaration, hr] at h
    rw [scan_remark _ _ _ _ _ hr, remarksBelow_of_remark above hr, separator?_of_remark hr,
      if_neg hd, statedLayer?, hr, Option.bind_some]
    refine ⟨_, rfl, ?_⟩
    cases layer? remark with
    | some n => exact ⟨rfl, rfl⟩
    | none => exact ⟨rfl, rfl⟩
  | none =>
    have hl : statedLayer? raw = none := by rw [statedLayer?, hr]; rfl
    rw [remarksBelow_of_none above hr, hl]
    cases hs : separator? (trim raw) with
    | some kind =>
      have hd : ¬ IsDeclaration raw := fun h => by simp [IsDeclaration, hs] at h
      rw [scan_separator _ _ _ _ _ hr hs, if_neg hd]
      exact ⟨[], rfl, rfl, rfl⟩
    | none =>
      by_cases ht : trim raw = []
      · have hd : ¬ IsDeclaration raw := fun h => h.1 ht
        rw [scan_blank _ _ _ _ _ ht, if_neg hd]
        exact ⟨[], rfl, rfl, rfl⟩
      · cases hb : isBuiltin (trim raw) with
        | true =>
          have hd : ¬ IsDeclaration raw := fun h => by simp [IsDeclaration, hb] at h
          rw [scan_builtin _ _ _ _ _ ht hr hs hb, if_neg hd]
          exact ⟨[_], rfl, rfl, rfl⟩
        | false =>
          have hd : IsDeclaration raw := ⟨ht, hr, hs, hb⟩
          rw [scan_declaration _ _ _ _ _ hd, readLine_eq_attributed, if_pos hd]
          exact ⟨[_], rfl, rfl, rfl⟩

def resultsBelow (rule : IdRule) (above rest : List (List Char)) : List (Except LineFault Decl) :=
  (itemsBelow rule above rest).filterMap Item.result?

theorem resultsBelow_cons (rule : IdRule) (above : List (List Char)) (raw : List Char)
    (rest : List (List Char)) : resultsBelow rule above (raw :: rest) =
      (if IsDeclaration raw then [attributed rule (above.length + 1) above raw] else []) ++
        resultsBelow rule (above ++ [raw]) rest := by
  obtain ⟨items, hi, results, -⟩ := itemsBelow_cons rule above raw rest
  rw [resultsBelow, hi, List.filterMap_append, results]
  rfl

theorem resultsBelow_eq (rule : IdRule) (above rest : List (List Char)) :
    resultsBelow rule above rest =
      ((rest.zipIdx above.length).filter fun (raw, _) => IsDeclaration raw).map
        fun (raw, i) => attributed rule (i + 1) ((above ++ rest).take i) raw := by
  induction rest generalizing above with
  | nil => rfl
  | cons raw rest ih =>
    rw [resultsBelow_cons, ih, List.zipIdx_cons, List.filter_cons, List.append_assoc,
      List.singleton_append, List.length_append, List.length_singleton]
    by_cases hd : IsDeclaration raw
    · simp [hd]
    · simp [hd]

theorem resultsBelow_append (rule : IdRule) (above mid rest : List (List Char)) :
    resultsBelow rule above (mid ++ rest) =
      resultsBelow rule above mid ++ resultsBelow rule (above ++ mid) rest := by
  induction mid generalizing above with
  | nil =>
    rw [List.nil_append, List.append_nil]
    rfl
  | cons raw mid ih =>
    rw [List.cons_append, resultsBelow_cons, resultsBelow_cons, ih, List.append_assoc,
      List.append_assoc, List.singleton_append]

theorem resultsBelow_of_declaration (rule : IdRule) (above : List (List Char))
    {raw raw' : List Char} (h : IsDeclaration raw) (h' : IsDeclaration raw')
    (rest : List (List Char)) :
    resultsBelow rule (above ++ [raw]) rest = resultsBelow rule (above ++ [raw']) rest := by
  obtain ⟨-, hr, hs, -⟩ := h
  obtain ⟨-, hr', hs', -⟩ := h'
  rw [resultsBelow, resultsBelow, itemsBelow, itemsBelow, kindBelow_append, kindBelow_append, hs,
    hs', remarksBelow_of_none above hr, remarksBelow_of_none above hr', List.length_append,
    List.length_append]
  rfl

theorem layers_itemsBelow (rule : IdRule) (above rest : List (List Char)) :
    (itemsBelow rule above rest).filterMap Item.layer? = rest.filterMap statedLayer? := by
  induction rest generalizing above with
  | nil => rfl
  | cons raw rest ih =>
    obtain ⟨items, hi, -, layers⟩ := itemsBelow_cons rule above raw rest
    rw [hi, List.filterMap_append, layers, ih, List.filterMap_cons]
    cases statedLayer? raw with
    | none => rfl
    | some n => rfl

theorem readAll_eq_resultsBelow (rule : IdRule) (text : String) :
    readAll rule text = resultsBelow rule [] (lines text.toList) := rfl

theorem exists_readAll_of_lines (rule : IdRule) {text text' : String}
    {above below : List (List Char)} {raw raw' : List Char}
    (ht : lines text.toList = above ++ raw :: below)
    (ht' : lines text'.toList = above ++ raw' :: below) (h : IsDeclaration raw)
    (h' : IsDeclaration raw') : ∃ before behind,
      readAll rule text =
        before ++ attributed rule (above.length + 1) above raw :: behind ∧
      readAll rule text' =
        before ++ attributed rule (above.length + 1) above raw' :: behind := by
  refine ⟨resultsBelow rule [] above, resultsBelow rule (above ++ [raw]) below, ?_, ?_⟩
  · rw [readAll_eq_resultsBelow, ht, resultsBelow_append, List.nil_append, resultsBelow_cons,
      if_pos h, List.singleton_append]
  · rw [readAll_eq_resultsBelow, ht', resultsBelow_append, List.nil_append, resultsBelow_cons,
      if_pos h', List.singleton_append, resultsBelow_of_declaration rule above h h']

theorem parse_eq_ok_iff {rule : IdRule} {text : String} {source : Source} :
    Source.parse rule text = .ok source ↔ readAll rule text = source.decls.map .ok ∧
      source.layer = ((lines text.toList).filterMap statedLayer?).max? := by
  have layers : (items rule text).filterMap Item.layer? =
      (lines text.toList).filterMap statedLayer? := layers_itemsBelow rule [] _
  rw [Source.parse, except_bind_eq_ok]
  simp only [layers, mapM_id_eq_ok_iff]
  constructor
  · rintro ⟨decls, hd, h⟩
    cases h
    exact ⟨hd, rfl⟩
  · rintro ⟨hd, hl⟩
    refine ⟨source.decls, hd, ?_⟩
    rw [← hl]
    rfl

theorem parse_eq_error_iff {rule : IdRule} {text : String} {fault : LineFault} :
    Source.parse rule text = .error fault ↔
      ∃ (decls : List Decl) (rest : List (Except LineFault Decl)),
        readAll rule text = decls.map .ok ++ .error fault :: rest := by
  rw [Source.parse, except_bind_eq_error, readAll, ← mapM_id_eq_error_iff]
  constructor
  · rintro (h | ⟨decls, -, h⟩)
    · exact h
    · cases h
  · exact .inl

/-- Each declaration of a text is read by itself. Its line, its section and its comment follow from
where it stands, so that a bad one changes nothing about the others. The text as a whole is at the
highest of the layers that it states, or else fails with its first fault. -/
theorem readAll_attributed (rule : IdRule) (text : String) :
    (readAll rule text =
      ((lines text.toList).zipIdx.filter fun (raw, _) => IsDeclaration raw).map
        fun (raw, i) => attributed rule (i + 1) ((lines text.toList).take i) raw) ∧
    (∀ text' above below raw raw', lines text.toList = above ++ raw :: below →
      lines text'.toList = above ++ raw' :: below → IsDeclaration raw → IsDeclaration raw' →
      ∃ before behind,
        readAll rule text =
          before ++ attributed rule (above.length + 1) above raw :: behind ∧
        readAll rule text' =
          before ++ attributed rule (above.length + 1) above raw' :: behind) ∧
    (∀ source, Source.parse rule text = .ok source →
      readAll rule text = source.decls.map .ok ∧
      (∀ n, source.layer = some n ↔ n ∈ (lines text.toList).filterMap statedLayer? ∧
        ∀ m ∈ (lines text.toList).filterMap statedLayer?, m ≤ n) ∧
      (source.layer = none ↔ (lines text.toList).filterMap statedLayer? = [])) ∧
    ∀ fault, Source.parse rule text = .error fault ↔
      ∃ (decls : List Decl) (rest : List (Except LineFault Decl)),
        readAll rule text = decls.map .ok ++ .error fault :: rest := by
  refine ⟨?_, fun _ _ _ _ _ => exists_readAll_of_lines rule, fun source h => ?_,
    fun _ => parse_eq_error_iff⟩
  · rw [readAll_eq_resultsBelow, resultsBelow_eq]
    rfl
  · obtain ⟨hd, hl⟩ := parse_eq_ok_iff.mp h
    rw [hl]
    exact ⟨hd, fun _ => List.max?_eq_some_iff, List.max?_eq_none_iff⟩

def orchard (last : String) : String := "// LAYER 2\n// Cuts.\ncut#2 = A" ++ last ++ "\ngrow#1 = A;"

theorem readAll_attributed_orchard : (∃ before behind,
      readAll none (orchard ";") = before ++
        attributed none 3 ["// LAYER 2".toList, "// Cuts.".toList] "cut#2 = A;".toList :: behind ∧
      readAll none (orchard "") = before ++
        attributed none 3 ["// LAYER 2".toList, "// Cuts.".toList] "cut#2 = A".toList :: behind) ∧
    ∃ source, Source.parse none (orchard ";") = .ok source ∧
      readAll none (orchard ";") = source.decls.map .ok ∧ source.layer = some 2 := by
  obtain ⟨-, apart, whole, -⟩ := readAll_attributed none (orchard ";")
  refine ⟨apart _ _ ["grow#1 = A;".toList] _ _ (by decide +kernel) (by decide +kernel) (by decide)
    (by decide), ?_⟩
  have parsed : (Source.parse none (orchard ";")).isOk = true := by decide +kernel
  cases hs : Source.parse none (orchard ";") with
  | error fault =>
    rw [hs] at parsed
    cases parsed
  | ok source =>
    obtain ⟨results, layer, -⟩ := whole source hs
    have stated : (lines (orchard ";").toList).filterMap statedLayer? = [2] := by decide +kernel
    exact ⟨source, rfl, results, (layer 2).mpr (by simp [stated])⟩

end TypeLang.Decl
