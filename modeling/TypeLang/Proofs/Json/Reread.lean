import TypeLang.Proofs.Json.Scalar

namespace TypeLang.Json

namespace Tree

mutual
def outline : Tree → Outline
  | .null => .null
  | .bool b => .bool b
  | .int n => .int n
  | .decimal _ => .decimal
  | .text s => .text (some s)
  | .array items => .array (outlineItems items) none
  | .object members => .object (outlineMembers members) none
def outlineItems : List Tree → List Outline
  | [] => []
  | t :: ts => t.outline :: outlineItems ts
def outlineMembers : List (String × Tree) → List (Except KeyFault String × Outline)
  | [] => []
  | (k, t) :: ts => (.ok k, t.outline) :: outlineMembers ts
end

theorem outlineItems_eq_map (items : List Tree) : outlineItems items = items.map outline := by
  induction items with
  | nil => rfl
  | cons t ts ih => rw [outlineItems, ih, List.map_cons]

theorem outlineMembers_eq_map (members : List (String × Tree)) :
    outlineMembers members = members.map fun kt => (.ok kt.1, kt.2.outline) := by
  induction members with
  | nil => rfl
  | cons kt ts ih => rw [outlineMembers, ih, List.map_cons]

/-- Whether all numbers of a document are whole and fit into a word apart from their sign. -/
inductive Whole : Tree → Prop
  | null : Whole .null
  | bool (b : Bool) : Whole (.bool b)
  | int {n : Int} : n.natAbs < UInt64.size → Whole (.int n)
  | text (s : String) : Whole (.text s)
  | array {items : List Tree} : (∀ t ∈ items, Whole t) → Whole (.array items)
  | object {members : List (String × Tree)} : (∀ kt ∈ members, Whole kt.2) → Whole (.object members)

end Tree

/- Space -/

theorem skipSpace_newline (level : Nat) (cs : List Char) :
    skipSpace ((Tree.newline level).toList ++ cs) = skipSpace cs := by
  refine List.dropWhile_append_of_pos fun c hc => ?_
  rw [Tree.newline, String.toList_append, String.toList_ofList, List.mem_append] at hc
  rcases hc with hc | hc
  · obtain rfl : c = '\n' := List.mem_singleton.mp hc
    rfl
  · rw [String.toList_ofList] at hc
    rw [List.eq_of_mem_replicate hc]
    rfl

theorem skipSpace_cons {c : Char} (h : isSpace c = false) (cs : List Char) :
    skipSpace (c :: cs) = c :: cs := by
  simp [skipSpace, h]

theorem eq_of_isSpace {c : Char} (h : isSpace c) : c = ' ' ∨ c = '\n' ∨ c = '\t' ∨ c = '\r' := by
  simpa [isSpace, or_assoc] using h

theorem stops_of_skipSpace {cs rest : List Char} {c : Char} (h : skipSpace cs = c :: rest)
    (hc : Stops [c]) : Stops cs := by
  cases cs with
  | nil => cases h
  | cons d cs =>
    by_cases hd : isSpace d
    · rcases eq_of_isSpace hd with rfl | rfl | rfl | rfl
      all_goals exact ⟨rfl, by decide, by decide, by decide⟩
    · rw [skipSpace_cons (by simpa using hd)] at h
      cases h
      exact hc

/- Values -/

theorem toString_int_toList (n : Int) :
    (toString n).toList = (if n < 0 then ['-'] else []) ++ Nat.toDigits 10 n.natAbs := by
  cases n with
  | ofNat n =>
    have text : toString (Int.ofNat n) = toString n := rfl
    rw [text, Nat.toString_eq_ofList_toDigits, if_neg (by simp)]
    simp
  | negSucc n =>
    have text : toString (Int.negSucc n) = "-" ++ toString (n + 1) := rfl
    rw [text, Nat.toString_eq_ofList_toDigits, if_pos (Int.negSucc_lt_zero n)]
    simp

theorem exists_digit (n : Nat) : ∃ c cs, Nat.toDigits 10 n = c :: cs ∧ isDigit c := by
  cases h : Nat.toDigits 10 n with
  | nil => exact absurd h Nat.toDigits_ne_nil
  | cons c cs =>
    have hc : c ∈ Nat.toDigits 10 n := by
      rw [h]
      exact List.mem_cons_self
    exact ⟨c, cs, rfl, Nat.isDigit_of_mem_toDigits (by decide) (by decide) hc⟩

theorem not_isSpace_of_isDigit {c : Char} (h : isDigit c) : isSpace c = false := by
  refine Bool.eq_false_iff.mpr fun hs => ?_
  rcases eq_of_isSpace hs with rfl | rfl | rfl | rfl
  all_goals cases h

namespace Tree

def spread (level : Nat) (lines : List String) : List Char :=
  (("," ++ newline level).intercalate lines).toList

theorem spread_singleton (level : Nat) (line : String) : spread level [line] = line.toList := by
  rw [spread, String.intercalate_singleton]

theorem spread_cons_cons (level : Nat) (line next : String) (lines : List String) :
    spread level (line :: next :: lines)
      = line.toList ++ ',' :: ((newline level).toList ++ spread level (next :: lines)) := by
  rw [spread, String.intercalate_cons_cons, String.toList_append, String.toList_append,
    String.toList_append, List.append_assoc, List.append_assoc]
  rfl

theorem spread_eq_cons {line : String} {c : Char} {cs : List Char} (h : line.toList = c :: cs)
    (level : Nat) (lines : List String) : ∃ more, spread level (line :: lines) = c :: more := by
  cases lines with
  | nil => exact ⟨cs, by rw [spread_singleton, h]⟩
  | cons next lines => exact ⟨_, by rw [spread_cons_cons, h, List.cons_append]⟩

theorem skipSpace_spread {line : String} {c : Char} {cs : List Char} (h : line.toList = c :: cs)
    (hc : isSpace c = false) (level : Nat) (lines : List String) (rest : List Char) :
    skipSpace (spread level (line :: lines) ++ rest) = spread level (line :: lines) ++ rest := by
  obtain ⟨more, hm⟩ := spread_eq_cons h level lines
  rw [hm]
  exact skipSpace_cons hc _

section

variable (left right : String) {l r : Char}

theorem toList_block (hl : left.toList = [l]) (hr : right.toList = [r]) (level : Nat)
    (line : String) (lines : List String) :
    (block level left right (line :: lines)).toList = l :: ((newline (level + 1)).toList
      ++ (spread (level + 1) (line :: lines) ++ ((newline level).toList ++ [r]))) := by
  rw [block, List.isEmpty_cons, if_neg Bool.false_ne_true]
  simp only [String.toList_append, List.append_assoc, hl, hr]
  rfl

theorem toList_block_nil (hl : left.toList = [l]) (hr : right.toList = [r]) (level : Nat) :
    (block level left right []).toList = [l, r] := by
  rw [block, List.isEmpty_nil, if_pos rfl, String.toList_append, hl, hr]
  rfl

theorem exists_block (hl : left.toList = [l]) (hr : right.toList = [r]) (level : Nat)
    (lines : List String) : ∃ cs, (block level left right lines).toList = l :: cs := by
  cases lines with
  | nil => exact ⟨_, toList_block_nil left right hl hr level⟩
  | cons line lines => exact ⟨_, toList_block left right hl hr level line lines⟩

end

theorem prettyAt_eq_cons {t : Tree} (h : t.Whole) (level : Nat) :
    ∃ c cs, (t.prettyAt level).toList = c :: cs ∧ isSpace c = false ∧ c ≠ ']' := by
  cases h with
  | null => exact ⟨'n', "ull".toList, by rw [prettyAt]; rfl, rfl, by decide⟩
  | bool b =>
    cases b with
    | false => exact ⟨'f', "alse".toList, by rw [prettyAt]; rfl, rfl, by decide⟩
    | true => exact ⟨'t', "rue".toList, by rw [prettyAt]; rfl, rfl, by decide⟩
  | @int n hn =>
    obtain ⟨c, cs, hc, hd⟩ := exists_digit n.natAbs
    rw [prettyAt, toString_int_toList, hc]
    split
    · exact ⟨'-', _, rfl, rfl, by decide⟩
    · refine ⟨c, cs, rfl, not_isSpace_of_isDigit hd, ?_⟩
      rintro rfl
      cases hd
  | text s =>
    obtain ⟨cs, hq⟩ := quote_eq_cons s
    exact ⟨'"', cs, by rw [prettyAt, hq], rfl, by decide⟩
  | @array items ht =>
    obtain ⟨cs, hb⟩ := exists_block "[" "]" (l := '[') (r := ']') rfl rfl level
      (prettyItems (level + 1) items)
    exact ⟨'[', cs, by rw [prettyAt, hb], rfl, by decide⟩
  | @object members ht =>
    obtain ⟨cs, hb⟩ := exists_block "\x7b" "\x7d" (l := '\x7b') (r := '\x7d') rfl rfl level
      (prettyMembers (level + 1) members)
    exact ⟨'\x7b', cs, by rw [prettyAt, hb], rfl, by decide⟩

theorem skipSpace_prettyAt {t : Tree} (h : t.Whole) (level : Nat) (rest : List Char) :
    skipSpace ((t.prettyAt level).toList ++ rest) = (t.prettyAt level).toList ++ rest := by
  obtain ⟨c, cs, hc, hs, -⟩ := prettyAt_eq_cons h level
  rw [hc]
  exact skipSpace_cons hs _

theorem length_prettyAt_pos {t : Tree} (h : t.Whole) (level : Nat) :
    0 < (t.prettyAt level).toList.length := by
  obtain ⟨c, cs, hc, -⟩ := prettyAt_eq_cons h level
  rw [hc]
  exact Nat.succ_pos _

/-- Whether a document is read as it was written, whatever stands behind it that ends a number. -/
def Rereads (t : Tree) : Prop :=
  ∀ (level fuel : Nat) (cs rest : List Char), skipSpace cs = (t.prettyAt level).toList ++ rest →
    Stops rest → 2 * (t.prettyAt level).toList.length ≤ fuel + 1 →
    readValue (fuel + 1) cs = (t.outline, some rest)

theorem rereads_null : Rereads .null := by
  intro level fuel cs rest h _ _
  rw [prettyAt] at h
  rw [readValue, h]
  rfl

theorem rereads_bool (b : Bool) : Rereads (.bool b) := by
  intro level fuel cs rest h _ _
  rw [prettyAt] at h
  rw [readValue, h]
  cases b with
  | false => rfl
  | true => rfl

theorem readValue_digit {fuel : Nat} {cs rest : List Char} {c : Char} (hd : isDigit c)
    (h : skipSpace cs = c :: rest) : readValue (fuel + 1) cs = readNumber false (c :: rest) := by
  rw [readValue, h]
  split
  case h_1 hc => cases hc
  case h_9 hc =>
    cases hc
    rw [if_pos hd]
  all_goals
    next hc =>
    cases hc
    cases hd

theorem rereads_int {n : Int} (small : n.natAbs < UInt64.size) : Rereads (.int n) := by
  intro level fuel cs rest h stops _
  rw [prettyAt, toString_int_toList] at h
  split at h
  · next negative =>
    rw [readValue, h]
    have read := readNumber_toDigits true small (by omega) stops
    rw [if_pos rfl] at read
    rw [outline, ← Int.eq_neg_natAbs_of_nonpos (Int.le_of_lt negative)] at *
    exact read
  · next positive =>
    obtain ⟨c, digits, hc, hd⟩ := exists_digit n.natAbs
    have read := readNumber_toDigits false small (by simp) stops
    rw [hc] at h read
    rw [readValue_digit hd h]
    rw [outline, ← Int.natAbs_of_nonneg (Int.not_lt.mp positive)]
    exact read

theorem rereads_text (s : String) : Rereads (.text s) := by
  intro level fuel cs rest h _ _
  obtain ⟨quoted, hq⟩ := quote_eq_cons s
  rw [prettyAt, hq] at h
  rw [readValue, h]
  show readText (quoted ++ rest) = _
  rw [readText, readQuoted_quote hq]
  rfl

section

variable {fuel : Nat} {cs behind rest : List Char} {o : Outline}

theorem readItems_last (hv : readValue fuel cs = (o, some behind))
    (hb : skipSpace behind = ']' :: rest) :
    readItems (fuel + 1) cs = (([o], none), some rest) := by
  rw [readItems, hv]
  simp only [hb]

theorem readItems_more {more : List Char} {os : List Outline}
    (hv : readValue fuel cs = (o, some behind)) (hb : skipSpace behind = ',' :: more)
    (hm : readItems fuel more = ((os, none), some rest)) :
    readItems (fuel + 1) cs = ((o :: os, none), some rest) := by
  rw [readItems, hv]
  simp only [hb, hm]

variable {key : String} {quoted value : List Char}

theorem readMembers_last (hq : (quote key).toList = '"' :: quoted)
    (h : skipSpace cs = '"' :: (quoted ++ ':' :: value))
    (hv : readValue fuel value = (o, some behind)) (hb : skipSpace behind = '\x7d' :: rest) :
    readMembers (fuel + 1) cs = (([(.ok key, o)], none), some rest) := by
  rw [readMembers, h]
  simp only [readQuoted_quote hq, skipSpace_cons (c := ':') rfl, hv, hb]
  rfl

theorem readMembers_more {more : List Char} {os : List (Except KeyFault String × Outline)}
    (hq : (quote key).toList = '"' :: quoted) (h : skipSpace cs = '"' :: (quoted ++ ':' :: value))
    (hv : readValue fuel value = (o, some behind)) (hb : skipSpace behind = ',' :: more)
    (hm : readMembers fuel more = ((os, none), some rest)) :
    readMembers (fuel + 1) cs = (((.ok key, o) :: os, none), some rest) := by
  rw [readMembers, h]
  simp only [readQuoted_quote hq, skipSpace_cons (c := ':') rfl, hv, hb, hm]
  rfl

end

theorem skipSpace_comma (cs : List Char) : skipSpace (',' :: cs) = ',' :: cs :=
  skipSpace_cons rfl cs

theorem stops_comma (cs : List Char) : Stops (',' :: cs) :=
  stops_of_skipSpace (skipSpace_comma cs) ⟨rfl, by decide, by decide, by decide⟩

theorem readItems_spread (level : Nat) {items : List Tree} (hw : ∀ t ∈ items, t.Whole)
    (hr : ∀ t ∈ items, t.Rereads) (ne : items ≠ []) {fuel : Nat} {cs behind rest : List Char}
    (h : skipSpace cs = spread level (prettyItems level items) ++ behind)
    (hb : skipSpace behind = ']' :: rest)
    (hf : 2 * (spread level (prettyItems level items)).length ≤ fuel) :
    readItems (fuel + 1) cs = ((outlineItems items, none), some rest) := by
  induction items generalizing fuel cs with
  | nil => exact absurd rfl ne
  | cons t ts ih =>
    rw [List.forall_mem_cons] at hw hr
    have pos := length_prettyAt_pos hw.1 level
    cases ts with
    | nil =>
      rw [prettyItems, prettyItems, spread_singleton] at h hf
      obtain ⟨fuel, rfl⟩ := Nat.exists_eq_add_one.mpr (show 0 < fuel by omega)
      have stops := stops_of_skipSpace hb ⟨rfl, by decide, by decide, by decide⟩
      exact readItems_last (hr.1 level fuel cs behind h stops hf) hb
    | cons u us =>
      rw [prettyItems, prettyItems, spread_cons_cons, ← prettyItems] at h hf
      simp only [List.append_assoc, List.cons_append, List.length_append, List.length_cons] at h hf
      obtain ⟨fuel, rfl⟩ := Nat.exists_eq_add_one.mpr (show 0 < fuel by omega)
      have next : skipSpace ((newline level).toList
          ++ (spread level (prettyItems level (u :: us)) ++ behind))
          = spread level (prettyItems level (u :: us)) ++ behind := by
        obtain ⟨c, cs, hc, hs, -⟩ := prettyAt_eq_cons (hw.2 u List.mem_cons_self) level
        rw [skipSpace_newline, prettyItems, skipSpace_spread hc hs]
      exact readItems_more (hr.1 level fuel cs _ h (stops_comma _) (by omega)) (skipSpace_comma _)
        (ih hw.2 hr.2 (List.cons_ne_nil _ _) next (by omega))

theorem exists_quoted (level : Nat) (key : String) (t : Tree) :
    ∃ quoted, (quote key).toList = '"' :: quoted ∧
      (quote key ++ ": " ++ t.prettyAt level).toList
        = '"' :: (quoted ++ ':' :: ' ' :: (t.prettyAt level).toList) := by
  obtain ⟨quoted, hq⟩ := quote_eq_cons key
  refine ⟨quoted, hq, ?_⟩
  rw [String.toList_append, String.toList_append, hq, List.append_assoc]
  rfl

theorem readMembers_spread (level : Nat) {members : List (String × Tree)}
    (hw : ∀ kt ∈ members, kt.2.Whole) (hr : ∀ kt ∈ members, kt.2.Rereads) (ne : members ≠ [])
    {fuel : Nat} {cs behind rest : List Char}
    (h : skipSpace cs = spread level (prettyMembers level members) ++ behind)
    (hb : skipSpace behind = '\x7d' :: rest)
    (hf : 2 * (spread level (prettyMembers level members)).length ≤ fuel) :
    readMembers (fuel + 1) cs = ((outlineMembers members, none), some rest) := by
  induction members generalizing fuel cs with
  | nil => exact absurd rfl ne
  | cons kt ts ih =>
    obtain ⟨k, t⟩ := kt
    rw [List.forall_mem_cons] at hw hr
    obtain ⟨(ht : t.Rereads), hts⟩ := hr
    obtain ⟨quoted, hq, line⟩ := exists_quoted level k t
    have value (rest : List Char) : skipSpace (' ' :: ((t.prettyAt level).toList ++ rest))
        = (t.prettyAt level).toList ++ rest := skipSpace_prettyAt hw.1 level rest
    cases ts with
    | nil =>
      rw [prettyMembers, prettyMembers, spread_singleton, line] at h hf
      simp only [List.cons_append, List.append_assoc, List.length_cons, List.length_append] at h hf
      obtain ⟨fuel, rfl⟩ := Nat.exists_eq_add_one.mpr (show 0 < fuel by omega)
      have stops := stops_of_skipSpace hb ⟨rfl, by decide, by decide, by decide⟩
      exact readMembers_last hq h (ht level fuel _ behind (value _) stops (by omega)) hb
    | cons next ts =>
      obtain ⟨k', t'⟩ := next
      rw [prettyMembers, prettyMembers, spread_cons_cons, ← prettyMembers, line] at h hf
      simp only [List.cons_append, List.append_assoc, List.length_cons, List.length_append] at h hf
      obtain ⟨fuel, rfl⟩ := Nat.exists_eq_add_one.mpr (show 0 < fuel by omega)
      have more : skipSpace ((newline level).toList
          ++ (spread level (prettyMembers level ((k', t') :: ts)) ++ behind))
          = spread level (prettyMembers level ((k', t') :: ts)) ++ behind := by
        obtain ⟨quoted', -, line'⟩ := exists_quoted level k' t'
        rw [skipSpace_newline, prettyMembers, skipSpace_spread line' rfl]
      exact readMembers_more hq h (ht level fuel _ _ (value _) (stops_comma _) (by omega))
        (skipSpace_comma _) (ih hw.2 hts (List.cons_ne_nil _ _) more (by omega))

section

variable {fuel : Nat} {cs inner rest : List Char}

theorem readValue_array_nil (h : skipSpace cs = '[' :: inner) (hi : skipSpace inner = ']' :: rest) :
    readValue (fuel + 1) cs = (.array [] none, some rest) := by
  rw [readValue, h]
  simp only [hi]

theorem readValue_array {c : Char} {first : List Char} {os : List Outline}
    (h : skipSpace cs = '[' :: inner) (hi : skipSpace inner = c :: first) (hc : c ≠ ']')
    (ho : readItems fuel (c :: first) = ((os, none), some rest)) :
    readValue (fuel + 1) cs = (.array os none, some rest) := by
  rw [readValue, h]
  simp [hi, hc, ho]

theorem readValue_object_nil (h : skipSpace cs = '\x7b' :: inner)
    (hi : skipSpace inner = '\x7d' :: rest) :
    readValue (fuel + 1) cs = (.object [] none, some rest) := by
  rw [readValue, h]
  simp only [hi]

theorem readValue_object {c : Char} {first : List Char}
    {os : List (Except KeyFault String × Outline)} (h : skipSpace cs = '\x7b' :: inner)
    (hi : skipSpace inner = c :: first) (hc : c ≠ '\x7d')
    (ho : readMembers fuel (c :: first) = ((os, none), some rest)) :
    readValue (fuel + 1) cs = (.object os none, some rest) := by
  rw [readValue, h]
  simp [hi, hc, ho]

end

theorem skipSpace_closing {c : Char} (hc : isSpace c = false) (level : Nat) (rest : List Char) :
    skipSpace ((newline level).toList ++ c :: rest) = c :: rest := by
  rw [skipSpace_newline, skipSpace_cons hc]

theorem rereads_array {items : List Tree} (hw : ∀ t ∈ items, t.Whole)
    (hr : ∀ t ∈ items, t.Rereads) : Rereads (.array items) := by
  intro level fuel cs rest h _ hf
  cases items with
  | nil =>
    rw [prettyAt, prettyItems, toList_block_nil "[" "]" (l := '[') (r := ']') rfl rfl] at h
    exact readValue_array_nil h (skipSpace_cons rfl rest)
  | cons t ts =>
    rw [prettyAt, prettyItems, toList_block "[" "]" (l := '[') (r := ']') rfl rfl, ← prettyItems]
      at h hf
    simp only [List.cons_append, List.append_assoc, List.length_append, List.length_cons] at h hf
    obtain ⟨fuel, rfl⟩ := Nat.exists_eq_add_one.mpr (show 0 < fuel by omega)
    obtain ⟨c, cs', hc, hs, hb⟩ := prettyAt_eq_cons (hw t List.mem_cons_self) (level + 1)
    obtain ⟨first, hl⟩ := spread_eq_cons hc (level + 1) (prettyItems (level + 1) ts)
    rw [← prettyItems] at hl
    have inner (behind : List Char) : skipSpace (spread (level + 1)
        (prettyItems (level + 1) (t :: ts)) ++ behind) = c :: (first ++ behind) := by
      rw [hl]
      exact skipSpace_cons hs _
    refine readValue_array h ((skipSpace_newline _ _).trans (inner _)) hb ?_
    refine readItems_spread (level + 1) hw hr (List.cons_ne_nil t ts) ?_
      (skipSpace_closing rfl level rest) (by omega)
    rw [hl]
    exact skipSpace_cons hs _

theorem rereads_object {members : List (String × Tree)} (hw : ∀ kt ∈ members, kt.2.Whole)
    (hr : ∀ kt ∈ members, kt.2.Rereads) : Rereads (.object members) := by
  intro level fuel cs rest h _ hf
  cases members with
  | nil =>
    rw [prettyAt, prettyMembers,
      toList_block_nil "\x7b" "\x7d" (l := '\x7b') (r := '\x7d') rfl rfl] at h
    exact readValue_object_nil h (skipSpace_cons rfl rest)
  | cons kt ts =>
    obtain ⟨k, t⟩ := kt
    rw [prettyAt, prettyMembers,
      toList_block "\x7b" "\x7d" (l := '\x7b') (r := '\x7d') rfl rfl, ← prettyMembers] at h hf
    simp only [List.cons_append, List.append_assoc, List.length_append, List.length_cons] at h hf
    obtain ⟨fuel, rfl⟩ := Nat.exists_eq_add_one.mpr (show 0 < fuel by omega)
    obtain ⟨quoted, -, line⟩ := exists_quoted (level + 1) k t
    obtain ⟨first, hl⟩ := spread_eq_cons line (level + 1) (prettyMembers (level + 1) ts)
    rw [← prettyMembers] at hl
    have inner (behind : List Char) : skipSpace (spread (level + 1)
        (prettyMembers (level + 1) ((k, t) :: ts)) ++ behind) = '"' :: (first ++ behind) := by
      rw [hl]
      exact skipSpace_cons rfl _
    refine readValue_object h ((skipSpace_newline _ _).trans (inner _)) (by decide) ?_
    refine readMembers_spread (level + 1) hw hr (List.cons_ne_nil _ ts) ?_
      (skipSpace_closing rfl level rest) (by omega)
    rw [hl]
    exact skipSpace_cons rfl _

theorem Whole.rereads {t : Tree} (h : t.Whole) : t.Rereads := by
  induction h with
  | null => exact rereads_null
  | bool b => exact rereads_bool b
  | int small => exact rereads_int small
  | text s => exact rereads_text s
  | array hw ih => exact rereads_array hw ih
  | object hw ih => exact rereads_object hw ih

end Tree

/-- A written document is read to its end as what it was written from. -/
theorem read_pretty {t : Tree} (h : t.Whole) : Document.read t.pretty = ⟨t.outline, false⟩ := by
  have pos := Tree.length_prettyAt_pos h 0
  have start := Tree.skipSpace_prettyAt h 0 []
  rw [List.append_nil] at start
  rw [Document.read, Tree.pretty]
  rw [h.rereads 0 _ _ [] (by rw [start, List.append_nil]) trivial (by omega)]
  rfl

end TypeLang.Json
