import TypeLang.Decl.Basic
import TypeLang.Decl.Hash
import TypeLang.Proofs.Text.Spaced

namespace TypeLang.Decl

open Text

structure IsPhrase (ws : List (List Char)) : Prop where
  words : ∀ w ∈ ws, IsWord w
  parts : ∃ front result, ws = front ++ [['='], result] ∧ front ≠ [] ∧
    (∀ w ∈ front, '=' ∉ w) ∧ '=' ∉ result ∧ result.getLast? ≠ some ';'

/-- The text is of these words, with white space between each two and around them all. Behind them
there may be semicolons, which may have white space in front of them. -/
inductive LaidOut (ws : List (List Char)) : List Char → Prop
  | intro {front cs gap stop back : List Char} : (∀ c ∈ front, isBlank c) → Spaced ws cs →
      (∀ c ∈ gap, isBlank c) → (∀ c ∈ stop, c = ';') → (∀ c ∈ back, isBlank c) →
      LaidOut ws (front ++ (cs ++ gap ++ stop ++ back))

def hashedFormOf : List (List Char) → List Char
  | [] => []
  | name :: tokens =>
    join [' '] (hashedWords (withoutId name) ++ tokens.flatMap hashedWords)

theorem hashedForm_eq (cs : List Char) :
    hashedForm cs = hashedFormOf (words (dropEndWhile (· = ';') (trim cs))) := rfl

theorem withoutId_append {name : List Char} (h : '#' ∉ name) (hex : List Char) :
    withoutId (name ++ '#' :: hex) = name := by
  rw [withoutId, cut?_append h]

theorem withoutId_of_not_mem {name : List Char} (h : '#' ∉ name) : withoutId name = name := by
  rw [withoutId, cut?_eq_none_iff.mpr h]

section

variable {ws : List (List Char)} {cs text text' : List Char}

def Unstopped (ws : List (List Char)) : Prop := ws.getLast?.bind List.getLast? ≠ some ';'

theorem IsPhrase.unstopped (h : IsPhrase ws) : Unstopped ws := by
  obtain ⟨front, result, rfl, -, -, -, stop⟩ := h.parts
  rw [Unstopped, List.getLast?_append_of_ne_nil _ (List.cons_ne_nil _ _)]
  exact stop

theorem IsPhrase.unstopped_cons {head : List Char} (h : IsPhrase (head :: ws)) (w : List Char) :
    Unstopped (w :: ws) := by
  have unstopped := h.unstopped
  obtain ⟨front, result, parts, ne, -, -, -⟩ := h.parts
  cases front with
  | nil => exact absurd rfl ne
  | cons v front =>
    have full : ws ≠ [] := by simp [(List.cons.inj parts).2]
    rw [Unstopped, List.getLast?_cons_of_ne_nil full] at unstopped ⊢
    exact unstopped

theorem laidOut_of_spaced (h : Spaced ws cs) : LaidOut ws cs := by
  have plain : LaidOut ws ([] ++ (cs ++ [] ++ [] ++ [])) :=
    .intro (by simp) h (by simp) (by simp) (by simp)
  simpa using plain

theorem LaidOut.exists_spaced (h : LaidOut ws text) (hw : ∀ w ∈ ws, IsWord w)
    (unstopped : Unstopped ws) : ∃ cs gap, Spaced ws cs ∧ (∀ c ∈ gap, isBlank c) ∧
      dropEndWhile (· = ';') (trim text) = cs ++ gap := by
  obtain @⟨front, cs, gap, stop, back, hf, hs, hg, hstop, hb⟩ := h
  have last : ∀ c ∈ cs.getLast?, ¬ decide (c = ';') = true := by
    intro c hc he
    rw [hs.getLast?_eq hw] at hc
    exact unstopped (of_decide_eq_true he ▸ hc)
  rw [trim_append_left hf, trim_append_right hb]
  by_cases none : stop = []
  · -- what is behind the words is white space around them
    refine ⟨cs, [], hs, by simp, ?_⟩
    rw [none, List.append_nil, trim_append_right hg, hs.trim_eq hw,
      dropEndWhile_of_getLast? last, List.append_nil]
  · have whole : trim (cs ++ gap ++ stop) = cs ++ gap ++ stop := by
      refine trim_of_ends ?_ ?_
      · rw [List.append_assoc, List.head?_append_of_ne_nil _ (hs.text_ne_nil hw), hs.head?_eq hw]
        intro c hc
        obtain ⟨w, hm, hc⟩ := Option.bind_eq_some_iff.mp hc
        exact (hw w (List.mem_of_mem_head? hm)).2 c (List.mem_of_mem_head? hc)
      · rw [List.getLast?_append_of_ne_nil _ none]
        intro c hc
        rw [hstop c (List.mem_of_mem_getLast? hc)]
        decide
    refine ⟨cs, gap, hs, hg, ?_⟩
    rw [whole, dropEndWhile_append fun c hc => by simpa using hstop c hc]
    refine dropEndWhile_of_getLast? fun c hc => ?_
    rw [List.getLast?_append] at hc
    rcases Option.or_eq_some_iff.mp hc with hc | ⟨-, hc⟩
    · intro he
      have blank := hg c (List.mem_of_mem_getLast? hc)
      rw [of_decide_eq_true he] at blank
      exact absurd blank (by decide)
    · exact last c hc

theorem LaidOut.spaced_body (h : LaidOut ws text) (hw : ∀ w ∈ ws, IsWord w)
    (unstopped : Unstopped ws) : Spaced ws (body text) := by
  obtain ⟨cs, gap, hs, hg, dropped⟩ := h.exists_spaced hw unstopped
  rwa [body, dropped, trim_append_right hg, hs.trim_eq hw]

theorem LaidOut.hashedForm (h : LaidOut ws text) (hw : ∀ w ∈ ws, IsWord w)
    (unstopped : Unstopped ws) : hashedForm text = hashedFormOf ws := by
  obtain ⟨cs, gap, hs, hg, dropped⟩ := h.exists_spaced hw unstopped
  rw [hashedForm_eq, dropped, hs.words_append hw hg]

theorem LaidOut.hashedId_body (h : LaidOut ws text) (h' : LaidOut ws text')
    (hw : ∀ w ∈ ws, IsWord w) (unstopped : Unstopped ws) :
    hashedId (body text) = hashedId (body text') := by
  rw [hashedId, hashedId,
    (laidOut_of_spaced (h.spaced_body hw unstopped)).hashedForm hw unstopped,
    (laidOut_of_spaced (h'.spaced_body hw unstopped)).hashedForm hw unstopped]

theorem exists_cut?_of_spaced {front : List (List Char)} {result : List Char}
    (h : Spaced (front ++ [['='], result]) cs) (hw : ∀ w ∈ front, IsWord w) (hr : IsWord result)
    (equals : ∀ w ∈ front, '=' ∉ w) :
    ∃ left right, cut? '=' cs = some (left, right) ∧ words left = front ∧ trim right = result := by
  induction front generalizing cs with
  | nil =>
    cases h with
    | @more _ gap cs _ _ hg hs =>
      cases hs with
      | last _ =>
        refine ⟨[], gap ++ result, cut?_append List.not_mem_nil, rfl, ?_⟩
        rw [trim_append_left hg, trim_of_forall hr.2]
      | more _ _ hn => exact absurd rfl hn.ne_nil
  | cons w front ih =>
    rw [List.forall_mem_cons] at hw equals
    rw [List.cons_append] at h
    generalize he : front ++ [['='], result] = behind at h
    cases h with
    | last _ => simp at he
    | @more _ gap cs _ ne hg hs =>
      subst he
      obtain ⟨left, right, cut, hl, hr⟩ := ih hs hw.2 equals.2
      have none : '=' ∉ w ++ (gap ++ left) := by
        rw [List.mem_append, List.mem_append]
        rintro (hm | hm | hm)
        · exact equals.1 hm
        · exact absurd (hg _ hm) (by decide)
        · exact not_mem_of_cut? cut hm
      refine ⟨w ++ (gap ++ left), right, ?_, ?_, hr⟩
      · rw [eq_append_of_cut? cut, ← List.append_assoc, ← List.append_assoc, List.append_assoc w]
        exact cut?_append none
      · rw [hw.1.words_append ne hg, hl]

/-- What is read depends on the words in front of the first `=`, on what is behind it, and on the
id of the whole. -/
theorem read_congr {rule : IdRule} {left right left' right' : List Char}
    (h : cut? '=' (body text) = some (left, right))
    (h' : cut? '=' (body text') = some (left', right')) (hw : words left = words left')
    (ht : trim right = trim right')
    (id : ∀ hex?, readId rule (body text) hex? = readId rule (body text') hex?) :
    read rule text = read rule text' := by
  have full : (body text).isEmpty = false := by
    rw [eq_append_of_cut? h]
    simp
  have full' : (body text').isEmpty = false := by
    rw [eq_append_of_cut? h']
    simp
  simp only [read, full, full', h, h', hw, ht, id]

theorem read_eq_of_laidOut (phrase : IsPhrase ws) (h : LaidOut ws text) (h' : LaidOut ws text') :
    read (some hashedId) text = read (some hashedId) text' := by
  have id := h.hashedId_body h' phrase.words phrase.unstopped
  have spaced := h.spaced_body phrase.words phrase.unstopped
  have spaced' := h'.spaced_body phrase.words phrase.unstopped
  have words := phrase.words
  obtain ⟨front, result, rfl, -, equals, -, -⟩ := phrase.parts
  rw [List.forall_mem_append] at words
  have hr : IsWord result := words.2 result (by simp)
  obtain ⟨left, right, cut, hl, ht⟩ := exists_cut?_of_spaced spaced words.1 hr equals
  obtain ⟨left', right', cut', hl', ht'⟩ := exists_cut?_of_spaced spaced' words.1 hr equals
  refine read_congr cut cut' (hl.trans hl'.symm) (ht.trans ht'.symm) fun hex? => ?_
  cases hex? with
  | none => rw [readId, readId, id]
  | some hex => rfl

end

/-- All texts of the words of a declaration are read alike, with the id that follows from them where
none is written. An id behind the name has no part in the one that follows from the text. -/
theorem parse_laidOut {ws : List (List Char)} (phrase : IsPhrase ws) :
    (∀ text text' : String, LaidOut ws text.toList → LaidOut ws text'.toList →
      parse (some hashedId) text = parse (some hashedId) text') ∧
    ∀ head tokens, ws = head :: tokens → ∀ name hex, IsWord name → '#' ∉ name →
      (∀ c ∈ hex, ¬ isBlank c) → ∀ text text' : String,
        LaidOut ((name ++ '#' :: hex) :: tokens) text.toList →
        LaidOut (name :: tokens) text'.toList →
          hashedId text.toList = hashedId text'.toList := by
  refine ⟨fun text text' h h' => read_eq_of_laidOut phrase h h', ?_⟩
  rintro head tokens rfl name hex word hash blanks text text' h h'
  have others := (List.forall_mem_cons.mp phrase.words).2
  have numbered : IsWord (name ++ '#' :: hex) := by
    refine ⟨by simp, ?_⟩
    rw [List.forall_mem_append, List.forall_mem_cons]
    exact ⟨word.2, by decide, blanks⟩
  have form := h.hashedForm (List.forall_mem_cons.mpr ⟨numbered, others⟩) (phrase.unstopped_cons _)
  have form' := h'.hashedForm (List.forall_mem_cons.mpr ⟨word, others⟩) (phrase.unstopped_cons _)
  rw [hashedId, hashedId, form, form', hashedFormOf, hashedFormOf, withoutId_append hash,
    withoutId_of_not_mem hash]

/-- `x:int y:Vector<int> = Pair` -/
def pairTokens : List (List Char) := ["x:int", "y:Vector<int>", "=", "Pair"].map String.toList

def pair : Decl where
  space := []
  name := "pair"
  id := 0xce911526
  generics := []
  params := [
    ⟨"x", .value (.plain ⟨[], "int", true, false⟩) none⟩,
    ⟨"y", .value (.apply ⟨[], "Vector", false, false⟩ (.plain ⟨[], "int", true, false⟩)) none⟩]
  type := .plain ⟨[], "Pair", false, false⟩
  kind := .constructor
  comment := none

theorem spaced_pair (name : List Char) {gap : List Char} (ne : gap ≠ [])
    (h : ∀ c ∈ gap, isBlank c) :
    Spaced (name :: pairTokens) (name ++ (gap ++ ("x:int".toList ++ (gap ++
      ("y:Vector<int>".toList ++ (gap ++ ("=".toList ++ (gap ++ "Pair".toList)))))))) :=
  .more ne h (.more ne h (.more ne h (.more ne h (.last _))))

theorem parse_laidOut_pair :
    parse (some hashedId) "pair x:int y:Vector<int> = Pair" = .ok pair ∧
      parse (some hashedId)
        "\n pair\t\u2003x:int\t\u2003y:Vector<int>\t\u2003=\t\u2003Pair ;;\u00a0" = .ok pair ∧
      hashedId "pair#8be x:int y:Vector<int> = Pair".toList = pair.id := by
  have space : ∀ c ∈ [' '], isBlank c := List.all_eq_true.mp (by decide)
  have gap : ∀ c ∈ ['\t', '\u2003'], isBlank c := List.all_eq_true.mp (by decide)
  have phrase : IsPhrase ("pair".toList :: pairTokens) := by
    refine ⟨by decide, ["pair", "x:int", "y:Vector<int>"].map String.toList, "Pair".toList, rfl, ?_⟩
    decide
  have plain : LaidOut ("pair".toList :: pairTokens) "pair x:int y:Vector<int> = Pair".toList :=
    laidOut_of_spaced (spaced_pair _ (List.cons_ne_nil ' ' []) space)
  have wide : LaidOut ("pair".toList :: pairTokens)
      "\n pair\t\u2003x:int\t\u2003y:Vector<int>\t\u2003=\t\u2003Pair ;;\u00a0".toList :=
    @LaidOut.intro _ ['\n', ' '] _ [' '] [';', ';'] ['\u00a0'] (List.all_eq_true.mp (by decide))
      (spaced_pair _ (List.cons_ne_nil '\t' ['\u2003']) gap) space (by simp)
      (List.all_eq_true.mp (by decide))
  have numbered : LaidOut (("pair".toList ++ '#' :: "8be".toList) :: pairTokens)
      "pair#8be x:int y:Vector<int> = Pair".toList :=
    laidOut_of_spaced (spaced_pair _ (List.cons_ne_nil ' ' []) space)
  have read : parse (some hashedId) "pair x:int y:Vector<int> = Pair" = .ok pair := by
    decide +kernel
  obtain ⟨alike, number⟩ := parse_laidOut phrase
  refine ⟨read, (alike _ _ wide plain).trans read, ?_⟩
  have digits : IsWord "8be".toList := by decide
  rw [number _ _ rfl "pair".toList "8be".toList (by decide) (by decide) digits.2 _
    "pair x:int y:Vector<int> = Pair" numbered plain]
  decide +kernel

end TypeLang.Decl
