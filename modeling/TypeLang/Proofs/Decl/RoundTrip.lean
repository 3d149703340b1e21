import TypeLang.Proofs.Decl.Simple

namespace TypeLang.Decl

open Text

/- The written form -/

variable {d : Decl}

def headWord (d : Decl) : List Char := d.fullName.toList ++ '#' :: (hex8 d.id).toList

def tokens (d : Decl) : List (List Char) :=
  (if d.generics = [] then [] else [Generic.token d.generics]) ++ d.params.map (·.render.toList)

def result (d : Decl) : TypeExpr := d.type.mapHead fun n => { n with placeholder := false }

theorem toList_renderGenerics (generics : List Generic) : (renderGenerics generics).toList
    = (if generics = [] then [] else [Generic.token generics]).flatMap (' ' :: ·) := by
  rw [renderGenerics]
  by_cases none : generics = []
  · rw [if_pos none, none]
    rfl
  · rw [if_neg none, if_neg (by simpa using none)]
    simp [Generic.token, String.toList_intercalate, Function.comp_def]

theorem toList_join_params (params : List Param) :
    (String.join (params.map fun p => " " ++ p.render)).toList
      = (params.map (·.render.toList)).flatMap (' ' :: ·) := by
  induction params with
  | nil => rfl
  | cons p params ih =>
    rw [List.map_cons, String.join_cons, String.toList_append, String.toList_append, ih]
    rfl

def front (d : Decl) : List Char := d.headWord ++ (d.tokens.flatMap (' ' :: ·) ++ [' '])

theorem toList_render (d : Decl) :
    d.render.toList = d.front ++ '=' :: ' ' :: d.result.render.toList ++ [';'] := by
  rw [render, front, tokens, List.flatMap_append, ← toList_renderGenerics, ← toList_join_params,
    headWord]
  simp [result]

namespace Canonical

theorem isTypeChar_of_mem_fullName (h : d.Canonical) {c : Char} (hc : c ∈ d.fullName.toList) :
    isTypeChar c := by
  rcases mem_dotted hc with rfl | ⟨part, hp, hm⟩
  · decide
  · exact isTypeChar_of_isIdentChar ((h.name part hp).simple c hm)

theorem isTokenChar_of_mem_headWord (h : d.Canonical) {c : Char} (hc : c ∈ d.headWord) :
    isTokenChar c := by
  rw [headWord, List.mem_append, List.mem_cons] at hc
  rcases hc with hc | rfl | hc
  · exact isTokenChar_of_isTypeChar (h.isTypeChar_of_mem_fullName hc)
  · decide
  · rw [hex8, String.toList_ofList] at hc
    exact isTokenChar_of_isIdentChar (isIdentChar_of_mem_hexDigits hc)

theorem of_mem_tokens (h : d.Canonical) {token : List Char} (ht : token ∈ d.tokens) :
    token ≠ [] ∧ ∀ c ∈ token, isTokenChar c := by
  rcases List.mem_append.mp ht with ht | ht
  · split at ht
    · cases ht
    · obtain rfl := List.mem_singleton.mp ht
      exact ⟨List.cons_ne_nil _ _, fun c hc => Generic.isTokenChar_of_mem_token h.generics hc⟩
  · obtain ⟨p, hp, rfl⟩ := List.mem_map.mp ht
    refine ⟨?_, fun c hc => (h.params p hp).isTokenChar_of_mem_render hc⟩
    simp [Param.render]

theorem result (h : d.Canonical) : d.result.Canonical :=
  (TypeExpr.forall_names_mapHead_iff fun _ =>
    ⟨fun h => ⟨h.parts, h.bare⟩, fun h => ⟨h.parts, h.bare⟩⟩).mpr h.type

/- Reading it -/

theorem isTokenChar_or_blank (h : d.Canonical) {c : Char} (hc : c ∈ d.front) :
    isTokenChar c ∨ c = ' ' := by
  rw [front, List.mem_append, List.mem_append, List.mem_singleton] at hc
  rcases hc with hc | hc | hc
  · exact .inl (h.isTokenChar_of_mem_headWord hc)
  · obtain ⟨token, ht, hc⟩ := List.mem_flatMap.mp hc
    rcases List.mem_cons.mp hc with hc | hc
    · exact .inr hc
    · exact .inl ((h.of_mem_tokens ht).2 c hc)
  · exact .inr hc

theorem not_isBlank_of_mem_head? (h : d.Canonical) (behind : List Char) :
    ∀ c ∈ (d.front ++ behind).head?, ¬ isBlank c := by
  have ne : d.headWord ≠ [] := by simp [headWord]
  rw [front, List.append_assoc, List.head?_append_of_ne_nil _ ne]
  intro c hc
  exact not_isBlank_of_isTokenChar (h.isTokenChar_of_mem_headWord (List.mem_of_mem_head? hc))

theorem isTypeChar_of_mem_getLast? (h : d.Canonical) :
    ∀ c ∈ (d.front ++ '=' :: ' ' :: d.result.render.toList).getLast?, isTypeChar c := by
  rw [List.append_cons, List.append_cons, List.getLast?_append_of_ne_nil _ h.result.render_ne]
  exact fun c hc => h.result.isTypeChar_of_mem_render (List.mem_of_mem_getLast? hc)

theorem body_render (h : d.Canonical) :
    body d.render.toList = d.front ++ '=' :: ' ' :: d.result.render.toList := by
  have whole : trim (d.front ++ '=' :: ' ' :: d.result.render.toList ++ [';'])
      = d.front ++ '=' :: ' ' :: d.result.render.toList ++ [';'] := by
    refine trim_of_ends ?_ ?_
    · rw [List.append_assoc]
      exact h.not_isBlank_of_mem_head? _
    · rw [List.getLast?_concat]
      rintro _ ⟨⟩
      decide
  have last : ∀ c ∈ (d.front ++ '=' :: ' ' :: d.result.render.toList).getLast?,
      ¬ decide (c = ';') = true := by
    intro c hc semicolon
    obtain rfl := of_decide_eq_true semicolon
    exact absurd (h.isTypeChar_of_mem_getLast? _ hc) (by decide)
  rw [body, toList_render, whole, dropEndWhile_concat (decide_eq_true rfl) last]
  exact trim_of_ends (h.not_isBlank_of_mem_head? _) fun c hc =>
    not_isBlank_of_isTokenChar (isTokenChar_of_isTypeChar (h.isTypeChar_of_mem_getLast? c hc))

end Canonical

/-- By induction on the parameters: each is taken behind what it refers to. -/
theorem readTokens_params {generics : List Generic} {before params : List Param}
    (guarded : Guarded before params) (canonical : ∀ p ∈ params, p.Canonical)
    (closed : ∀ p ∈ params, ∀ e ∈ p.expr?, e.Closed generics) :
    readTokens generics before (params.map (·.render.toList))
      = .ok (generics, before ++ params) := by
  induction guarded with
  | nil => rw [List.map_nil, readTokens, List.append_nil]
  | @cons before rest p hg _ ih =>
    rw [List.forall_mem_cons] at canonical closed
    have declared : declared generics before p :=
      declared_iff.mpr ⟨fun g hm => (hg g hm).2, closed.1⟩
    rw [List.map_cons, readTokens, if_neg canonical.1.head?_render_ne, canonical.1.read_render]
    refine (if_pos declared).trans ?_
    rw [ih canonical.2 closed.2, List.append_assoc, List.singleton_append]

theorem Canonical.readTokens_tokens (h : d.Canonical) :
    readTokens [] [] d.tokens = .ok (d.generics, d.params) := by
  have params := readTokens_params h.guarded h.params h.closed
  rw [List.nil_append] at params
  rw [tokens]
  by_cases none : d.generics = []
  · rw [if_pos none, List.nil_append, ← params, none]
  · have brace : (Generic.token d.generics).head? = some '\x7b' := rfl
    rw [if_neg none, List.singleton_append, readTokens, if_pos brace,
      Generic.readList_token none h.generics]
    exact params

theorem readId_hex8 (rule : IdRule) (text : List Char) (id : UInt32) :
    readId rule text (some (hex8 id).toList) = .ok id := by
  have read : readNat 16 UInt32.size (hex8 id).toList = .ok id.toNat := by
    rw [hex8, String.toList_ofList]
    exact readNat_hexDigits id.toNat_lt id.toNat_lt
  rw [readId, read]
  dsimp only
  rw [UInt32.ofNat_toNat]

/-- A canonical declaration is read as it is written, up to what is not written. -/
theorem Canonical.read_render (h : d.Canonical) (rule : IdRule) :
    read rule d.render.toList = .ok { d with kind := .constructor, comment := none } := by
  have type : TypeExpr.read (trim (' ' :: d.result.render.toList)) = .ok d.result := by
    rw [trim_cons_of_blank rfl, trim_of_forall, h.result.read_render]
    exact fun c hc => not_isBlank_of_isTokenChar
      (isTokenChar_of_isTypeChar (h.result.isTypeChar_of_mem_render hc))
  have equals : '=' ∉ d.front := by
    intro hc
    rcases h.isTokenChar_or_blank hc with hc | hc
    · exact absurd hc (by decide)
    · exact absurd hc (by decide)
  have hash : '#' ∉ d.fullName.toList := fun hc =>
    absurd (h.isTypeChar_of_mem_fullName hc) (by decide)
  have cut : cut? '#' d.headWord = some (d.fullName.toList, (hex8 d.id).toList) := cut?_append hash
  have split : words d.front = d.headWord :: d.tokens := by
    refine words_flatMap (by simp [headWord]) (fun c hc => ?_) fun token ht => ?_
    · exact not_isBlank_of_isTokenChar (h.isTokenChar_of_mem_headWord hc)
    · obtain ⟨ne, chars⟩ := h.of_mem_tokens ht
      exact ⟨ne, fun c hc => not_isBlank_of_isTokenChar (chars c hc)⟩
  have named : readDotted? (withoutId d.headWord) = some (d.space, d.name) := by
    rw [withoutId, cut]
    exact readDotted?_dotted fun part hp => isPart_of_isIdent (h.name part hp)
  have id : readId rule (body d.render.toList) ((cut? '#' d.headWord).map (·.2)) = .ok d.id := by
    rw [cut, Option.map_some, readId_hex8]
  have left : cut? '=' (body d.render.toList) = some (d.front, ' ' :: d.result.render.toList) := by
    rw [h.body_render]
    exact cut?_append equals
  rw [read_eq_ok_iff.mpr (.intro left type split named id h.readTokens_tokens), Decl.result,
    markResult_mapHead h.mark]

/-- A declaration whose names have the characters of identifiers, and whose result is marked only if
it is named like a generic, is written as a text that is read as this declaration, however it got
its id. -/
theorem parse_render_of_parse {rule : IdRule} {text : String} {d : Decl}
    (h : parse rule text = .ok d) (simple : d.Simple)
    (mark : d.type.head.placeholder → ∃ g ∈ d.generics, g.name = d.type.head.name) :
    parse none d.render = .ok d := by
  have again := (canonical_of_read h simple mark).read_render none
  -- a text is read as a constructor without a comment
  obtain ⟨-, -, -, -, -, -⟩ := read_eq_ok_iff.mp h
  exact again

def sendText : String :=
  "p.send#8BE \x7bX:Type\x7d flags:# to:flags.31?%p.Peer \x7bY:Type\x7d ids:Vector<%Vector<!Y>> = X;;"

def send : Decl where
  space := ["p"]
  name := "send"
  id := 0x8be
  generics := [⟨"X", "Type"⟩, ⟨"Y", "Type"⟩]
  params := [
    ⟨"flags", .flags⟩,
    ⟨"to", .value (.plain ⟨["p"], "Peer", true, false⟩) (some ⟨"flags", 31⟩)⟩,
    ⟨"ids", .value (.apply ⟨[], "Vector", false, false⟩ (.apply ⟨[], "Vector", true, false⟩
      (.plain ⟨[], "Y", false, true⟩))) none⟩]
  type := .plain ⟨[], "X", false, true⟩
  kind := .constructor
  comment := none

theorem parse_render_of_parse_send :
    parse none sendText = .ok send ∧ parse none send.render = .ok send := by
  have h : parse none sendText = .ok send := by decide +kernel
  have simple : send.Simple := by decide +kernel
  have mark : send.type.head.placeholder →
      ∃ g ∈ send.generics, g.name = send.type.head.name := by decide
  exact ⟨h, parse_render_of_parse h simple mark⟩

end TypeLang.Decl
