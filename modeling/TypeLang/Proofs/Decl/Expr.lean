import TypeLang.Decl.TypeExpr
import TypeLang.Proofs.Except
import TypeLang.Proofs.Text.Pieces

namespace TypeLang.Decl

open Text

/- Dotted names -/

structure IsPart (part : String) : Prop where
  ne : part ≠ ""
  point : '.' ∉ part.toList

theorem toList_dotted (space : List String) (name : String) :
    (dotted space name).toList = ['.'].intercalate ((space ++ [name]).map String.toList) :=
  String.toList_intercalate

section

variable {space : List String} {name : String}

theorem dotted_nil (name : String) : dotted [] name = name := String.intercalate_singleton

theorem pieces_dotted (h : ∀ part ∈ space ++ [name], IsPart part) :
    pieces (· = '.') (dotted space name).toList = (space ++ [name]).map String.toList := by
  rw [toList_dotted]
  refine pieces_intercalate (by simp) fun w hw => ?_
  obtain ⟨part, hp, rfl⟩ := List.mem_map.mp hw
  exact (h part hp).point

theorem readDotted?_dotted (h : ∀ part ∈ space ++ [name], IsPart part) :
    readDotted? (dotted space name).toList = some (space, name) := by
  have full : ((space ++ [name]).map String.toList).any (·.isEmpty) = false := by
    rw [List.any_map, List.any_eq_false]
    exact fun part hp => by simpa using (h part hp).ne
  rw [readDotted?, pieces_dotted h, full]
  simp [Function.comp_def]

theorem eq_of_readDotted? {cs : List Char} (h : readDotted? cs = some (space, name)) :
    (∀ part ∈ space ++ [name], IsPart part) ∧ (dotted space name).toList = cs := by
  rw [readDotted?] at h
  split at h
  · cases h
  · next full =>
    obtain ⟨last, hl, he⟩ := Option.map_eq_some_iff.mp h
    cases he
    have parts : ((pieces (· = '.') cs).dropLast.map String.ofList ++ [String.ofList last]).map
        String.toList = pieces (· = '.') cs := by
      rw [List.map_append, List.map_map, List.map_singleton, String.toList_ofList]
      simpa [Function.comp_def] using List.dropLast_append_getLast? last hl
    refine ⟨fun part hp => ⟨fun hn => full ?_, fun hc => ?_⟩, ?_⟩
    · have hm : part.toList ∈ pieces (· = '.') cs := parts ▸ List.mem_map_of_mem hp
      exact List.any_eq_true.mpr ⟨_, hm, by rw [hn]; rfl⟩
    · have hm : part.toList ∈ pieces (· = '.') cs := parts ▸ List.mem_map_of_mem hp
      exact (of_mem_pieces hm '.' hc).2 (decide_eq_true rfl)
    · rw [toList_dotted, parts, intercalate_pieces]

end

/- Marks -/

def Marked (cs : List Char) : Prop := cs.head? = some '!' ∨ cs.head? = some '%'

instance (cs : List Char) : Decidable (Marked cs) :=
  inferInstanceAs (Decidable (cs.head? = some '!' ∨ cs.head? = some '%'))

theorem marked_append {front : List Char} (ne : front ≠ []) (behind : List Char) :
    Marked (front ++ behind) ↔ Marked front := by
  cases front with
  | nil => exact absurd rfl ne
  | cons c cs => rfl

theorem not_marked_nil : ¬ Marked [] := by decide

def marks (generic percent : Bool) : String :=
  (if generic then "!" else "") ++ (if percent then "%" else "")

namespace TypeExpr

theorem takeMark_of_ne {c : Char} {cs : List Char} (h : cs.head? ≠ some c) :
    takeMark c cs = (false, cs) := by
  cases cs with
  | nil => rfl
  | cons x xs => rw [takeMark, if_neg (by simpa using h)]

theorem takeMark_cons (c : Char) (cs : List Char) : takeMark c (c :: cs) = (true, cs) := by
  rw [takeMark, if_pos rfl]

theorem eq_of_takeMark {c : Char} {cs : List Char} (h : (takeMark c cs).1 = false) :
    (takeMark c cs).2 = cs ∧ cs.head? ≠ some c := by
  by_cases hc : cs.head? = some c
  · obtain ⟨cs', rfl⟩ := List.head?_eq_some_iff.mp hc
    rw [takeMark_cons] at h
    cases h
  · rw [takeMark_of_ne hc]
    exact ⟨rfl, hc⟩

theorem takeMarks_of_not_marked {cs : List Char} (h : ¬ Marked cs) :
    takeMarks cs = (false, false, cs) := by
  rw [Marked, not_or] at h
  rw [takeMarks, takeMark_of_ne h.1, takeMark_of_ne h.2]

theorem takeMarks_generic (cs : List Char) : takeMarks ('!' :: cs) = (true, takeMark '%' cs) := by
  rw [takeMarks, takeMark_cons]

theorem takeMarks_percent (cs : List Char) : takeMarks ('%' :: cs) = (false, true, cs) := by
  rw [takeMarks, takeMark_of_ne (by simp), takeMark_cons]

theorem takeMarks_marks {cs : List Char} (h : ¬ Marked cs) (generic percent : Bool) :
    takeMarks ((marks generic percent).toList ++ cs) = (generic, percent, cs) := by
  cases generic with
  | false =>
    cases percent with
    | false => exact takeMarks_of_not_marked h
    | true => exact takeMarks_percent cs
  | true =>
    cases percent with
    | false =>
      refine (takeMarks_generic cs).trans ?_
      rw [takeMark_of_ne (not_or.mp h).2]
    | true =>
      refine (takeMarks_generic ('%' :: cs)).trans ?_
      rw [takeMark_cons]

theorem eq_of_takeMarks {cs : List Char} (generic : (takeMarks cs).1 = false)
    (percent : (takeMarks cs).2.1 = false) : (takeMarks cs).2.2 = cs ∧ ¬ Marked cs := by
  obtain ⟨hg, noGeneric⟩ := eq_of_takeMark generic
  obtain ⟨hp, noPercent⟩ := eq_of_takeMark percent
  rw [hg] at hp noPercent
  refine ⟨?_, not_or.mpr ⟨noGeneric, noPercent⟩⟩
  rw [takeMarks, hg]
  exact hp

theorem not_marked_of_eq {cs : List Char} (h : cs = (takeMarks cs).2.2) : ¬ Marked cs := by
  rintro (hm | hm)
  · obtain ⟨rest, rfl⟩ := List.head?_eq_some_iff.mp hm
    rw [takeMarks_generic] at h
    have short := length_takeMark_le '%' rest
    rw [← h, List.length_cons] at short
    exact Nat.not_succ_le_self _ short
  · obtain ⟨rest, rfl⟩ := List.head?_eq_some_iff.mp hm
    rw [takeMarks_percent] at h
    exact List.cons_ne_self '%' rest h

/- Reading -/

variable {cs front back : List Char}

theorem read_plain (h : cut? '<' (takeMarks cs).2.2 = none) :
    read cs = (readName (takeMarks cs) (takeMarks cs).2.2).map .plain := by
  rw [read]
  split
  · rfl
  · next hc =>
    rw [h] at hc
    cases hc

theorem read_bracket (h : cut? '<' (takeMarks cs).2.2 = some (front, back)) :
    read cs = match dropLast? '>' back with
      | none => .error .unclosedArgument
      | some inner => do
        let arg ← read inner
        let name ← readName (takeMarks cs) front
        return .apply name arg := by
  rw [read]
  split
  · next hc =>
    rw [h] at hc
    cases hc
  · next hc =>
    rw [h] at hc
    cases hc
    split
    · next hi => rw [hi]
    · next hi => rw [hi]

theorem read_name {n : TypeName} {percent : Bool}
    (h : takeMarks cs = (n.placeholder, percent, n.fullName.toList))
    (bare : (percent || startsLower n.name) = n.bare)
    (parts : ∀ part ∈ n.space ++ [n.name], IsPart part) (bracket : '<' ∉ n.fullName.toList) :
    read cs = .ok (.plain n) := by
  rw [read_plain (by rw [h]; exact cut?_eq_none_iff.mpr bracket), h]
  dsimp only
  rw [readName, TypeName.fullName, readDotted?_dotted parts]
  dsimp only
  rw [bare]
  rfl

theorem fullName_of_read {n : TypeName} (h : read cs = .ok (.plain n)) :
    n.fullName.toList = (takeMarks cs).2.2 := by
  cases hc : cut? '<' (takeMarks cs).2.2 with
  | none =>
    rw [read_plain hc, readName] at h
    split at h
    · cases h
    · next hd =>
      cases h
      exact (eq_of_readDotted? hd).2
  | some pieces =>
    rw [read_bracket hc] at h
    split at h
    · cases h
    · obtain ⟨arg, -, h⟩ := except_bind_eq_ok.mp h
      obtain ⟨n, -, h⟩ := except_bind_eq_ok.mp h
      cases h

theorem read_apply {n : TypeName} {percent : Bool} {inner : List Char}
    (h : takeMarks cs = (n.placeholder, percent, n.fullName.toList ++ '<' :: (inner ++ ['>'])))
    (bare : (percent || startsLower n.name) = n.bare)
    (parts : ∀ part ∈ n.space ++ [n.name], IsPart part) (bracket : '<' ∉ n.fullName.toList) :
    read cs = (read inner).map (.apply n) := by
  rw [read_bracket (by rw [h]; exact cut?_append bracket), dropLast?_append, h]
  dsimp only
  rw [readName, TypeName.fullName, readDotted?_dotted parts]
  dsimp only
  rw [bare]
  cases read inner with
  | error fault => rfl
  | ok arg => rfl

theorem read_argument {name : String} (part : IsPart name) (bracket : '<' ∉ name.toList)
    (unmarked : ¬ Marked name.toList) (inner : List Char) :
    read (name.toList ++ '<' :: (inner ++ ['>']))
      = (read inner).map (.apply ⟨[], name, startsLower name, false⟩ ·) := by
  have ne : name.toList ≠ [] := by simpa using part.ne
  have alone : dotted [] name = name := dotted_nil name
  refine read_apply ?_ (Bool.false_or _) (by simpa using part) ?_
  · rw [TypeName.fullName, alone]
    exact takeMarks_of_not_marked ((marked_append ne _).not.mpr unmarked)
  · rwa [TypeName.fullName, alone]

end TypeExpr

/- What has been read -/

/-- What names of type expressions look like. Without marks, the marks of a name follow from its
text. -/
structure TypeName.Sound (h : TypeName) : Prop where
  parts : ∀ part ∈ h.space ++ [h.name], IsPart part
  bracket : '<' ∉ h.fullName.toList
  unmarked : h.placeholder = false → h.bare = false →
    startsLower h.name = false ∧ ¬ Marked h.fullName.toList

inductive TypeExpr.Sound : TypeExpr → Prop
  | plain {h : TypeName} : h.Sound → Sound (.plain h)
  | apply {h : TypeName} {arg : TypeExpr} : h.Sound → arg.Sound → Sound (.apply h arg)

theorem TypeExpr.Sound.head {e : TypeExpr} (h : e.Sound) : e.head.Sound := by
  cases h with
  | plain hs => exact hs
  | apply hs _ => exact hs

namespace TypeExpr

theorem sound_of_readName {cs front behind : List Char} {h : TypeName}
    (hc : (takeMarks cs).2.2 = front ++ behind) (bracket : '<' ∉ front)
    (hn : readName (takeMarks cs) front = .ok h) : h.Sound := by
  rw [readName] at hn
  split at hn
  · cases hn
  · next space name hd =>
    cases hn
    obtain ⟨parts, full⟩ := eq_of_readDotted? hd
    refine ⟨parts, ?_, fun hp hb => ?_⟩
    · rw [TypeName.fullName, full]
      exact bracket
    · obtain ⟨percent, lower⟩ := Bool.or_eq_false_iff.mp hb
      obtain ⟨whole, none⟩ := eq_of_takeMarks hp percent
      refine ⟨lower, fun marked => none ?_⟩
      rw [TypeName.fullName, full] at marked
      have ne : front ≠ [] := by
        rintro rfl
        exact not_marked_nil marked
      rwa [← whole, hc, marked_append ne]

theorem sound_of_read {cs : List Char} {e : TypeExpr} (h : read cs = .ok e) : e.Sound := by
  induction cs using read.induct generalizing e with
  | case1 cs hc =>
    rw [read_plain hc] at h
    obtain ⟨n, hn, rfl⟩ := except_map_eq_ok.mp h
    exact .plain (sound_of_readName (List.append_nil _).symm (cut?_eq_none_iff.mp hc) hn)
  | case2 cs front back hc hi =>
    rw [read_bracket hc, hi] at h
    cases h
  | case3 cs front back hc inner hi ih =>
    rw [read_bracket hc, hi] at h
    obtain ⟨arg, ha, h⟩ := except_bind_eq_ok.mp h
    obtain ⟨n, hn, h⟩ := except_bind_eq_ok.mp h
    cases h
    exact .apply (sound_of_readName (eq_append_of_cut? hc) (not_mem_of_cut? hc) hn) (ih ha)

end TypeExpr

end TypeLang.Decl
