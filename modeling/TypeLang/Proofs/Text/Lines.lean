import TypeLang.Proofs.Read.Takes
import TypeLang.Proofs.Text.Spaced

namespace TypeLang.Text

theorem exists_pieces_concat (p : Char → Bool) (cs : List Char) :
    ∃ ended last, pieces p cs = ended ++ [last] := by
  obtain ⟨w, ws, h⟩ := exists_pieces p cs
  exact ⟨(w :: ws).dropLast, (w :: ws).getLast (List.cons_ne_nil w ws),
    h.trans (List.dropLast_append_getLast _).symm⟩

theorem lines_eq {cs last : List Char} {ended : List (List Char)}
    (h : pieces (· = '\n') cs = ended ++ [last]) :
    lines cs =
      ended.map (fun l => (dropLast? '\r' l).getD l) ++ if last = [] then [] else [last] := by
  rw [lines, h, List.reverse_append, List.reverse_singleton, List.singleton_append]
  dsimp only
  rw [List.reverse_reverse]
  split
  · rw [List.append_nil]
  · rfl

theorem trim_getD_dropLast? (cs : List Char) : trim ((dropLast? '\r' cs).getD cs) = trim cs := by
  cases h : dropLast? '\r' cs with
  | none => rfl
  | some front =>
    rw [eq_append_of_dropLast? h, trim_append_right (List.all_eq_true.mp (by decide))]
    rfl

/-- White space aside, the lines are the pieces between line feeds. -/
theorem trim_getElem?_lines (cs : List Char) (i : Nat) :
    trim ((lines cs)[i]?.getD []) = trim ((pieces (· = '\n') cs)[i]?.getD []) := by
  obtain ⟨ended, last, h⟩ := exists_pieces_concat (· = '\n') cs
  rw [lines_eq h, h]
  rcases Nat.lt_or_ge i ended.length with hi | hi
  · rw [List.getElem?_append_left (by rwa [List.length_map]), List.getElem?_append_left hi,
      List.getElem?_map, List.getElem?_eq_getElem hi]
    exact trim_getD_dropLast? ended[i]
  · rw [List.getElem?_append_right (by rwa [List.length_map]), List.getElem?_append_right hi,
      List.length_map]
    split
    · next none =>
      subst none
      cases i - ended.length with
      | zero => rfl
      | succ n => rfl
    · rfl

/- The bytes of a text -/

def utf8 (cs : List Char) : List UInt8 := octets (String.ofList cs).toUTF8

theorem utf8_eq (cs : List Char) : utf8 cs = cs.flatMap String.utf8EncodeChar := by
  rw [utf8, octets, String.toUTF8_eq_toByteArray, String.toByteArray_ofList, List.utf8Encode,
    List.data_toByteArray]

theorem utf8_append (cs ds : List Char) : utf8 (cs ++ ds) = utf8 cs ++ utf8 ds := by
  rw [utf8_eq, utf8_eq, utf8_eq, List.flatMap_append]

theorem utf8_lineFeed_cons (cs : List Char) : utf8 ('\n' :: cs) = 10 :: utf8 cs :=
  utf8_append ['\n'] cs

theorem toNat_of_mem_utf8EncodeChar {c : Char} {b : UInt8} (h : b ∈ String.utf8EncodeChar c)
    (low : b.toNat < 128) : c.toNat = b.toNat := by
  have marked : ∀ n, 128 ≤ n → n < 256 → b ≠ UInt8.ofNat n := by
    rintro n hl hr rfl
    rw [UInt8.toNat_ofNat'] at low
    omega
  rw [String.utf8EncodeChar] at h
  split at h
  · next ascii =>
    obtain rfl := List.mem_singleton.mp h
    rw [UInt8.toNat_ofNat', Nat.mod_eq_of_lt (by omega)]
    rfl
  -- the bytes of a longer form are all marked
  · exfalso
    split at h
    · rcases List.mem_pair.mp h with h | h
      · exact marked _ (by omega) (by omega) h
      · exact marked _ (by omega) (by omega) h
    · split at h
      · simp only [List.mem_cons, List.not_mem_nil, or_false] at h
        rcases h with h | h | h
        all_goals exact marked _ (by omega) (by omega) h
      · simp only [List.mem_cons, List.not_mem_nil, or_false] at h
        rcases h with h | h | h | h
        all_goals exact marked _ (by omega) (by omega) h

theorem lineFeed_not_mem_utf8 {cs : List Char} (h : '\n' ∉ cs) : 10 ∉ utf8 cs := by
  rw [utf8_eq, List.mem_flatMap]
  rintro ⟨c, hc, hb⟩
  have code : c.toNat = '\n'.toNat := toNat_of_mem_utf8EncodeChar hb (by decide)
  rw [Char.toNat_inj] at code
  exact h (code ▸ hc)

end TypeLang.Text
