import TypeLang.Command.Resolver
import TypeLang.Proofs.Merge.Outcome
import TypeLang.Proofs.Read.Primitive
import TypeLang.Proofs.Text.Lines
import TypeLang.Proofs.Text.Numeral

namespace TypeLang.Command.Prompt

open Text Merge

/-- What a line says about a conflict of the sources: `d` drops the entry, and a number keeps the
definition of the source of this number, or drops the entry if this source has none. -/
def reply (sources : List Layered) (c : Conflict) (line : List Char) : Option Resolution :=
  let answer := trim line
  if answer = ['d'] ∨ answer = ['D'] then some .drop
  else do
    let n ← number? UInt64.size answer
    let source ← sources[n]?
    match source.schema.find? c.kind c.name with
    | some entry => return .keep entry
    | none => return .drop

/-- Answers the conflict of number `i` from line `i` of the text alone. The state is the number of
the next conflict. -/
def byLine (sources : List Layered) (text : String) : Resolver Nat := fun c i =>
  ((lines text.toList)[i]?.bind (reply sources c), i + 1)

def replies (sources : List Layered) (text : String) (i : Nat) (cs : List Conflict) :
    List (Option Resolution) :=
  (cs.zipIdx i).map fun (c, j) => (lines text.toList)[j]?.bind (reply sources c)

def countAsked : List (Option Resolution) → Nat
  | [] => 0
  | none :: _ => 1
  | some _ :: rest => countAsked rest + 1

/-- The input behind the first `n` lines of a text. -/
def behind (text : String) (n : Nat) : Answers where
  input := utf8 (join ['\n'] ((pieces (· = '\n') text.toList).drop n))
  garbled := false

theorem behind_zero (text : String) : behind text 0 = ⟨octets text.toUTF8, false⟩ := by
  rw [behind, List.drop_zero, join, intercalate_pieces, utf8, String.ofList_toList]

/- One question -/

theorem reply_nil (sources : List Layered) (c : Conflict) : reply sources c [] = none := rfl

theorem getElem?_candidates (sources : List Layered) (kind : Kind) (name : String) (n : Nat) :
    (candidates sources kind name)[n]? =
      sources[n]?.map fun s => ⟨n, s.layer, s.schema.find? kind name⟩ := by
  rw [candidates, List.getElem?_map, List.getElem?_zipIdx, Option.map_map, Nat.zero_add]
  rfl

theorem meaning_eq_reply {sources : List Layered} {c : Conflict}
    (h : c.candidates = candidates sources c.kind c.name) (line : List Char) :
    meaning c line = reply sources c line := by
  rw [meaning, reply, toOption_readNat (by decide), h]
  congr 1
  cases number? UInt64.size (trim line) with
  | none => rfl
  | some n =>
    change (candidates sources c.kind c.name)[n]?.bind _ = sources[n]?.bind _
    rw [getElem?_candidates]
    cases sources[n]? with
    | none => rfl
    | some source =>
      dsimp only [Option.map, Option.bind]
      cases source.schema.find? c.kind c.name with
      | none => rfl
      | some entry => rfl

theorem reply_congr {sources : List Layered} {c : Conflict} {line line' : List Char}
    (h : trim line = trim line') : reply sources c line = reply sources c line' := by
  rw [reply, reply, h]

theorem reply_line (sources : List Layered) (c : Conflict) (cs : List Char) (i : Nat) :
    reply sources c ((pieces (· = '\n') cs)[i]?.getD []) =
      (lines cs)[i]?.bind (reply sources c) := by
  rw [← reply_congr (trim_getElem?_lines cs i)]
  cases (lines cs)[i]? with
  | none => exact reply_nil sources c
  | some line => rfl

section

variable {line : List UInt8} (h : 10 ∉ line)
include h

theorem ne_lineFeed : ∀ b ∈ line, decide (b ≠ 10) = true := fun _ hb =>
  decide_eq_true (ne_of_mem_of_not_mem hb h)

theorem nextLine_of_not_mem : nextLine line = (line, []) := by
  rw [nextLine, List.takeWhile_eq_self_iff.mpr (ne_lineFeed h),
    List.dropWhile_eq_nil_iff.mpr (ne_lineFeed h), List.drop_nil]

theorem nextLine_append (rest : List UInt8) : nextLine (line ++ 10 :: rest) = (line, rest) := by
  rw [nextLine, List.takeWhile_append_of_pos (ne_lineFeed h),
    List.dropWhile_append_of_pos (ne_lineFeed h), List.takeWhile_cons_of_neg (by decide),
    List.dropWhile_cons_of_neg (by decide), List.append_nil]
  rfl

end

theorem nextLine_join {ps : List (List Char)} (h : ∀ w ∈ ps, '\n' ∉ w) :
    nextLine (utf8 (join ['\n'] ps)) = (utf8 (ps.headD []), utf8 (join ['\n'] ps.tail)) := by
  cases ps with
  | nil => rfl
  | cons w ps =>
    have inside : 10 ∉ utf8 w := lineFeed_not_mem_utf8 (h w List.mem_cons_self)
    cases ps with
    | nil =>
      rw [join, List.intercalate_singleton]
      exact nextLine_of_not_mem inside
    | cons v ps =>
      rw [join, List.intercalate_cons_cons, List.append_assoc, List.singleton_append, utf8_append,
        utf8_lineFeed_cons]
      exact nextLine_append inside _

theorem resolver_of_nextLine {line : List Char} {rest : List UInt8} {state : Answers}
    (h : nextLine state.input = (utf8 line, rest)) (c : Conflict) :
    resolver c state = (meaning c line, ⟨rest, false⟩) := by
  have text : String.fromUTF8? ⟨(utf8 line).toArray⟩ = some (String.ofList line) :=
    Read.fromUTF8?_toUTF8 (String.ofList line)
  simp only [resolver, bind, StateT.bind, get, getThe, MonadStateOf.get, StateT.get, pure, h, text,
    String.toList_ofList]
  rfl

theorem resolver_behind {sources : List Layered} {c : Conflict}
    (h : c.candidates = candidates sources c.kind c.name) (text : String) (i : Nat) :
    resolver c (behind text i) =
      ((byLine sources text c i).1, behind text (byLine sources text c i).2) := by
  have clean : ∀ w ∈ (pieces (· = '\n') text.toList).drop i, '\n' ∉ w := by
    intro w hw hn
    exact (of_mem_pieces (List.mem_of_mem_drop hw) _ hn).2 (decide_eq_true rfl)
  rw [resolver_of_nextLine (nextLine_join clean), meaning_eq_reply h, List.headD_eq_head?_getD,
    List.head?_drop, reply_line, List.tail_drop]
  rfl

/- All questions -/

/-- By induction on the keys: each conflict that is asked about takes one number. -/
theorem run_byLine (sources : List Layered) (text : String) (ks : List (Kind × String)) (i : Nat) :
    let asked := countAsked (replies sources text i (ks.filterMap (dispute? sources)))
    (run sources (byLine sources text) ks i).1.asked =
        (ks.filterMap (dispute? sources)).take asked ∧
      (run sources (byLine sources text) ks i).2 = i + asked := by
  induction ks generalizing i with
  | nil => exact ⟨rfl, rfl⟩
  | cons key ks ih =>
    obtain ⟨kind, name⟩ := key
    cases hd : dispute? sources (kind, name) with
    | none =>
      rw [List.filterMap_cons_none hd, run_of_agree hd]
      cases common? (definitions sources (kind, name)) with
      | none => exact ih i
      | some entry => exact ih i
    | some c =>
      rw [List.filterMap_cons_some hd, run_of_dispute hd, byLine, replies, List.zipIdx_cons,
        List.map_cons]
      dsimp only
      cases (lines text.toList)[i]?.bind (reply sources c) with
      | none => exact ⟨rfl, rfl⟩
      | some r =>
        obtain ⟨asked, count⟩ := ih (i + 1)
        refine ⟨congrArg (c :: ·) asked, count.trans ?_⟩
        rw [countAsked, Nat.add_right_comm]
        rfl

/-- A merge that asks for its answers comes to what the lines say, each about the conflict of its
own number. As many lines are taken as conflicts are shown, and these are the conflicts up to the
first one that is left open. -/
theorem merge_eq_byLine (sources : List Layered) (text : String) :
    let asked := countAsked (replies sources text 0 (disputes sources))
    merge sources resolver ⟨octets text.toUTF8, false⟩ =
        ((merge sources (byLine sources text) 0).1, behind text asked) ∧
      (run sources resolver (keys sources) ⟨octets text.toUTF8, false⟩).1.asked =
        (disputes sources).take asked := by
  have same : run sources resolver (keys sources) (behind text 0) =
      ((run sources (byLine sources text) (keys sources) 0).1,
        behind text (run sources (byLine sources text) (keys sources) 0).2) :=
    run_map (fun _ _ hc t => resolver_behind (candidates_of_dispute? hc) text t) (keys sources) 0
  obtain ⟨asked, count⟩ := run_byLine sources text (keys sources) 0
  rw [behind_zero] at same
  rw [Nat.zero_add] at count
  refine ⟨?_, ?_⟩
  · rw [merge_eq, merge_eq, same, count]
    rfl
  · rw [same]
    exact asked

/-- Numbers are those of all sources: the joint that is kept is not of the top layer. -/
example :
    replies [older, newer, rival] " +0\r\nd" 0 (disputes [older, newer, rival]) =
      [some (.keep (joint 2))] := by
  decide +kernel

end TypeLang.Command.Prompt
