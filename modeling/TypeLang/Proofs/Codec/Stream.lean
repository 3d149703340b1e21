import TypeLang.Codec.Stream
import TypeLang.Proofs.Codec.Crash
import TypeLang.Proofs.Codec.Onward

namespace TypeLang.Codec

open Read

/-- Values in a row, each from where the one before it ends, and each of at least four bytes. -/
inductive Tiles (c : Codec) : Cursor → List (Nat × Value) → Cursor → Prop
  | nil (cursor : Cursor) : Tiles c cursor [] cursor
  | cons {cursor mid last : Cursor} {v : Value} {items : List (Nat × Value)} :
      c.decodeAny cursor = .ok v mid → cursor.pos + 4 ≤ mid.pos → Tiles c mid items last →
      Tiles c cursor ((cursor.pos, v) :: items) last

/-- Why decoding stops where it stops: at the end, at what cannot be decoded, or because the program
stops. -/
inductive Stops (c : Codec) (cursor : Cursor) : Option ReadFault → Cursor → Prop
  | done : cursor.pos = cursor.bytes.size → Stops c cursor none cursor
  | stuck {fault : ReadFault} {next : Cursor} : cursor.pos < cursor.bytes.size →
      ¬ fault.IsCrash → c.decodeAny cursor = .error fault next → next.pos = cursor.pos →
      next.bytes = cursor.bytes → Stops c cursor (some fault) next
  | crashed {fault : ReadFault} {next : Cursor} : cursor.pos < cursor.bytes.size →
      fault.IsCrash → c.decodeAny cursor = .error fault next → Stops c cursor (some fault) next

theorem advances_of_decodeAny {c : Codec} {cursor next : Cursor} {v : Value}
    (h : c.decodeAny cursor = .ok v next) : cursor.Reaches next ∧ cursor.pos + 4 ≤ next.pos := by
  have reaches := (allOrNothing_decode c).1.ok h
  have taken := atLeast_readAny c _ (rewinding_eq_ok h)
  refine ⟨reaches, ?_⟩
  obtain ⟨bytes, forwards, inside⟩ := reaches
  rw [Cursor.length_left, Cursor.length_left, Cursor.remaining, Cursor.remaining, bytes] at taken
  omega

namespace Tiles

variable {c : Codec} {cursor last : Cursor} {items : List (Nat × Value)}

theorem reaches (h : c.Tiles cursor items last) : cursor.Reaches last := by
  induction h with
  | nil cursor => exact .refl cursor
  | cons hv _ _ ih => exact (advances_of_decodeAny hv).1.trans ih

theorem length_le (h : c.Tiles cursor items last) :
    cursor.pos + 4 * items.length ≤ last.pos := by
  induction h with
  | nil cursor => exact Nat.le_refl _
  | cons _ hw _ ih =>
    rw [List.length_cons]
    omega

end Tiles

def rounds (cursor : Cursor) : Nat := (cursor.remaining + 3) / 4

theorem rounds_lt {c : Codec} {cursor next : Cursor} {v : Value}
    (h : c.decodeAny cursor = .ok v next) : rounds next < rounds cursor := by
  have taken := atLeast_readAny c _ (rewinding_eq_ok h)
  rw [Cursor.length_left, Cursor.length_left] at taken
  rw [rounds, rounds]
  omega

theorem isEmpty_of_rounds {cursor : Cursor} (h : rounds cursor = 0) : cursor.isEmpty = true := by
  rw [rounds] at h
  have : cursor.remaining = 0 := by omega
  simp [Cursor.isEmpty, this]

theorem stops_of_isEmpty (c : Codec) {cursor : Cursor} (h : cursor.isEmpty = true)
    (inside : cursor.pos ≤ cursor.bytes.size) : c.Stops cursor none cursor := by
  have : cursor.remaining = 0 := by simpa [Cursor.isEmpty] using h
  rw [Cursor.remaining] at this
  exact .done (by omega)

theorem stops_of_error {c : Codec} {cursor next : Cursor} {fault : ReadFault}
    (h : cursor.isEmpty = false) (hv : c.decodeAny cursor = .error fault next) :
    c.Stops cursor (some fault) next := by
  have : cursor.remaining ≠ 0 := by simpa [Cursor.isEmpty] using h
  rw [Cursor.remaining] at this
  by_cases crash : fault.IsCrash
  · exact .crashed (by omega) crash hv
  · obtain ⟨bytes, pos⟩ := (allOrNothing_decode c).1.error hv crash
    exact .stuck (by omega) crash hv pos bytes

theorem Stops.not_isCrash {c : Codec} {cursor next : Cursor} {fault : Option ReadFault}
    (h : c.Stops cursor fault next) (crashless : c.Crashless) {f : ReadFault}
    (hf : fault = some f) :
    ¬ f.IsCrash := by
  cases h with
  | done => cases hf
  | stuck _ free =>
    cases hf
    exact free
  | crashed _ _ h =>
    cases hf
    exact crashless.decodeAny h

theorem decodeOnto_of_isEmpty (c : Codec) (n : Nat) (items : List (Nat × Value)) {cursor : Cursor}
    (h : cursor.isEmpty = true) : c.decodeOnto n items cursor = ⟨items.reverse, none, cursor⟩ := by
  cases n with
  | zero => rfl
  | succ n => rw [decodeOnto, if_pos h]

/-- With enough rounds, the values tile what is left: by induction on the rounds, of which each
value takes one. -/
theorem exists_tiles_decodeOnto (c : Codec) {n : Nat} {cursor : Cursor}
    (hn : rounds cursor ≤ n) (inside : cursor.pos ≤ cursor.bytes.size)
    (items : List (Nat × Value)) : ∃ more last, c.Tiles cursor more last ∧
      (c.decodeOnto n items cursor).items = items.reverse ++ more ∧
      c.Stops last (c.decodeOnto n items cursor).fault (c.decodeOnto n items cursor).cursor := by
  induction n generalizing cursor items with
  | zero =>
    have he := isEmpty_of_rounds (Nat.le_zero.mp hn)
    exact ⟨[], cursor, .nil cursor, (List.append_nil _).symm, stops_of_isEmpty c he inside⟩
  | succ n ih =>
    cases he : cursor.isEmpty with
    | true =>
      rw [decodeOnto_of_isEmpty c _ _ he]
      exact ⟨[], cursor, .nil cursor, (List.append_nil _).symm, stops_of_isEmpty c he inside⟩
    | false =>
      rw [decodeOnto, he, if_neg Bool.false_ne_true]
      cases hv : c.decodeAny cursor with
      | error fault next =>
        exact ⟨[], cursor, .nil cursor, (List.append_nil _).symm, stops_of_error he hv⟩
      | ok v next =>
        obtain ⟨reaches, wide⟩ := advances_of_decodeAny hv
        have enough : rounds next ≤ n := by
          have := rounds_lt hv
          omega
        have inside : next.pos ≤ next.bytes.size := reaches.bytes ▸ reaches.inside inside
        obtain ⟨more, last, tiles, hi, stops⟩ := ih enough inside ((cursor.pos, v) :: items)
        refine ⟨(cursor.pos, v) :: more, last, .cons hv wide tiles, ?_, stops⟩
        rw [hi, List.reverse_cons, List.append_assoc, List.singleton_append]

theorem decodeOnto_congr (c : Codec) {n m : Nat} {cursor : Cursor} (hn : rounds cursor ≤ n)
    (hm : rounds cursor ≤ m) (items : List (Nat × Value)) :
    c.decodeOnto n items cursor = c.decodeOnto m items cursor := by
  induction n generalizing m cursor items with
  | zero =>
    have he := isEmpty_of_rounds (Nat.le_zero.mp hn)
    rw [decodeOnto_of_isEmpty c _ _ he, decodeOnto_of_isEmpty c _ _ he]
  | succ n ih =>
    cases he : cursor.isEmpty with
    | true => rw [decodeOnto_of_isEmpty c _ _ he, decodeOnto_of_isEmpty c _ _ he]
    | false =>
      cases m with
      | zero =>
        rw [isEmpty_of_rounds (Nat.le_zero.mp hm)] at he
        cases he
      | succ m =>
        rw [decodeOnto, decodeOnto]
        cases hv : c.decodeAny cursor with
        | error fault next => rfl
        | ok v next =>
          have fewer := rounds_lt hv
          dsimp only
          rw [ih (m := m) (by omega) (by omega)]

/-- Decoding a payload accounts for all of its bytes: the values tile it up to where decoding stops,
which is at the end, at what cannot be decoded or where the program stops, and which further rounds
do not change. -/
structure Accounted (c : Codec) (bytes : ByteArray) (stream : Stream) : Prop where
  tiles : ∃ last : Cursor, c.Tiles (.ofBytes bytes) stream.items last ∧ last.bytes = bytes ∧
    c.Stops last stream.fault stream.cursor
  length : stream.items.length ≤ bytes.size / 4
  settled : ∀ n, (bytes.size + 3) / 4 ≤ n → c.decodeOnto n [] (.ofBytes bytes) = stream

theorem accounted_decodeStream (c : Codec) (bytes : ByteArray) :
    c.Accounted bytes (c.decodeStream (.ofBytes bytes)) := by
  have enough : rounds (.ofBytes bytes) ≤ (Cursor.ofBytes bytes).remaining := by
    rw [rounds]
    omega
  obtain ⟨items, last, tiles, hi, stops⟩ :=
    exists_tiles_decodeOnto c enough (Nat.zero_le _) []
  rw [List.reverse_nil, List.nil_append, ← decodeStream] at hi
  rw [← decodeStream] at stops
  have reaches := tiles.reaches
  refine ⟨⟨last, hi ▸ tiles, reaches.bytes, stops⟩, ?_, fun n hn => ?_⟩
  · have length := tiles.length_le
    have inside : last.pos ≤ bytes.size := reaches.inside (Nat.zero_le _)
    rw [hi, Nat.le_div_iff_mul_le (by decide)]
    omega
  · exact decodeOnto_congr c hn enough []

end TypeLang.Codec
