import TypeLang.Codec.Decode

/-!
Decoding a payload that holds one boxed value after the other. Each value takes at least the four
bytes of its id, so a payload holds no more values than it has bytes.
-/

namespace TypeLang

structure Stream where
  /-- The values, each with the position where it begins. -/
  items : List (Nat × Value)
  fault : Option ReadFault
  cursor : Cursor

namespace Codec

def decodeOnto (c : Codec) : (fuel : Nat) → List (Nat × Value) → Cursor → Stream
  | 0, items, cursor => ⟨items.reverse, none, cursor⟩
  | n + 1, items, cursor =>
    if cursor.isEmpty then ⟨items.reverse, none, cursor⟩
    else match c.decodeAny cursor with
      | .ok v next => decodeOnto c n ((cursor.pos, v) :: items) next
      | .error fault next => ⟨items.reverse, some fault, next⟩

def decodeStream (c : Codec) (cursor : Cursor) : Stream :=
  c.decodeOnto cursor.remaining [] cursor

end Codec

end TypeLang
