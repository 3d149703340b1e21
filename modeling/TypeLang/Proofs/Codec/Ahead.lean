import TypeLang.Proofs.Codec.Levels
import TypeLang.Proofs.Read.Ahead

namespace TypeLang.Codec

open Read

theorem ahead_readCounted (c : Codec) (width : Nat) {r : Read Value} (h : Ahead r) (count : Nat) :
    Ahead (c.readCounted width r count) := by
  intro d e hde
  have remaining : d.remaining = e.remaining := by
    rw [← d.length_left, hde, e.length_left]
  have items := (readItems_of_parts (P := Ahead) ahead_pure .bind h count []).bind fun items =>
    ahead_pure (Value.vector items)
  rw [outcome, outcome, readCounted, readCounted, remaining]
  cases c.countFault? width count e.remaining with
  | some fault => rfl
  | none => exact items hde

theorem readLaw_ahead (c : Codec) : ReadLaw c Ahead where
  pure a := ahead_pure a
  throw e _ := ahead_throw e
  bind hr hf := hr.bind hf
  byte := ahead_byte
  take n := ahead_take n
  within packed plain _ hr := hr.within packed plain
  countedAny count hr := ahead_readCounted c 4 hr count
  countedAs elem count hr := ahead_readCounted c (elem.width c.widths) hr count

theorem ahead_readAny (c : Codec) (n : Nat) : Ahead (c.readAny n) := ((readLaw_ahead c).readers n).1

theorem ahead_readAs (c : Codec) (n : Nat) (layout : Layout) : Ahead (c.readAs n layout) :=
  ((readLaw_ahead c).readers n).2.1 layout

theorem refines_readAny (c : Codec) {n n' : Nat} (h : n ≤ n') :
    Refines ReadFault.IsTooDeep (c.readAny n) (c.readAny n') := (c.refines_readers h).any

theorem refines_readAs (c : Codec) {n n' : Nat} (h : n ≤ n') (layout : Layout) :
    Refines ReadFault.IsTooDeep (c.readAs n layout) (c.readAs n' layout) :=
  (c.refines_readers h).as layout

end TypeLang.Codec
