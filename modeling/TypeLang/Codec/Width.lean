import TypeLang.Codec.Plan

/-!
The fewest bytes that a value can take. Bodies may contain each other, so their widths are found by
iteration from zero. Every round gives lower bounds; where bare constructors contain themselves no
round is the last one, and the iteration just stops.
-/

namespace TypeLang

/-- A count of bytes as far as a word of 64 bits can tell. -/
def saturate (n : Nat) : Nat := min n (UInt64.size - 1)

/-- The fewest bytes of the body of each entry, by its id. -/
abbrev Widths := List (UInt32 × Nat)

def Widths.body (widths : Widths) (id : UInt32) : Nat := (widths.lookup id).getD 0

def Layout.width (widths : Widths) : Layout → Nat
  | .int | .bool | .string | .bytes | .boxed _ | .generic => 4
  | .long | .double => 8
  | .int128 => 16
  | .int256 => 32
  | .bare target => widths.body target
  | .vector _ isBoxed => if isBoxed then 8 else 4

def FieldPlan.width (widths : Widths) (f : FieldPlan) : Nat :=
  match f.role with
  | .flags _ => 4
  | .presence _ | .value _ (some _) => 0
  | .value layout none => layout.width widths

def Plan.width (widths : Widths) (p : Plan) : Nat :=
  saturate (p.fields.foldr (fun f rest => f.width widths + rest) 0)

namespace Widths

def put (id : UInt32) (width : Nat) (widths : Widths) : Widths :=
  widths.map fun (i, w) => if i = id then (i, width) else (i, w)

def round (plans : List Plan) (widths : Widths) : Widths :=
  plans.foldl (fun widths p => widths.put p.id (p.width widths)) widths

def settle (plans : List Plan) : (rounds : Nat) → Widths → Widths
  | 0, widths => widths
  | n + 1, widths =>
    let next := round plans widths
    if next = widths then widths else settle plans n next

/-- The widths after one round more than there are plans, at most. -/
def ofPlans (plans : List Plan) : Widths :=
  settle plans (plans.length + 1) (plans.map fun p => (p.id, 0))

end Widths

end TypeLang
