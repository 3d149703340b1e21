import TypeLang.Proofs.Codec.Onward
import TypeLang.Proofs.Read.Bytes

namespace TypeLang

/-- The read takes `n` bytes. If there are fewer, it says so and stays where it is. -/
def Read.Fixed {α : Type} (n : Nat) (r : Read α) : Prop := ∀ c : Cursor,
  if n ≤ c.remaining then ∃ a, r c = .ok a (c.move n [])
  else r c = .error (.truncated n c.remaining) c

namespace Cursor

inductive Op : Type
  | byte
  | take (n : Nat)
  | rest
  | peek
  | word32
  | int
  | long
  | double
  | int128
  | int256
  | bool
  | bytes
  | string
  deriving DecidableEq, Repr

namespace Op

def Result : Op → Type
  | byte => UInt8
  | take n => Block n
  | rest => ByteArray
  | peek => Option UInt32
  | word32 => UInt32
  | int => Int32
  | long => Int64
  | double => Double
  | int128 => Block 16
  | int256 => Block 32
  | bool => Bool
  | bytes => ByteArray
  | string => String

def read : (op : Op) → Read op.Result
  | byte => Read.byte
  | take n => Read.take n
  | rest => Read.rest
  | peek => fun c => .ok c.peek? c
  | word32 => Read.word32
  | int => Read.int
  | long => Read.long
  | double => Read.double
  | int128 => Read.take 16
  | int256 => Read.take 32
  | bool => Read.bool
  | bytes => Read.bytes
  | string => Read.string

def raw? : (op : Op) → op.Result → Option (List UInt8)
  | byte, x => some [x]
  | take _, b | int128, b | int256, b => some (octets b.val)
  | rest, b => some (octets b)
  | peek, _ | word32, _ | int, _ | long, _ | double, _ | bool, _ | bytes, _ | string, _ => none

/-- How many bytes are read, where neither the bytes nor what they mean have a say in it. -/
def width? : Op → Option Nat
  | byte => some 1
  | take n => some n
  | word32 | int => some 4
  | long | double => some 8
  | int128 => some 16
  | int256 => some 32
  | rest | peek | bool | bytes | string => none

/-- Where the cursor is afterwards, also if it did not get what it was asked for. -/
def after (op : Op) (c : Cursor) : Cursor :=
  match op.read c with
  | .ok _ d | .error _ d => d

end Op

def run (ops : List Op) (c : Cursor) : Cursor := ops.foldl (fun c op => op.after c) c

end Cursor

namespace Read

variable {α β : Type}

theorem fixed_take (n : Nat) : Fixed n (take n) := by
  intro c
  rw [take]
  split
  · exact ⟨_, by rw [Cursor.move, List.append_nil]⟩
  · rfl

theorem fixed_byte : Fixed 1 byte := by
  intro c
  rw [byte, Cursor.remaining]
  split
  · have inside : c.pos < c.bytes.size := by omega
    exact ⟨_, by rw [dif_pos inside, Cursor.move, List.append_nil]⟩
  · have outside : ¬ c.pos < c.bytes.size := by omega
    rw [dif_neg outside]

theorem Fixed.map {n : Nat} {r : Read α} (h : Fixed n r) (g : α → β) :
    Fixed n (do return g (← r)) := by
  intro c
  have hc := h c
  split at hc
  · next enough =>
    obtain ⟨a, ha⟩ := hc
    rw [if_pos enough]
    exact ⟨g a, bind_of_ok ha _⟩
  · next short =>
    rw [if_neg short]
    exact bind_of_error hc _

theorem fixed_word32 : Fixed 4 word32 := (fixed_take 4).map _

theorem fixed_word64 : Fixed 8 word64 := (fixed_take 8).map _

theorem onward_word32 : Onward word32 := (onward_take 4).bind fun _ => onward_pure _

theorem onward_word64 : Onward word64 := (onward_take 8).bind fun _ => onward_pure _

theorem onward_bool : Onward bool := by
  refine onward_word32.bind fun id => ?_
  split
  · exact onward_pure true
  · split
    · exact onward_pure false
    · exact onward_throw _

theorem onward_bytes : Onward bytes :=
  bytes_of_parts (P := Onward) onward_pure .bind onward_byte onward_take

theorem onward_string : Onward string := by
  refine onward_bytes.bind fun b => ?_
  split
  · exact onward_pure _
  · exact onward_throw _

end Read

namespace Cursor

open Read

namespace Op

variable {op : Op} {c d : Cursor}

theorem onward_peek : Onward peek.read where
  ok h := by
    cases h
    exact .refl _
  error h := by cases h

theorem reaches_after (op : Op) (h : c.pos ≤ c.bytes.size) : c.Reaches (op.after c) := by
  have of_onward {op : Op} (onward : Onward op.read) : c.Reaches (op.after c) := by
    rw [after]
    split
    · next hr => exact onward.ok hr
    · next hr => exact onward.error hr
  cases op with
  | byte => exact of_onward onward_byte
  | take n => exact of_onward (onward_take n)
  | rest => exact ⟨rfl, h, fun _ => Nat.le_refl _⟩
  | peek => exact of_onward onward_peek
  | word32 => exact of_onward onward_word32
  | int => exact of_onward (onward_word32.bind fun _ => onward_pure _)
  | long | double => exact of_onward (onward_word64.bind fun _ => onward_pure _)
  | int128 | int256 => exact of_onward (onward_take _)
  | bool => exact of_onward onward_bool
  | bytes => exact of_onward onward_bytes
  | string => exact of_onward onward_string

theorem fixed_of_width? {n : Nat} (h : op.width? = some n) : Fixed n op.read := by
  cases op with
  | byte =>
    cases h
    exact fixed_byte
  | take m =>
    cases h
    exact fixed_take _
  | word32 =>
    cases h
    exact fixed_word32
  | int =>
    cases h
    exact fixed_word32.map _
  | long | double =>
    cases h
    exact fixed_word64.map _
  | int128 | int256 =>
    cases h
    exact fixed_take _
  | rest | peek | bool | bytes | string => cases h

theorem raw_take {n : Nat} {a : Block n} (h : Read.take n c = .ok a d) :
    octets a.val = octets (c.bytes.extract c.pos d.pos) := by
  rw [Read.take] at h
  split at h
  · cases h
    rfl
  · cases h

theorem raw_byte {x : UInt8} (h : Read.byte c = .ok x d) :
    [x] = octets (c.bytes.extract c.pos d.pos) := by
  have left := left_of_byte h
  rw [Read.byte] at h
  split at h
  · cases h
    rw [octets_extract, List.drop_take, Nat.add_sub_cancel_left, ← Cursor.left, left]
    rfl
  · cases h

theorem raw_eq {a : op.Result} {w : List UInt8} (h : op.read c = .ok a d)
    (hw : op.raw? a = some w) : w = octets (c.bytes.extract c.pos d.pos) := by
  cases op with
  | byte =>
    cases hw
    exact raw_byte h
  | take _ | int128 | int256 =>
    cases hw
    exact raw_take h
  | rest =>
    cases hw
    cases h
    rfl
  | peek | word32 | int | long | double | bool | bytes | string => cases hw

end Op

theorem reaches_run (ops : List Op) {c : Cursor} (h : c.pos ≤ c.bytes.size) :
    c.Reaches (run ops c) := by
  induction ops generalizing c with
  | nil => exact .refl c
  | cons op ops ih =>
    have step := op.reaches_after h
    exact step.trans (ih (step.bytes ▸ step.inside h))

/-- After any operations, done or failed, a cursor is inside its bytes, and further ones do not move
it back. What an operation gives as bytes stands between the positions before and after it. Reads of
a known number of bytes take these bytes, or they leave the cursor and report how many there are. -/
theorem run_inside (bytes : ByteArray) (ops : List Op) :
    let c := run ops (.ofBytes bytes)
    c.bytes = bytes ∧ c.pos + c.remaining = bytes.size ∧
      (∀ more, c.pos ≤ (run more c).pos ∧ (run more c).pos ≤ bytes.size) ∧
      (∀ (op : Op) a d w, op.read c = .ok a d → op.raw? a = some w →
        w = octets (bytes.extract c.pos d.pos)) ∧
      ∀ (op : Op) n, op.width? = some n → op.read.Fixed n := by
  have start := reaches_run ops (c := .ofBytes bytes) (Nat.zero_le _)
  have inside : (run ops (.ofBytes bytes)).pos ≤ (run ops (.ofBytes bytes)).bytes.size := by
    rw [start.bytes]
    exact start.inside (Nat.zero_le _)
  have same : (run ops (.ofBytes bytes)).bytes = bytes := start.bytes
  refine ⟨same, ?_, fun more => ?_, fun op a d w h hw => ?_, fun op n h => Op.fixed_of_width? h⟩
  · rw [remaining, Nat.add_sub_cancel' inside, same]
  · have further := reaches_run more inside
    refine ⟨further.forwards, ?_⟩
    have bound := further.inside inside
    rwa [same] at bound
  · rw [Op.raw_eq h hw, same]

def torn : ByteArray := ⟨#[7, 254, 1, 8, 9, 10]⟩

theorem run_inside_torn :
    let c := run [.byte, .string, .take 2] (.ofBytes torn)
    c.pos = 5 ∧ c.pos + c.remaining = torn.size ∧
      (∃ d, Op.rest.read c = .ok ⟨#[10]⟩ d ∧ [10] = octets (torn.extract c.pos d.pos)) ∧
      Op.word32.read c = .error (.truncated 4 1) c := by
  have place : run [.byte, .string, .take 2] (.ofBytes torn) = ⟨torn, 5, []⟩ := rfl
  obtain ⟨-, inside, -, raw, fixed⟩ := run_inside torn [.byte, .string, .take 2]
  rw [place] at inside raw ⊢
  have read : Op.rest.read ⟨torn, 5, []⟩ = .ok ⟨#[10]⟩ ⟨torn, 6, []⟩ := rfl
  have short : ¬ 4 ≤ (⟨torn, 5, []⟩ : Cursor).remaining := by decide
  have word := fixed .word32 4 rfl ⟨torn, 5, []⟩
  rw [if_neg short] at word
  exact ⟨rfl, inside, ⟨_, read, raw .rest _ _ _ read rfl⟩, word⟩

end Cursor

end TypeLang
