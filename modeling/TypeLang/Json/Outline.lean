import TypeLang.Decimal.Double
import TypeLang.Text.Numeral

/-!
JSON text as far as it can be read. An outline holds everything up to the first fault, and the
fault in its place, so that a reader of the outline that goes from left to right meets mistyped
values and faults of the text in the order in which they are written.
-/

namespace TypeLang.Json

inductive Fault : Type
  | malformed
  | mistyped
  | ended
  deriving DecidableEq, Repr

inductive Lead : Type
  | word
  | quote
  | other
  deriving DecidableEq, Repr

/-- Why a key cannot be read: as the key of a member, and where a word is expected. -/
structure KeyFault where
  key : Fault
  word : Fault
  deriving DecidableEq, Repr

inductive Outline : Type
  | null
  | bool (b : Bool)
  | int (n : Int)
  | decimal
  | huge
  /-- a text, unless it holds one half of a surrogate pair -/
  | text (s : Option String)
  | array (items : List Outline) (ending : Option Fault)
  | object (members : List (Except KeyFault String × Outline)) (ending : Option Fault)
  /-- the place of a fault, which depends on whether the value is wanted or passed over -/
  | broken (lead : Lead) (wanted passed : Fault)

def Outline.misfit : Outline → Fault
  | .huge | .text none => .malformed
  | .broken _ wanted _ => wanted
  | _ => .mistyped

def isSpace (c : Char) : Bool := c = ' ' || c = '\n' || c = '\t' || c = '\r'

def skipSpace (cs : List Char) : List Char := cs.dropWhile isSpace

def isDigit (c : Char) : Bool := '0' ≤ c && c ≤ '9'

def hex4 (cs : List Char) : Except Fault (Nat × List Char) :=
  let digits := (cs.take 4).filterMap (Text.digit? 16)
  if digits.length = 4 then .ok (digits.foldl (fun n d => 16 * n + d) 0, cs.drop 4)
  else if (String.ofList cs).utf8ByteSize < 4 then .error .ended
  else .error .malformed

/-- How the text behind a quotation mark was read: `sound` is false if it holds one half of a
surrogate pair. -/
structure Quoted where
  result : Except Fault String
  sound : Bool
  rest : List Char

def shortEscape? : Char → Option Char
  | '"' => some '"'
  | '\\' => some '\\'
  | '/' => some '/'
  | 'b' => some (Char.ofNat 8)
  | 'f' => some (Char.ofNat 12)
  | 'n' => some '\n'
  | 'r' => some '\r'
  | 't' => some '\t'
  | _ => none

/-- What an escaped character behind a backslash stands for, and how many characters it takes. A
half of a surrogate pair without the other half stands for nothing. -/
def escaped (cs : List Char) : Except Fault (Option Char × Nat) :=
  match cs with
  | [] => .error .ended
  | 'u' :: hex => do
    let (n, rest) ← hex4 hex
    if 0xdc00 ≤ n ∧ n ≤ 0xdfff then return (none, 5)
    else if 0xd800 ≤ n ∧ n ≤ 0xdbff then
      match rest with
      | [] | ['\\'] => .error .ended
      | '\\' :: 'u' :: hex' =>
        match hex4 hex' with
        | .error .ended => .error .ended
        | .error _ => return (none, 5)
        | .ok (m, _) =>
          if 0xdc00 ≤ m ∧ m ≤ 0xdfff then
            return (some (Char.ofNat (0x10000 + (n - 0xd800) * 0x400 + (m - 0xdc00))), 11)
          else return (none, 5)
      | _ => return (none, 5)
    else return (some (Char.ofNat n), 5)
  | c :: _ =>
    match shortEscape? c with
    | some d => .ok (some d, 1)
    | none => .error .malformed

def readQuoted (skip : Nat) (sound : Bool) (acc : List Char) : List Char → Quoted
  | [] => ⟨.error .ended, sound, []⟩
  | c :: cs =>
    match skip with
    | n + 1 => readQuoted n sound acc cs
    | 0 =>
      if c = '"' then ⟨.ok (String.ofList acc.reverse), sound, cs⟩
      else if c = '\\' then
        match escaped cs with
        | .error f => ⟨.error f, sound, []⟩
        | .ok (some d, n) => readQuoted n sound (d :: acc) cs
        | .ok (none, n) => readQuoted n false acc cs
      else if c.val < 0x20 then ⟨.error .malformed, sound, []⟩
      else readQuoted 0 sound (c :: acc) cs

/-- An outline and the text behind it, if the outline holds no fault. -/
abbrev Reading (α : Type) := α × Option (List Char)

def fail (lead : Lead) (wanted passed : Fault) : Reading Outline :=
  (.broken lead wanted passed, none)

def readWord (value : Outline) : (word text : List Char) → Reading Outline
  | [], cs => (value, some cs)
  | _ :: _, [] => fail .word .ended .ended
  | w :: ws, c :: cs => if w = c then readWord value ws cs else fail .word .malformed .malformed

/-- A number that was cut off: its reader waits for more, one who passes it over does not. -/
def cutNumber (cs : List Char) : Reading Outline :=
  if cs.isEmpty then fail .word .ended .malformed else fail .word .malformed .malformed

def leading (acc : Nat) : List Char → Nat × List Char
  | [] => (acc, [])
  | c :: cs =>
    let next := 10 * acc + (c.toNat - '0'.toNat)
    if next < UInt64.size then leading next cs else (acc, c :: cs)

/-- The value of a number as far as it counts, as a word and the exponent of ten behind it. Digits
that do not fit into the word are dropped; those before the point still count as places. -/
def significand (whole fraction : List Char) (exponent : Int) : Nat × Int :=
  let (n, dropped) := leading 0 whole
  let (m, unused) := leading n fraction
  (m, exponent + dropped.length - (fraction.length - unused.length : Nat))

/-- Whether a number is beyond all floating-point numbers. It is the product of its significand and
a power of ten, all three of them rounded. -/
def isHuge (significand : Nat) (exponent : Int) : Bool :=
  if significand = 0 || exponent < 0 then false
  else if 308 < exponent then true
  else Double.overflow ≤ Double.round significand * Double.round (Nat.pow 10 exponent.toNat)

def readExponent (cs : List Char) : Except (List Char) (Option Int × List Char) :=
  match cs with
  | e :: r =>
    if e = 'e' || e = 'E' then
      let (negative, r) :=
        match r with
        | '-' :: r => (true, r)
        | '+' :: r => (false, r)
        | r => (false, r)
      let digits := r.takeWhile isDigit
      if digits.isEmpty then .error r
      else
        let n : Int := digits.foldl (fun n c => 10 * n + (c.toNat - '0'.toNat)) 0
        .ok (some (if negative then -n else n), r.dropWhile isDigit)
    else .ok (none, cs)
  | [] => .ok (none, cs)

def readNumber (negative : Bool) (cs : List Char) : Reading Outline :=
  let whole := cs.takeWhile isDigit
  let rest := cs.dropWhile isDigit
  if whole.isEmpty then cutNumber cs
  else if whole.head? = some '0' && 1 < whole.length then fail .word .malformed .malformed
  else
    let (point, fraction, rest) :=
      match rest with
      | '.' :: r => (true, r.takeWhile isDigit, r.dropWhile isDigit)
      | r => (false, [], r)
    if point && fraction.isEmpty then cutNumber rest
    else match readExponent rest with
      | .error r => cutNumber r
      | .ok (exponent?, rest) =>
        let (significand, exponent) := significand whole fraction (exponent?.getD 0)
        if isHuge significand exponent then (.huge, some rest)
        else if point || exponent?.isSome then (.decimal, some rest)
        else
          let n := whole.foldl (fun n c => 10 * n + (c.toNat - '0'.toNat)) 0
          if negative && n = 0 then (.decimal, some rest)
          else (.int (if negative then -n else n), some rest)

def readText (cs : List Char) : Reading Outline :=
  match readQuoted 0 true [] cs with
  | ⟨.ok s, true, rest⟩ => (.text (some s), some rest)
  | ⟨.ok _, false, rest⟩ => (.text none, some rest)
  | ⟨.error f, sound, _⟩ => fail .quote (if sound then f else .malformed) f

mutual

/-- Reads a value. The fuel bounds the number of brackets and commas before its end. -/
def readValue (fuel : Nat) (cs : List Char) : Reading Outline :=
  match fuel with
  | 0 => fail .other .ended .ended
  | fuel + 1 =>
    match skipSpace cs with
    | [] => fail .other .ended .ended
    | 'n' :: r => readWord .null "ull".toList r
    | 't' :: r => readWord (.bool true) "rue".toList r
    | 'f' :: r => readWord (.bool false) "alse".toList r
    | '"' :: r => readText r
    | '-' :: r => readNumber true r
    | '[' :: r =>
      match skipSpace r with
      | ']' :: r => (.array [] none, some r)
      | [] => (.array [] (some .ended), none)
      | r =>
        let ((items, ending), rest) := readItems fuel r
        (.array items ending, rest)
    | '\x7b' :: r =>
      match skipSpace r with
      | '\x7d' :: r => (.object [] none, some r)
      | r =>
        let ((members, ending), rest) := readMembers fuel r
        (.object members ending, rest)
    | c :: r => if isDigit c then readNumber false (c :: r) else fail .other .malformed .malformed

def readItems (fuel : Nat) (cs : List Char) : Reading (List Outline × Option Fault) :=
  match fuel with
  | 0 => (([], some .ended), none)
  | fuel + 1 =>
    match readValue fuel cs with
    | (item, none) => (([item], none), none)
    | (item, some rest) =>
      match skipSpace rest with
      | [] => (([item], some .ended), none)
      | ']' :: r => (([item], none), some r)
      | ',' :: r =>
        let ((items, ending), rest) := readItems fuel r
        ((item :: items, ending), rest)
      | _ => (([item], some .malformed), none)

def readMembers (fuel : Nat) (cs : List Char) :
    Reading (List (Except KeyFault String × Outline) × Option Fault) :=
  let stop (key word passed : Fault) :
      Reading (List (Except KeyFault String × Outline) × Option Fault) :=
    (([(.error ⟨key, word⟩, .broken .other key passed)], none), none)
  match fuel with
  | 0 => stop .ended .ended .ended
  | fuel + 1 =>
    match skipSpace cs with
    | [] => stop .ended .ended .ended
    | '"' :: r =>
      match readQuoted 0 true [] r with
      | ⟨.error f, sound, _⟩ =>
        let wanted := if sound then f else .malformed
        stop wanted wanted f
      | ⟨.ok s, sound, rest⟩ =>
        let key := if sound then .ok s else .error ⟨.malformed, .malformed⟩
        match skipSpace rest with
        | [] => (([(key, .broken .other .ended .ended)], none), none)
        | ':' :: r =>
          match readValue fuel r with
          | (value, none) => (([(key, value)], none), none)
          | (value, some rest) =>
            match skipSpace rest with
            | [] => (([(key, value)], some .ended), none)
            | '\x7d' :: r => (([(key, value)], none), some r)
            | ',' :: r =>
              let ((members, ending), rest) := readMembers fuel r
              (((key, value) :: members, ending), rest)
            | _ => (([(key, value)], some .malformed), none)
        | _ => (([(key, .broken .other .malformed .malformed)], none), none)
    | cs => stop .malformed (readValue fuel cs).1.misfit .malformed

end

structure Document where
  root : Outline
  trailing : Bool

def Document.read (text : String) : Document :=
  let cs := text.toList
  match readValue (2 * cs.length + 2) cs with
  | (root, none) => ⟨root, false⟩
  | (root, some rest) => ⟨root, !(skipSpace rest).isEmpty⟩

namespace Outline

mutual
def passedFault? : Outline → Option Fault
  | .broken _ _ passed => some passed
  | .array items ending => (passedItems? items).or ending
  | .object members ending => (passedMembers? members).or ending
  | _ => none
def passedItems? : List Outline → Option Fault
  | [] => none
  | o :: os => o.passedFault?.or (passedItems? os)
def passedMembers? : List (Except KeyFault String × Outline) → Option Fault
  | [] => none
  | (_, o) :: os => o.passedFault?.or (passedMembers? os)
end

def pass (o : Outline) : Except Fault Unit :=
  match o.passedFault? with
  | some f => .error f
  | none => .ok ()

def readString : Outline → Except Fault String
  | .text (some s) => .ok s
  | o => .error o.misfit

def readInt (low high : Int) : Outline → Except Fault Int
  | .int n => if low ≤ n ∧ n < high then .ok n else .error .mistyped
  | o => .error o.misfit

def readOption {α : Type} (read : Outline → Except Fault α) : Outline → Except Fault (Option α)
  | .null => .ok none
  | o => (read o).map some

def closing : Option Fault → Except Fault Unit
  | none => .ok ()
  | some f => .error f

def readList {α : Type} (read : Outline → Except Fault α) : Outline → Except Fault (List α)
  | .array items ending => do
    let values ← items.mapM read
    closing ending
    return values
  | o => .error o.misfit

def visitMembers {β : Type} (keys : List String) (visit : String → Outline → β → Except Fault β)
    (seen : List String) (acc : β) : List (Except KeyFault String × Outline) → Except Fault β
  | [] => .ok acc
  | (key, value) :: rest => do
    let key ← key.mapError (·.key)
    if !keys.contains key then
      pass value
      visitMembers keys visit seen acc rest
    else if seen.contains key then .error .mistyped
    else
      let acc ← visit key value acc
      visitMembers keys visit (key :: seen) acc rest

def visitItems {β : Type} (visit : String → Outline → β → Except Fault β) (acc : β) :
    (keys : List String) → List Outline → Except Fault β
  | _, [] => .ok acc
  | [], _ :: _ => .error .malformed
  | key :: keys, value :: rest => do visitItems visit (← visit key value acc) keys rest

def readRecord {β : Type} (keys : List String) (visit : String → Outline → β → Except Fault β)
    (empty : β) : Outline → Except Fault β
  | .object members ending => do
    let acc ← visitMembers keys visit [] empty members
    closing ending
    return acc
  | .array items ending => do
    let acc ← visitItems visit empty keys items
    closing ending
    return acc
  | o => .error o.misfit

def readPairs {α : Type} (read : Outline → Except Fault α) :
    Outline → Except Fault (List (String × α))
  | .object members ending => do
    let pairs ← members.mapM fun (key, value) => do
      return (← key.mapError (·.key), ← read value)
    closing ending
    return pairs
  | o => .error o.misfit

/-- Reads one of several words. A word may also be written as an object, whose only member has it as
the key and null as the value. -/
def readWordOf {α : Type} (known : String → Option α) : Outline → Except Fault α
  | .text (some s) => (known s).elim (.error .mistyped) .ok
  | .text none => .error .malformed
  | .broken .word _ _ => .error .malformed
  | .broken _ wanted _ => .error wanted
  | .object ((key, value) :: rest) ending => do
    match known (← key.mapError (·.word)) with
    | none => .error .mistyped
    | some a =>
      match value with
      | .null =>
        if !rest.isEmpty then .error .malformed
        closing ending
        return a
      | o => .error o.misfit
  | _ => .error .malformed

end Outline

end TypeLang.Json
