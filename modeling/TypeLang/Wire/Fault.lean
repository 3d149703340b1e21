import TypeLang.Text.Numeral

/-!
Why bytes cannot be read and why values cannot be written. A crash is among the reasons, although it
ends the program: what a cursor or a buffer holds behind a crash has no meaning.
-/

namespace TypeLang

open Text

def showId (id : UInt32) : String := s!"0x{hex8 id}"

def unknownEntryMessage (key : String) : String := s!"no entry `{key}` in schema"

def unexpectedMessage (expected : String) (found : UInt32) : String :=
  s!"expected {expected}, found constructor {showId found}"

def crashMessage (index length : Nat) : String :=
  s!"index out of bounds: the len is {length} but the index is {index}"

inductive ReadFault : Type
  | truncated (needed remaining : Nat)
  | unknownConstructor (id : UInt32)
  | unexpectedConstructor (expected : String) (found : UInt32)
  | invalidUtf8
  | unknownEntry (key : String)
  | tooDeep (limit : Nat)
  | tooManyItems (count limit : Nat)
  | badGzip
  /-- A flags word is looked up that is not among those of the entry. -/
  | crash (index length : Nat)
  deriving DecidableEq, Repr

def ReadFault.message : ReadFault → String
  | .truncated needed remaining =>
    s!"truncated buffer: needed {needed} more bytes, {remaining} left"
  | .unknownConstructor id => s!"unknown constructor id {showId id}"
  | .unexpectedConstructor expected found => unexpectedMessage expected found
  | .invalidUtf8 => "string is not valid UTF-8"
  | .unknownEntry key => unknownEntryMessage key
  | .tooDeep limit => s!"value nested deeper than {limit} levels"
  | .tooManyItems count limit =>
    s!"vector of {count} zero-width items exceeds the limit of {limit}"
  | .badGzip => "gzip_packed: corrupt deflate stream"
  | .crash index length => crashMessage index length

def ReadFault.IsCrash : ReadFault → Prop
  | .crash _ _ => True
  | _ => False

inductive WriteFault : Type
  | unknownEntry (key : String)
  | missingField (entry field : String)
  | typeMismatch (entry field expected found : String)
  | unexpectedConstructor (expected : String) (found : UInt32)
  | bytesTooLong (length : Nat)
  | crash (index length : Nat)
  deriving DecidableEq, Repr

def WriteFault.message : WriteFault → String
  | .unknownEntry key => unknownEntryMessage key
  | .missingField entry field => s!"`{entry}` requires field `{field}`"
  | .typeMismatch entry field expected found =>
    s!"`{entry}.{field}`: expected {expected}, got {found}"
  | .unexpectedConstructor expected found => unexpectedMessage expected found
  | .bytesTooLong length => s!"{length} bytes do not fit a TL length header (max 16777215)"
  | .crash index length => crashMessage index length

def WriteFault.IsCrash : WriteFault → Prop
  | .crash _ _ => True
  | _ => False

end TypeLang
