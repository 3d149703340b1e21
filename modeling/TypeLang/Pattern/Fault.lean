import TypeLang.Text.Blank

namespace TypeLang.Pattern

open Text

structure Span where
  start : Nat
  stop : Nat
  deriving DecidableEq, Repr

inductive Cause : Type
  | badClassEscape
  | badClassRange
  | badRangeEnd
  | unclosedClass
  | badNumber
  | noHexDigits
  | badHexNumber
  | badHexDigit
  | unfinishedEscape
  | unknownEscape
  | unclosedEdge
  | unknownEdge
  | unfinishedEdge
  | danglingNegation
  | repeatedFlag
  | repeatedNegation
  | unfinishedFlags
  | unknownFlag
  | repeatedName
  | emptyName
  | badName
  | unclosedName
  | unclosedGroup
  | unopenedGroup
  | badCountRange
  | noCount
  | unclosedCount
  | nothingToRepeat
  | backreference
  | lookAround
  | badProperty
  | tooDeep
  | unknownProperty
  | unknownValue
  | unknownClass
  | unknownCases
  | beyondAscii
  | partOfCharacter
  deriving DecidableEq, Repr

def Cause.message : Cause → String
  | .badClassEscape => "invalid escape sequence found in character class"
  | .badClassRange => "invalid character class range, the start must be <= the end"
  | .badRangeEnd => "invalid range boundary, must be a literal"
  | .unclosedClass => "unclosed character class"
  | .badNumber => "decimal literal invalid"
  | .noHexDigits => "hexadecimal literal empty"
  | .badHexNumber => "hexadecimal literal is not a Unicode scalar value"
  | .badHexDigit => "invalid hexadecimal digit"
  | .unfinishedEscape => "incomplete escape sequence, reached end of pattern prematurely"
  | .unknownEscape => "unrecognized escape sequence"
  | .unclosedEdge =>
    "special word boundary assertion is either unclosed or contains an invalid character"
  | .unknownEdge =>
    "unrecognized special word boundary assertion, valid choices are: start, end, start-half or end-half"
  | .unfinishedEdge =>
    "found either the beginning of a special word boundary or a bounded repetition on a \\b with an opening brace, but no closing brace"
  | .danglingNegation => "dangling flag negation operator"
  | .repeatedFlag => "duplicate flag"
  | .repeatedNegation => "flag negation operator repeated"
  | .unfinishedFlags => "expected flag but got end of regex"
  | .unknownFlag => "unrecognized flag"
  | .repeatedName => "duplicate capture group name"
  | .emptyName => "empty capture group name"
  | .badName => "invalid capture group character"
  | .unclosedName => "unclosed capture group name"
  | .unclosedGroup => "unclosed group"
  | .unopenedGroup => "unopened group"
  | .badCountRange => "invalid repetition count range, the start must be <= the end"
  | .noCount => "repetition quantifier expects a valid decimal"
  | .unclosedCount => "unclosed counted repetition"
  | .nothingToRepeat => "repetition operator missing expression"
  | .backreference => "backreferences are not supported"
  | .lookAround => "look-around, including look-ahead and look-behind, is not supported"
  | .badProperty => "invalid Unicode character class"
  | .tooDeep => "exceed the maximum number of nested parentheses/brackets (250)"
  | .unknownProperty => "Unicode property not found"
  | .unknownValue => "Unicode property value not found"
  | .unknownClass =>
    "Unicode-aware Perl class not found (make sure the unicode-perl feature is enabled)"
  | .unknownCases =>
    "Unicode-aware case insensitivity matching is not available (make sure the unicode-case feature is enabled)"
  | .beyondAscii => "Unicode not allowed here"
  | .partOfCharacter => "pattern can match invalid UTF-8"

inductive Fault : Type
  | part (cause : Cause) (span : Span) (earlier : Option Span)
  | tooLarge
  | wide
  deriving DecidableEq, Repr

/-- A place of a text as the number of lines before it and of characters before it in its line. -/
def lineAndColumn (text : List Char) (place : Nat) : Nat × Nat :=
  let before := text.take place
  (before.count '\n', (before.reverse.takeWhile (· ≠ '\n')).length)

def Span.inLine? (text : List Char) (line : Nat) (s : Span) : Option Span :=
  let (first, start) := lineAndColumn text s.start
  let (last, stop) := lineAndColumn text s.stop
  if first = line && last = line then some ⟨start, stop⟩ else none

def Span.acrossLines? (text : List Char) (s : Span) : Option String :=
  let (first, start) := lineAndColumn text s.start
  let (last, stop) := lineAndColumn text s.stop
  if first = last then none
  else some s!"on line {first + 1} (column {start + 1}) through line {last + 1} (column {stop})"

def marks (column : Nat) : List Span → List Char
  | [] => []
  | s :: rest =>
    let width := max 1 (s.stop - s.start)
    List.replicate (s.start - column) ' ' ++ List.replicate width '^'
      ++ marks (max column s.start + width) rest

def markedLine (label line : List Char) (spans : List Span) : List String :=
  let below :=
    if spans.isEmpty then []
    else [String.ofList (List.replicate label.length ' ' ++ marks 0 spans)]
  String.ofList (label ++ line) :: below

def lineLabel (width line : Nat) : List Char :=
  let number := (toString line).toList
  List.replicate (width - number.length) ' ' ++ number ++ [':', ' ']

/-- A pattern with marks below the parts that are at fault. Several lines have numbers, stand
between two rules, and are followed by where parts are that go over more than one of them. -/
def display (text : List Char) (spans : List Span) : List String :=
  let isLong := text.contains '\n'
  let lines := lines text
  let lineCount := lines.length + if text.getLast? = some '\n' then 1 else 0
  let label (i : Nat) : List Char :=
    if isLong then lineLabel (toString lineCount).length (i + 1) else List.replicate 4 ' '
  let marked := lines.zipIdx.flatMap fun (line, i) =>
    markedLine (label i) line (spans.filterMap (·.inLine? text i))
  let rule := String.ofList (List.replicate 79 '~')
  if isLong then rule :: marked ++ rule :: spans.filterMap (·.acrossLines? text) else marked

def Fault.message (pattern : String) : Fault → String
  | .part cause span earlier =>
    let shown := display pattern.toList (earlier.toList ++ [span])
    "\n".intercalate ("regex parse error:" :: shown ++ ["error: " ++ cause.message])
  | .tooLarge => "Compiled regex exceeds size limit of 10485760 bytes."
  | .wide => "error building NFA"

end TypeLang.Pattern
