import TypeLang.Block
import TypeLang.Decimal.Double
import TypeLang.Dict

namespace TypeLang

inductive Value : Type
  | int (n : Int32)
  | long (n : Int64)
  | int128 (block : Block 16)
  | int256 (block : Block 32)
  | double (d : Double)
  | string (s : String)
  | bytes (b : ByteArray)
  | bool (b : Bool)
  | vector (items : List Value)
  | object (name : String) (fields : List (String × Value))
  /-- the bytes of an encoded value, for a place that takes any object -/
  | raw (b : ByteArray)
  deriving Inhabited

abbrev Fields := Dict Value

structure Object where
  name : String
  fields : Fields

def Object.toValue (o : Object) : Value := .object o.name o.fields

namespace Value

def kind : Value → String
  | .int _ => "int"
  | .long _ => "long"
  | .int128 _ => "int128"
  | .int256 _ => "int256"
  | .double _ => "double"
  | .string _ => "string"
  | .bytes _ => "bytes"
  | .bool _ => "Bool"
  | .vector _ => "vector"
  | .object .. => "object"
  | .raw _ => "raw"

def object? : Value → Option Object
  | .object name fields => some ⟨name, fields⟩
  | _ => none

def items? : Value → Option (List Value)
  | .vector items => some items
  | _ => none

def field? (v : Value) (name : String) : Option Value :=
  v.object?.bind fun o => Dict.get? o.fields name

mutual
/-- Equality of values, with the equality of numbers on the doubles inside them. -/
def agrees : Value → Value → Bool
  | .int a, .int b => a = b
  | .long a, .long b => a = b
  | .int128 a, .int128 b => a = b
  | .int256 a, .int256 b => a = b
  | .double a, .double b => a.agrees b
  | .string a, .string b => a = b
  | .bytes a, .bytes b => a = b
  | .bool a, .bool b => a = b
  | .vector as, .vector bs => agreesItems as bs
  | .object a fs, .object b gs => a = b && agreesFields fs gs
  | .raw a, .raw b => a = b
  | _, _ => false
def agreesItems : List Value → List Value → Bool
  | [], [] => true
  | a :: as, b :: bs => a.agrees b && agreesItems as bs
  | _, _ => false
def agreesFields : List (String × Value) → List (String × Value) → Bool
  | [], [] => true
  | (j, a) :: fs, (k, b) :: gs => j = k && a.agrees b && agreesFields fs gs
  | _, _ => false
end

end Value

end TypeLang
