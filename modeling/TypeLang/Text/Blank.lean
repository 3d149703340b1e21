import TypeLang.Text.Pieces

namespace TypeLang.Text

def isBlank (c : Char) : Bool :=
  (9 ≤ c.val && c.val ≤ 13) || c.val == 0x20 || c.val == 0x85 || c.val == 0xa0
    || c.val == 0x1680 || (0x2000 ≤ c.val && c.val ≤ 0x200a)
    || c.val == 0x2028 || c.val == 0x2029 || c.val == 0x202f || c.val == 0x205f
    || c.val == 0x3000

def trim (cs : List Char) : List Char :=
  dropEndWhile isBlank (cs.dropWhile isBlank)

def words (cs : List Char) : List (List Char) :=
  (pieces isBlank cs).filter (· ≠ [])

/-- The lines of a text. A line ends at a line feed, which takes one carriage return before it
along; what follows the last line feed is a line unless it is empty. -/
def lines (cs : List Char) : List (List Char) :=
  match (pieces (· = '\n') cs).reverse with
  | [] => []
  | last :: ended =>
    let ended := ended.reverse.map fun l => (dropLast? '\r' l).getD l
    if last = [] then ended else ended ++ [last]

end TypeLang.Text
