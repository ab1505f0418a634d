import Mathlib.Data.List.Basic

/-!
# Python's string operations

Strings are worked on as lists of code points, so that every operation reduces by computation.
White space is `str.isspace` (which is also `\s` of a Unicode regular expression): the list of code
points is Python's own, not the four ASCII blanks of `Char.isWhitespace`.
-/

namespace EnergyAgent.Lib.Text

/-- `str.isspace` of one character. -/
def isSpace (c : Char) : Bool :=
  let n := c.toNat
  (0x09 ≤ n && n ≤ 0x0d) || (0x1c ≤ n && n ≤ 0x20) || n == 0x85 || n == 0xa0 || n == 0x1680 ||
    (0x2000 ≤ n && n ≤ 0x200a) || n == 0x2028 || n == 0x2029 || n == 0x202f || n == 0x205f ||
    n == 0x3000

/-- `str.strip()`. -/
def strip (s : String) : String :=
  String.ofList (((s.toList.dropWhile isSpace).reverse.dropWhile isSpace).reverse)

/-- `not s.strip()`: the string is empty or blank. -/
def isBlank (s : String) : Bool := s.toList.all isSpace

/-- `re.sub(r"\s+", " ", s)`: every run of white space becomes one space. `inRun` says that the
character before was white space. -/
def collapseSpaces (inRun : Bool) : List Char → List Char
  | [] => []
  | c :: cs =>
      if isSpace c then
        if inRun then collapseSpaces true cs else ' ' :: collapseSpaces true cs
      else c :: collapseSpaces false cs

/-- `sep.join(parts)`. -/
def join (sep : String) : List String → String
  | [] => ""
  | [s] => s
  | s :: ss => s ++ sep ++ join sep ss

/-- `s.startswith(p)`. -/
def startsWith (s p : String) : Bool := p.toList.isPrefixOf s.toList

/-- `p in s`. -/
def contains (s p : String) : Bool := s.toList.tails.any (p.toList.isPrefixOf ·)

/-- The text of an optional string, when `if value` lets it through. -/
def truthy : Option String → Option String
  | some s => if s = "" then none else some s
  | none => none

end EnergyAgent.Lib.Text
