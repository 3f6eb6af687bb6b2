import ApiCatalog.Pattern.Search

/-!
# Replacement templates

A template is text in which `$` names a group of the match: by the longest run of letters, digits
and underscores after it, or by what stands between braces. `$$` is a dollar sign, and a `$` that
names nothing stands for itself. Groups are known by number only; a name that is no number, or the
number of a group that did not take part, stands for nothing.
-/

namespace ApiCatalog

/-- A part of a template. -/
inductive TemplatePart where
  | char (c : Char)
  | group (index : Nat)
  /-- The name of no group. -/
  | unknown
deriving Repr, DecidableEq

/-- A template, part by part. -/
abbrev Template := List TemplatePart

namespace Template

/-- Whether a character can stand in a group's name outside braces. -/
def isNameChar (c : Char) : Bool := c.isAlphanum || c = '_'

/-- The number that decimal digits stand for. -/
def indexOf (digits : List Char) : Nat := digits.foldl (fun n c => 10 * n + (c.toNat - 48)) 0

/-- The part that a name stands for: a number, which may have a plus sign, is a group. -/
def partOf (name : List Char) : TemplatePart :=
  let digits := match name with
    | '+' :: rest => rest
    | rest => rest
  if digits.isEmpty || !digits.all Char.isDigit then .unknown else .group (indexOf digits)

/-- Reads a template. -/
def ofChars : List Char → Template
  | [] => []
  | '$' :: '$' :: rest => .char '$' :: ofChars rest
  | '$' :: '{' :: rest =>
    match _h : rest.dropWhile (· ≠ '}') with
    | [] => .char '$' :: ofChars ('{' :: rest)
    | _ :: after => partOf (rest.takeWhile (· ≠ '}')) :: ofChars after
  | '$' :: rest =>
    if rest.takeWhile isNameChar = [] then .char '$' :: ofChars rest
    else partOf (rest.takeWhile isNameChar) :: ofChars (rest.dropWhile isNameChar)
  | c :: rest => .char c :: ofChars rest
termination_by text => text.length
decreasing_by
  all_goals simp only [List.length_cons]
  · omega
  · omega
  · have := (List.dropWhile_suffix (l := rest) (· ≠ '}')).length_le
    rw [_h] at this
    simp only [List.length_cons] at this
    omega
  · omega
  · have := (List.dropWhile_suffix (l := rest) isNameChar).length_le
    omega
  · omega

/-- The text of a part for a match. -/
def expandPart (captures : Captures) : TemplatePart → List Char
  | .char c => [c]
  | .group index => captures.text index
  | .unknown => []

/-- The text of a template for a match. -/
def expand (template : Template) (captures : Captures) : List Char :=
  template.flatMap (expandPart captures)

end Template

end ApiCatalog
