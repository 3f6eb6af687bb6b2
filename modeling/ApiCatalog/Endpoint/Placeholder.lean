/-!
# Placeholders of address patterns

A placeholder is a stretch between braces, without a line feed. Its token is what stands between
them; a token that ends in question marks is optional, and its name is what comes before those.
-/

namespace ApiCatalog.Placeholder

/-- The tokens of a text, given the characters since the last open brace, most recent first. -/
def tokensFrom : Option (List Char) → List Char → List (List Char)
  | _, [] => []
  | none, c :: cs => tokensFrom (if c = '{' then some [] else none) cs
  | some read, c :: cs =>
    if c = '}' then read.reverse :: tokensFrom none cs
    else if c = '\n' then tokensFrom none cs
    else tokensFrom (some (c :: read)) cs

/-- The tokens of an address pattern, from left to right, with repetitions. -/
def tokens (uri : String) : List String := (tokensFrom none uri.toList).map String.ofList

/-- The name that a token stands for. -/
def name (token : String) : String :=
  String.ofList (token.toList.reverse.dropWhile (· == '?')).reverse

/-- Whether a token marks an optional part of the address. -/
def isOptional (token : String) : Bool := token.toList.getLast? == some '?'

end ApiCatalog.Placeholder
