/-!
How a text begins and ends.
-/

namespace DocComment.Text

def firstChar? (text : String) : Option Char := text.toList.head?

def lastChar? (text : String) : Option Char := text.toList.getLast?

def endsIn (text ending : String) : Bool := ending.toList.isSuffixOf text.toList

def dropLastRun (c : Char) (text : String) : String :=
  String.ofList (text.toList.reverse.dropWhile (· == c)).reverse

/-- Reads backwards up to the first pair of colons. -/
def untilColons : List Char → List Char
  | [] => []
  | ':' :: ':' :: _ => []
  | c :: cs => c :: untilColons cs

/-- What follows the last pair of colons, or the whole text without one. -/
def afterLastColons (text : String) : String :=
  String.ofList (untilColons text.toList.reverse).reverse

example : afterLastColons "ns::Widget" = "Widget" := by decide
example : afterLastColons "Widget" = "Widget" := by decide

def joinWith (separator : String) : List String → String
  | [] => ""
  | [text] => text
  | text :: texts => text ++ separator ++ joinWith separator texts

def spaces (count : Nat) : String := String.ofList (List.replicate count ' ')

end DocComment.Text
