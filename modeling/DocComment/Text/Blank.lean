/-!
White space as the Unicode property White_Space names it: twenty-five code points. Lines of a
comment lose it at their end, and annotations may be followed by it.
-/

namespace DocComment.Text

/-- The ranges of White_Space, in order. -/
def blankRanges : List (Nat × Nat) :=
  [(0x09, 0x0D), (0x20, 0x20), (0x85, 0x85), (0xA0, 0xA0), (0x1680, 0x1680), (0x2000, 0x200A),
   (0x2028, 0x2029), (0x202F, 0x202F), (0x205F, 0x205F), (0x3000, 0x3000)]

def isBlank (c : Char) : Bool :=
  blankRanges.any fun (low, high) => low ≤ c.toNat && c.toNat ≤ high

example : (blankRanges.map fun (low, high) => high + 1 - low).sum = 25 := by decide

def trimEndChars (cs : List Char) : List Char :=
  (cs.reverse.dropWhile isBlank).reverse

def trimEnd (text : String) : String :=
  String.ofList (trimEndChars text.toList)

theorem trim_end_chars_append_blank (cs : List Char) (c : Char) (blank : isBlank c = true) :
    trimEndChars (cs ++ [c]) = trimEndChars cs := by
  simp [trimEndChars, blank]

theorem trim_end_chars_append_visible (cs : List Char) (c : Char) (visible : isBlank c = false) :
    trimEndChars (cs ++ [c]) = cs ++ [c] := by
  simp [trimEndChars, visible]

end DocComment.Text
