/-!
# Blank characters and trimming

The characters with the Unicode property `White_Space`, and the removal of a run of them at either
end of a text. Blank characters between others are kept.
-/
namespace PhotoArchive.Text

/-- The characters with the Unicode property `White_Space`, by code point. -/
def isBlank (c : Char) : Bool :=
  let n := c.toNat
  (0x9 ≤ n && n ≤ 0xD) || n == 0x20 || n == 0x85 || n == 0xA0 || n == 0x1680 ||
    (0x2000 ≤ n && n ≤ 0x200A) || n == 0x2028 || n == 0x2029 || n == 0x202F || n == 0x205F ||
    n == 0x3000

def dropBlankEnd (s : List Char) : List Char :=
  (s.reverse.dropWhile isBlank).reverse

def trimBlank (s : List Char) : List Char :=
  dropBlankEnd (s.dropWhile isBlank)

/-- The text without the blank characters at its two ends. -/
def trim (s : String) : String :=
  String.ofList (trimBlank s.toList)

end PhotoArchive.Text
