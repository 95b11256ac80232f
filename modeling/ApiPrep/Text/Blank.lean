import ApiPrep.Text
import ApiPrep.Text.Ranges

namespace ApiPrep.Text

/-- The blanks: spaces, line and page breaks, and separators. -/
def blankRanges : Ranges :=
  [(9, 13), (28, 32), (133, 133), (160, 160), (5760, 5760), (8192, 8202), (8232, 8233),
  (8239, 8239), (8287, 8287), (12288, 12288)]

def isBlank (c : Rune) : Bool := blankRanges.has c.toNat

def trimBy (p : Rune → Bool) (s : List Rune) : List Rune :=
  ((s.dropWhile p).reverse.dropWhile p).reverse

def trim (s : List Rune) : List Rune := trimBy isBlank s

def blank (s : List Rune) : Bool := s.all isBlank

end ApiPrep.Text
