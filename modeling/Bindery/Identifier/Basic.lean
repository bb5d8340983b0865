import Bindery.Text.Case

/-! Identifiers name collections, titles, chapters, sections and versions: runs of small letters and
digits joined by single hyphens. -/

namespace Bindery.Identifier
open Text

def isIdentifierChar (c : Char) : Bool :=
  isAsciiLower c || isAsciiDigit c

def isQuoteMark (c : Char) : Bool :=
  c = '\x27' || c = '\x22'

/-- Lower case without quotes. The two small sigmas need no telling apart, since neither is an
identifier character. -/
def fold (text : Text) : Text :=
  (text.filter (!isQuoteMark ·)).flatMap lowerChar

def pieces (text : Text) : List Text :=
  runsOutside (!isIdentifierChar ·) (fold text)

def normalize (text : Text) : Text :=
  join ['-'] (pieces text)

end Bindery.Identifier
