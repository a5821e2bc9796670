/-! Letter case of the ASCII letters: folding a text, and equality that does not tell the cases apart. -/

namespace DocStore.Text

/-- Lower-case ASCII letters for upper-case ones, all else as it is. -/
def foldCase (cs : List Char) : List Char := cs.map Char.toLower

/-- Equality of names that does not tell the cases of ASCII letters apart. -/
def sameName (a b : String) : Bool := foldCase a.toList == foldCase b.toList

/-- Whether a name starts with a lower-case stem, in any case. -/
def startsWithName (stem name : String) : Bool := stem.toList.isPrefixOf (foldCase name.toList)

end DocStore.Text
