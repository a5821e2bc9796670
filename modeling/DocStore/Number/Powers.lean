/-! Powers of the two bases in which numbers are held and written. -/

namespace DocStore

def twoTo (k : Nat) : Nat := Nat.pow 2 k

def tenTo (k : Nat) : Nat := Nat.pow 10 k

end DocStore
