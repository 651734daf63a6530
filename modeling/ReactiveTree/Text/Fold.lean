/-!
# Case folding against plain words

Two letters match when simple Unicode folding identifies them. Against a word of ASCII
letters that is ASCII case, and two letters from elsewhere: the long s and the Kelvin
sign.
-/

namespace ReactiveTree

/-- The ASCII letter that folding identifies `c` with, in lower case; other characters
stand for themselves. -/
def foldToAscii (c : Char) : Char :=
  if c.toNat = 0x017F then 's'
  else if c.toNat = 0x212A then 'k'
  else c.toLower

def matchesWord (word s : String) : Bool :=
  word.toList.map Char.toLower == s.toList.map foldToAscii

end ReactiveTree
