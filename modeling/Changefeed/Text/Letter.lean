/-!
# Letters regardless of case

The words that this library knows (kinds of change, modes, policies, the null
position) are ASCII words, and they are recognised in any mix of cases. A
character outside ASCII can take part in such a word only if its case mapping
gives letters of that word. In lower case there is one that does: the Kelvin sign,
which becomes `k`. (The dotted capital I becomes an `i` and a combining dot, which no
word holds.) In upper case the only word is that for the null position, and no
character outside ASCII becomes one of its letters, or several of them: the dotless i
and the long s become letters, but not of this word.
-/

namespace Changefeed.Text

/-- The lower case of a character, as far as it is an ASCII letter; else the character. -/
def lower (c : Char) : Char :=
  if c = '\u212A' then 'k' else c.toLower

/-- The upper case of a small ASCII letter; any other character as it is. -/
def upper (c : Char) : Char := c.toUpper

/-- A text in lower case, for comparison with an ASCII word. -/
def lowered (s : String) : String := String.ofList (s.toList.map lower)

/-- A text in upper case, for comparison with an ASCII word. -/
def uppered (s : String) : String := String.ofList (s.toList.map upper)

end Changefeed.Text
