/-!
# Blanks

The characters of the Unicode property White_Space (`isBlank`), and what is cut along them: a text
without the blanks at its ends (`trim`) and the words of a text (`words`). The command languages
also know a narrower blank, the space and the tab (`isSpaceOrTab`), which alone may stand between
the tokens of a command.
-/

namespace KeyWatch.Text

/-- Whether a character has the Unicode property White_Space, the class along which `trim` and
`words` cut a text. -/
def isBlank (c : Char) : Bool :=
  let n := c.toNat
  (9 ≤ n && n ≤ 13) || n == 0x20 || n == 0x85 || n == 0xA0 || n == 0x1680 ||
    (0x2000 ≤ n && n ≤ 0x200A) || n == 0x2028 || n == 0x2029 || n == 0x202F || n == 0x205F ||
    n == 0x3000

/-- Whether a character may stand between the tokens of a command. Of the characters of `isBlank`
these are two. -/
def isSpaceOrTab (c : Char) : Bool := c == ' ' || c == '\t'

/-- The two characters of `isSpaceOrTab` are blanks (`isBlank`), so `trim` takes them off the ends
of a command line. -/
theorem isBlank_of_isSpaceOrTab {c : Char} (h : isSpaceOrTab c = true) : isBlank c = true := by
  simp only [isSpaceOrTab, Bool.or_eq_true, beq_iff_eq] at h
  rcases h with rfl | rfl <;> decide

/-- The characters that are left when those of `isBlank` are dropped at both ends. -/
def trimChars (cs : List Char) : List Char :=
  ((cs.dropWhile isBlank).reverse.dropWhile isBlank).reverse

/-- The text that is left when the blanks at both ends are dropped (`trimChars`); those between
other characters stay. -/
def trim (s : String) : String := String.ofList (trimChars s.toList)

/-- The longest runs of characters that are not blanks (`isBlank`). The argument `word` holds the
characters of the run that has begun, in reverse. -/
def splitWords (word : List Char) : List Char → List (List Char)
  | [] => if word.isEmpty then [] else [word.reverse]
  | c :: rest =>
    if isBlank c then
      if word.isEmpty then splitWords [] rest else word.reverse :: splitWords [] rest
    else splitWords (c :: word) rest

/-- The words of a text, which are its longest runs of characters that are not blanks, in order
(`splitWords`). -/
def words (s : String) : List String := (splitWords [] s.toList).map String.ofList

/-- Whether some character of a text is a blank (`isBlank`), so that `words` would cut the text or
drop the blank. -/
def hasBlank (s : String) : Bool := s.toList.any isBlank

/-! ## Words put together -/

/-- A run of characters without a blank goes to the word that `splitWords` has begun. -/
theorem splitWords_append {run : List Char} (h : run.any isBlank = false) (word rest : List Char) :
    splitWords word (run ++ rest) = splitWords (run.reverse ++ word) rest := by
  induction run generalizing word with
  | nil => rfl
  | cons c run ih =>
    obtain ⟨hc, hrun⟩ := Bool.or_eq_false_iff.1 h
    rw [List.cons_append, splitWords, hc, List.reverse_cons, List.append_assoc]
    exact ih hrun (c :: word)

/-- The characters of a text that is not empty, read backwards, are not empty either. This is the
form in which `splitWords` asks whether a word has begun. -/
theorem isEmpty_reverse_toList {s : String} (hne : s ≠ "") : s.toList.reverse.isEmpty = false := by
  rw [List.isEmpty_reverse, List.isEmpty_eq_false_iff]
  intro hnil
  exact hne (String.toList_eq_nil_iff.1 hnil)

/-- A text that is not empty and has no blank is a word of its own, and `words` gives it back. -/
theorem words_of_not_hasBlank {s : String} (hne : s ≠ "") (h : hasBlank s = false) :
    words s = [s] := by
  have hrun := splitWords_append h [] []
  rw [List.append_nil, List.append_nil, splitWords, isEmpty_reverse_toList hne] at hrun
  rw [words, hrun]
  simp

/-- A word, a space and a further text have that word and then the `words` of the further text. So
`Registration.line` can be cut into the words it was made of. -/
theorem words_append {s : String} (hne : s ≠ "") (h : hasBlank s = false) (t : String) :
    words (s ++ " " ++ t) = s :: words t := by
  have hrun := splitWords_append h [] (' ' :: t.toList)
  have hspace : isBlank ' ' = true := by decide
  rw [List.append_nil, splitWords, hspace, isEmpty_reverse_toList hne] at hrun
  rw [words, words, String.toList_append, String.toList_append, List.append_assoc]
  rw [show " ".toList ++ t.toList = ' ' :: t.toList from rfl, hrun]
  simp

end KeyWatch.Text
