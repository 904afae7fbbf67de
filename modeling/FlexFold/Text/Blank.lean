/-!
Blank characters and words. A word is a maximal run of characters that are not blank, so
`words` never returns an empty word and never a word with a blank in it.
-/

namespace FlexFold.Text

/-- A character is blank if it has the property `White_Space` of the Unicode standard. -/
def isBlank (c : Char) : Bool :=
  let n := c.toNat
  (0x09 ≤ n && n ≤ 0x0D) || n == 0x20 || n == 0x85 || n == 0xA0 || n == 0x1680 ||
    (0x2000 ≤ n && n ≤ 0x200A) || n == 0x2028 || n == 0x2029 || n == 0x202F ||
    n == 0x205F || n == 0x3000

/-- A word that was collected back to front, if it has any character. -/
def closeWord : List Char → List (List Char)
  | [] => []
  | word => [word.reverse]

/-- The words of `word.reverse ++ text`, where `word` holds no blank. -/
def wordsFrom (word : List Char) : List Char → List (List Char)
  | [] => closeWord word
  | c :: text =>
      if isBlank c then closeWord word ++ wordsFrom [] text else wordsFrom (c :: word) text

/-- The words of a text, in order. -/
def words (text : String) : List String :=
  (wordsFrom [] text.toList).map String.ofList

/-- The text without the blanks at its two ends. -/
def trim (text : String) : String :=
  String.ofList (((text.toList.dropWhile isBlank).reverse.dropWhile isBlank).reverse)

/-- Whether a text holds nothing but blanks. -/
def isBlankText (text : String) : Bool :=
  text.toList.all isBlank

/-- The words with one space between each two of them. -/
def spaced (ws : List String) : String :=
  String.ofList ([' '].intercalate (ws.map String.toList))

end FlexFold.Text
