import Scaffold.Text.Chars

/-!
The two notions of a line. A text file has lines ended by `\n`, `\r\n` or `\r`; a text in memory is
also divided at the other line boundaries.
-/

namespace Scaffold.Text

/-- A character that ends a line of a text in memory. -/
def isLineBoundary (c : Char) : Bool :=
  let n := c.toNat
  (10 ≤ n && n ≤ 13) || (28 ≤ n && n ≤ 30) || n == 0x85 || n == 0x2028 || n == 0x2029

/-- Puts a character in front of the first line. -/
def consFirst (c : Char) : List (List Char) → List (List Char)
  | [] => [[c]]
  | line :: rest => (c :: line) :: rest

/-- The lines between the boundaries; `\r\n` is one boundary, and one at the very end opens no line. -/
def linesOf : List Char → List (List Char)
  | [] => []
  | '\r' :: '\n' :: rest => [] :: linesOf rest
  | c :: rest => if isLineBoundary c then [] :: linesOf rest else consFirst c (linesOf rest)

/-- The lines of a text in memory. -/
def splitLines (s : String) : List String := (linesOf (chars s)).map ofChars

theorem splitLines_eq (s : String) : splitLines s = (linesOf s.toList).map String.ofList := by simp [splitLines]

/-- The lines with the boundaries that end them. -/
def linesWithEnds : List Char → List (List Char)
  | [] => []
  | '\r' :: '\n' :: rest => ['\r', '\n'] :: linesWithEnds rest
  | c :: rest => if isLineBoundary c then [c] :: linesWithEnds rest else consFirst c (linesWithEnds rest)

/-- Writes every line end as `\n`. -/
def newlines : List Char → List Char
  | [] => []
  | '\r' :: '\n' :: rest => '\n' :: newlines rest
  | c :: rest => (if c == '\r' then '\n' else c) :: newlines rest

/-- A file's text as it is read: every line end is `\n`. -/
def readNewlines (s : String) : String := ofChars (newlines (chars s))

theorem readNewlines_eq (s : String) : readNewlines s = .ofList (newlines s.toList) := by simp [readNewlines]

/-- The lines of a file: what stands between its line ends. -/
def fileLines (s : String) : List String :=
  ((newlines (chars s)).splitOn '\n').map ofChars

theorem fileLines_eq (s : String) : fileLines s = ((newlines s.toList).splitOn '\n').map String.ofList := by
  simp [fileLines]

/-- The text before the first line end of a file. -/
def firstFileLine (s : String) : String :=
  ofChars ((newlines (chars s)).takeWhile (· != '\n'))

/-- Lines as the text of a file: each ends with `\n`. -/
def joinLines (lines : List String) : String := ofChars (['\n'].intercalate (lines.map chars) ++ ['\n'])

theorem joinLines_eq (lines : List String) : joinLines lines = "\n".intercalate lines ++ "\n" := by
  rw [joinLines, ofChars_eq, funext chars_eq, ← String.toList_inj, String.toList_ofList, String.toList_append,
    String.toList_intercalate]
  rfl

end Scaffold.Text
