/-!
# Lines of a text

Two notions of line are in use. A *source line* or *input line* ends at a line
feed, after carriage returns have been unified with line feeds. A *display line*
ends at any character that Unicode lets break a line, and is what an error
message quotes. The two agree on texts whose only break is the line feed.
-/

namespace LineBasic.Text

/-- Writes every carriage return, and every pair of a carriage return and a line
feed, as one line feed. -/
def unifyBreaks : List Char → List Char
  | [] => []
  | '\r' :: '\n' :: rest => '\n' :: unifyBreaks rest
  | c :: rest => (if c = '\r' then '\n' else c) :: unifyBreaks rest

/-- The characters that end a display line: line feed, vertical tab, form feed,
carriage return, three of the information separators, next line, and the line
and paragraph separators. -/
def isBreak (c : Char) : Bool :=
  [0x0a, 0x0b, 0x0c, 0x0d, 0x1c, 0x1d, 0x1e, 0x85, 0x2028, 0x2029].contains c.toNat

/-- Puts a character in front of the first line. -/
def consFirst (c : Char) : List (List Char) → List (List Char)
  | [] => [[c]]
  | line :: lines => (c :: line) :: lines

/-- The display lines of a text, without the characters that end them. A carriage
return followed by a line feed is one break, and a break at the very end opens no
further line. -/
def displayLines : List Char → List (List Char)
  | [] => []
  | '\r' :: '\n' :: rest => [] :: displayLines rest
  | c :: rest => if isBreak c then [] :: displayLines rest else consFirst c (displayLines rest)

/-- The lines of a text that end at line feeds. A line feed at the very end opens
no further line, and the last line needs none. -/
def feedLines : List Char → List (List Char)
  | [] => []
  | c :: rest => if c = '\n' then [] :: feedLines rest else consFirst c (feedLines rest)

end LineBasic.Text
