/-!
# Positions in a YAML text

The characters that matter to the layout of a YAML text, and a cursor that
moves over the text and keeps count of lines and columns.

There are five line breaks. A carriage return, a line feed, both together and
the next-line character count as a line feed wherever a break is kept; the two
Unicode separators stand for themselves.
-/

namespace TypedTx.Yaml

/-- Whether `c` may occur in a text. -/
def isPrintable (c : Char) : Bool :=
  let n := c.toNat
  n == 0x09 || n == 0x0a || n == 0x0d || (0x20 ≤ n && n ≤ 0x7e) || n == 0x85 ||
    (0xa0 ≤ n && n ≤ 0xfffd) || 0x10000 ≤ n

/-- A space or a tab. -/
def isBlank (c : Char) : Bool :=
  c == ' ' || c == '\t'

/-- A line break that is kept as a line feed. -/
def isLineEnd (c : Char) : Bool :=
  c == '\n' || c == '\r' || c == '\u0085'

/-- A line break that is kept as it is. -/
def isSeparator (c : Char) : Bool :=
  c == '\u2028' || c == '\u2029'

def isBreak (c : Char) : Bool :=
  isLineEnd c || isSeparator c

/-- The characters that structure a collection in flow style. -/
def isFlowIndicator (c : Char) : Bool :=
  [',', '[', ']', '{', '}'].contains c

/-- Whether no word goes on here: a blank, a break or the end of the text
follows. -/
def atWordEnd : List Char → Bool
  | [] => true
  | c :: _ => isBlank c || isBreak c

/-- A position in a text. -/
structure Cursor where
  /-- The text behind the position. -/
  rest : List Char
  /-- The number of characters before the position. -/
  index : Nat := 0
  line : Nat := 0
  column : Nat := 0

namespace Cursor

/-- Move over `n` characters of a line. -/
def skip (c : Cursor) (n : Nat) : Cursor :=
  { c with rest := c.rest.drop n, index := c.index + n, column := c.column + n }

def skipWhile (c : Cursor) (p : Char → Bool) : Cursor :=
  c.skip (c.rest.takeWhile p).length

def startsWith (c : Cursor) (p : Char → Bool) : Bool :=
  c.rest.head?.any p

/-- The line break at the position, as it is kept, and the start of the next
line. -/
def break? (c : Cursor) : Option (Char × Cursor) :=
  let behind (width : Nat) : Cursor := ⟨c.rest.drop width, c.index + width, c.line + 1, 0⟩
  match c.rest with
  | '\r' :: '\n' :: _ => some ('\n', behind 2)
  | x :: _ =>
      if isLineEnd x then some ('\n', behind 1)
      else if isSeparator x then some (x, behind 1)
      else none
  | [] => none

/-- Move over a byte order mark at the start of a line, where it takes up a
column. Anywhere else it is a character of the text. -/
def skipByteOrderMark (c : Cursor) : Cursor :=
  if c.column == 0 && c.startsWith (· == '\ufeff') then c.skip 1 else c

/-- Whether a line starts here with the word of three marks `mark`. -/
def atMark (c : Cursor) (mark : Char) : Bool :=
  c.column == 0 && c.rest.take 3 == [mark, mark, mark] && atWordEnd (c.rest.drop 3)

def atDocument (c : Cursor) : Bool :=
  c.atMark '-' || c.atMark '.'

end Cursor
end TypedTx.Yaml
