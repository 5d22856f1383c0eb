import TypedTx.Numeral
import TypedTx.Yaml.Cursor

/-!
# YAML scalars

Plain, single-quoted and double-quoted scalars. A scalar is a run of words with
gaps between them. A gap within a line is kept. A gap over several lines is
folded: blanks around the breaks are dropped, a single line feed becomes a
space, and of several breaks the first one is dropped if it is a line feed.
-/

namespace TypedTx.Yaml

/-- A scalar. Only a plain one, written without quotes, can be a number. -/
structure Scalar where
  text : String
  plain : Bool
deriving DecidableEq, Repr

/-- The value of a plain scalar as an unsigned number: decimal without leading
zeros, or behind `0x`, `0o` or `0b` in base 16, 8 or 2, with an optional plus in
front. -/
def Scalar.nat? (s : Scalar) : Option Nat :=
  if s.plain then
    let digits := match s.text.toList with
      | '+' :: rest => rest
      | cs => cs
    match digits with
    | '0' :: 'x' :: rest => Numeral.ofDigits? 16 rest
    | '0' :: 'o' :: rest => Numeral.ofDigits? 8 rest
    | '0' :: 'b' :: rest => Numeral.ofDigits? 2 rest
    | '0' :: _ :: _ => none
    | cs => Numeral.ofDigits? 10 cs
  else none

/-- What stands between two words of a scalar. Its characters are held in
reverse. -/
inductive Gap where
  /-- Blanks within a line. -/
  | blanks (cs : List Char)
  /-- Line breaks. The first one is absent if it was escaped. -/
  | breaks (first : Option Char) (further : List Char)

namespace Gap

/-- No gap. -/
def empty : Gap := .blanks []

def isBroken : Gap → Bool
  | .blanks _ => false
  | .breaks .. => true

/-- Add a blank, which is dropped next to a break. -/
def addBlank (blank : Char) : Gap → Gap
  | .blanks cs => .blanks (blank :: cs)
  | .breaks first further => .breaks first further

def addBreak (lineBreak : Char) : Gap → Gap
  | .blanks _ => .breaks (some lineBreak) []
  | .breaks first further => .breaks first (lineBreak :: further)

/-- What a gap contributes to the text of its scalar, in reverse. -/
def folded : Gap → List Char
  | .blanks cs => cs
  | .breaks (some '\n') [] => [' ']
  | .breaks (some '\n') further => further
  | .breaks first further => further ++ first.toList

end Gap

/-- Extend a gap by the blanks and breaks at the cursor, at most `bound` of
them. On a new line no tab may stand left of `margin`. -/
def Cursor.gap? (margin : Nat) : (bound : Nat) → Cursor → Gap → Option (Gap × Cursor)
  | 0, c, gap => some (gap, c)
  | bound + 1, c, gap =>
      match c.break?, c.rest with
      | some (lineBreak, c), _ => gap? margin bound c (gap.addBreak lineBreak)
      | none, x :: _ =>
          if gap.isBroken && c.column < margin && x == '\t' then none
          else if isBlank x then gap? margin bound (c.skip 1) (gap.addBlank x)
          else some (gap, c)
      | none, [] => some (gap, c)

/-- The characters that no plain scalar starts with, whatever follows. -/
def isIndicator (c : Char) : Bool :=
  isFlowIndicator c || ['#', '&', '*', '!', '|', '>', '\x27', '\x22', '%', '@', '\x60'].contains c

/-- Whether a plain scalar starts here. A dash may start one if a word goes on
behind it, and in block style so may a question mark and a colon. -/
def startsPlain (flow : Bool) : List Char → Bool
  | [] => false
  | c :: rest =>
      if c == '-' then !atWordEnd rest
      else if c == '?' || c == ':' then !flow && !atWordEnd rest
      else !(isIndicator c || isBlank c || isBreak c)

/-- Read a word of a plain scalar, in reverse in front of `word`. A blank, a
break and a colon at the end of a word end it, and in flow style a flow
indicator. In flow style a colon in front of an indicator is refused. -/
def plainWord? (flow : Bool) : List Char → (word : List Char) → Option (List Char)
  | [], word => some word
  | c :: rest, word =>
      if flow && c == ':' && rest.head?.any fun d => isFlowIndicator d || d == '?' then none
      else if isBlank c || isBreak c || (c == ':' && atWordEnd rest) ||
          (flow && isFlowIndicator c) then
        some word
      else plainWord? flow rest (c :: word)

/-- Read the words of a plain scalar, at most `bound` of them, in reverse in
front of `text` and a gap. The result has the gap behind the last word. A
comment and a document mark end the scalar, and so does in block style a line
that starts left of `margin`. -/
def plainWords? (flow : Bool) (margin : Nat) :
    (bound : Nat) → Cursor → Gap → (text : List Char) → Option (List Char × Gap × Cursor)
  | 0, c, gap, text => some (text, gap, c)
  | bound + 1, c, gap, text =>
      if c.atDocument || c.startsWith (· == '#') then some (text, gap, c)
      else do
        let word ← plainWord? flow c.rest []
        let c := c.skip word.length
        let (text, gap) :=
          if word.isEmpty then (text, gap) else (word ++ (gap.folded ++ text), Gap.empty)
        if c.startsWith fun x => isBlank x || isBreak x then
          let (gap, c) ← c.gap? margin bound gap
          if !flow && c.column < margin then some (text, gap, c)
          else plainWords? flow margin bound c gap text
        else some (text, gap, c)

/-- The plain scalar at the cursor, whether a new line has begun behind it, and
the cursor behind it. -/
def Cursor.plain? (c : Cursor) (flow : Bool) (margin bound : Nat) :
    Option (Scalar × Bool × Cursor) := do
  let (text, gap, c) ← plainWords? flow margin bound c Gap.empty []
  some (⟨String.ofList text.reverse, true⟩, gap.isBroken, c)

/-- The character that a one-letter escape stands for. -/
def escaped? : Char → Option Char
  | '0' => some '\x00'
  | 'a' => some '\x07'
  | 'b' => some '\x08'
  | 't' => some '\t'
  | '\t' => some '\t'
  | 'n' => some '\n'
  | 'v' => some '\x0b'
  | 'f' => some '\x0c'
  | 'r' => some '\r'
  | 'e' => some '\x1b'
  | ' ' => some ' '
  | '\x22' => some '\x22'
  | '/' => some '/'
  | '\\' => some '\\'
  | 'N' => some '\u0085'
  | '_' => some '\u00a0'
  | 'L' => some '\u2028'
  | 'P' => some '\u2029'
  | _ => none

/-- How many hexadecimal digits follow an escape letter. -/
def escapeWidth? : Char → Option Nat
  | 'x' => some 2
  | 'u' => some 4
  | 'U' => some 8
  | _ => none

def charOfCode? (n : Nat) : Option Char :=
  if h : n.isValidChar then some (Char.ofNatAux n h) else none

/-- The character that the escape behind a backslash stands for, and the cursor
behind it. -/
def Cursor.escape? (c : Cursor) : Option (Char × Cursor) :=
  match c.rest with
  | [] => none
  | x :: rest =>
      match escapeWidth? x with
      | some width => do
          let code ← Numeral.ofDigits? 16 (rest.take width)
          let d ← charOfCode? code
          if (rest.take width).length = width then some (d, c.skip (width + 1)) else none
      | none => do
          let d ← escaped? x
          some (d, c.skip 1)

inductive Quotes where
  | single
  | double
deriving DecidableEq

def Quotes.char : Quotes → Char
  | .single => '\x27'
  | .double => '\x22'

/-- Read a quoted scalar up to behind its closing quote, at most `bound` pieces,
in reverse in front of `text`. Between single quotes a quote is written twice;
between double quotes a backslash starts an escape, and one in front of a line
break drops the break. No line may start with a document mark. -/
def quotedPieces? (quotes : Quotes) :
    (bound : Nat) → Cursor → (text : List Char) → Option (List Char × Cursor)
  | 0, _, _ => none
  | bound + 1, c, text =>
      if c.atDocument then none
      else
        match c.rest with
        | [] => none
        | x :: rest =>
            if quotes = .single && x == '\x27' && rest.head? == some '\x27' then
              quotedPieces? quotes bound (c.skip 2) (x :: text)
            else if x == quotes.char then some (text, c.skip 1)
            else if quotes = .double && x == '\\' then
              match (c.skip 1).break? with
              | some (_, c) => do
                  let (gap, c) ← c.gap? 0 bound (.breaks none [])
                  quotedPieces? quotes bound c (gap.folded ++ text)
              | none => do
                  let (d, c) ← (c.skip 1).escape?
                  quotedPieces? quotes bound c (d :: text)
            else if isBlank x || isBreak x then do
              let (gap, c) ← c.gap? 0 bound Gap.empty
              quotedPieces? quotes bound c (gap.folded ++ text)
            else quotedPieces? quotes bound (c.skip 1) (x :: text)

/-- The quoted scalar behind an opening quote, and the cursor behind it. -/
def Cursor.quoted? (c : Cursor) (quotes : Quotes) (bound : Nat) : Option (Scalar × Cursor) := do
  let (text, c) ← quotedPieces? quotes bound c []
  some (⟨String.ofList text.reverse, false⟩, c)

end TypedTx.Yaml
