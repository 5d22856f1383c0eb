import TypedTx.Yaml.Scalar

/-!
# YAML tokens

The tokens of a YAML text, with the structure that indentation gives made
explicit: a block collection is opened where its column exceeds that of the
collection around it, and closed by the first token to the left of it.

Whether a scalar or a flow collection is a key shows only at the colon behind
it. Its place is therefore remembered, and the token that announces a key is put
there once the colon is found. Such a simple key stands on one line and is at
most 1024 characters away from its colon.
-/

namespace TypedTx.Yaml

inductive Token where
  | documentStart
  | documentEnd
  | blockMapping
  | blockSequence
  /-- The end of a block collection. -/
  | blockEnd
  | flowMapping
  | flowMappingEnd
  | flowSequence
  | flowSequenceEnd
  /-- The comma between the members of a flow collection. -/
  | comma
  /-- The dash in front of a member of a block sequence. -/
  | dash
  | key
  | value
  | scalar (s : Scalar)
deriving DecidableEq, Repr

/-- A place where a simple key may have started. -/
structure KeyPlace where
  /-- The number of tokens before the key. -/
  tokens : Nat
  index : Nat
  line : Nat
  column : Nat
  /-- Whether nothing but a key can stand there. -/
  required : Bool

/-- Whether a colon at `c` is too far away from the key. -/
def KeyPlace.isStale (place : KeyPlace) (c : Cursor) : Bool :=
  place.line < c.line || place.index + 1024 < c.index

/-- The state of reading tokens. A margin is one more than the column of a block
collection: the column where the content of its entries may begin. -/
structure Scanner where
  cursor : Cursor
  /-- The tokens so far, the last one first. -/
  tokens : List Token := []
  /-- The number of tokens so far. -/
  count : Nat := 0
  /-- The margin of the innermost block collection. Without one it is zero. -/
  margin : Nat := 0
  /-- The margins of the collections around it. -/
  margins : List Nat := []
  /-- Where a simple key of the innermost collection may have started. -/
  place : Option KeyPlace := none
  /-- The same for the collections around each open flow collection. -/
  places : List (Option KeyPlace) := []
  /-- Whether a simple key may start at the cursor. -/
  keyAllowed : Bool := true

namespace Scanner

/-- Whether a flow collection is open. -/
def inFlow (s : Scanner) : Bool :=
  !s.places.isEmpty

def push (s : Scanner) (token : Token) : Scanner :=
  { s with tokens := token :: s.tokens, count := s.count + 1 }

/-- Insert a token behind the first `n` ones. -/
def insert (s : Scanner) (n : Nat) (token : Token) : Scanner :=
  let later := s.count - n
  { s with
    tokens := s.tokens.take later ++ token :: s.tokens.drop later
    count := s.count + 1 }

/-- Add a token and move over the `width` characters that it is written with. -/
def take (s : Scanner) (token : Token) (width : Nat) : Scanner :=
  { s.push token with cursor := s.cursor.skip width }

/-- Open a block collection at a column, unless one at the column or to the
right of it is open. Its token is put behind the first `n` ones. -/
def openBlock (s : Scanner) (column n : Nat) (token : Token) : Scanner :=
  if s.inFlow || column < s.margin then s
  else { s.insert n token with margin := column + 1, margins := s.margin :: s.margins }

/-- Close the block collections whose margin exceeds `limit`, given the margins
around them. -/
def closeOnto (limit : Nat) : (margins : List Nat) → Scanner → Scanner
  | [], s => s
  | outer :: margins, s =>
      if limit < s.margin then
        closeOnto limit margins { s.push .blockEnd with margin := outer, margins }
      else s

/-- Close the block collections whose margin exceeds `limit`. Within a flow
collection, indentation means nothing. -/
def closeBlocks (s : Scanner) (limit : Nat) : Scanner :=
  if s.inFlow then s else closeOnto limit s.margins s

/-- Give up a place of a key. If nothing but a key can stand there, its colon is
missing. -/
def giveUp : Option KeyPlace → Option (Option KeyPlace)
  | some place => if place.required then none else some none
  | none => some none

/-- Give up the place of a key in the innermost collection. -/
def dropKey (s : Scanner) : Option Scanner := do
  let place ← giveUp s.place
  some { s with place }

/-- Remember the cursor as a place of a key, if one may start there. -/
def saveKey (s : Scanner) : Option Scanner :=
  if s.keyAllowed then do
    let s ← s.dropKey
    let c := s.cursor
    let required := !s.inFlow && s.margin == c.column + 1
    some { s with place := some ⟨s.count, c.index, c.line, c.column, required⟩ }
  else some s

/-- Give up the places of keys that are too far away from the cursor. -/
def dropStale (s : Scanner) : Option Scanner := do
  let check (place : Option KeyPlace) : Option (Option KeyPlace) :=
    if place.any (·.isStale s.cursor) then giveUp place else some place
  let place ← check s.place
  let places ← s.places.mapM check
  some { s with place, places }

/-- Move over blanks, breaks, comments and the byte order marks that lines start
with, at most `bound` lines of them. Where a simple key may start, a tab is not
passed over. A new line in block style allows a simple key. -/
def skipSpace (flow : Bool) : (bound : Nat) → Cursor → (keyAllowed : Bool) → Cursor × Bool
  | 0, c, keyAllowed => (c, keyAllowed)
  | bound + 1, c, keyAllowed =>
      let c := c.skipByteOrderMark.skipWhile fun x =>
        x == ' ' || ((flow || !keyAllowed) && x == '\t')
      let c := if c.startsWith (· == '#') then c.skipWhile fun x => !isBreak x else c
      match c.break? with
      | some (_, c) => skipSpace flow bound c (keyAllowed || !flow)
      | none => (c, keyAllowed)

def document (s : Scanner) (token : Token) : Option Scanner := do
  let s ← (s.closeBlocks 0).dropKey
  some { s.take token 3 with keyAllowed := false }

def openFlow (s : Scanner) (token : Token) : Option Scanner := do
  let s ← s.saveKey
  some { s.take token 1 with place := none, places := s.place :: s.places, keyAllowed := true }

def closeFlow (s : Scanner) (token : Token) : Option Scanner := do
  let s ← s.dropKey
  let s := { s.take token 1 with keyAllowed := false }
  match s.places with
  | [] => some s
  | place :: places => some { s with place, places }

def comma (s : Scanner) : Option Scanner := do
  let s ← s.dropKey
  some { s.take .comma 1 with keyAllowed := true }

/-- The dash of a block sequence, which may be its first. -/
def dash (s : Scanner) : Option Scanner := do
  if !s.inFlow && !s.keyAllowed then none
  else
    let s ← (s.openBlock s.cursor.column s.count .blockSequence).dropKey
    some { s.take .dash 1 with keyAllowed := true }

def explicitKey (s : Scanner) : Option Scanner := do
  if !s.inFlow && !s.keyAllowed then none
  else
    let s ← (s.openBlock s.cursor.column s.count .blockMapping).dropKey
    some { s.take .key 1 with keyAllowed := !s.inFlow }

/-- The colon in front of a value. It makes a key of what started at the
remembered place. -/
def colon (s : Scanner) : Option Scanner :=
  match s.place with
  | some place =>
      let s := (s.insert place.tokens .key).openBlock place.column place.tokens .blockMapping
      some { s.take .value 1 with place := none, keyAllowed := false }
  | none =>
      if !s.inFlow && !s.keyAllowed then none
      else
        let s := s.openBlock s.cursor.column s.count .blockMapping
        some { s.take .value 1 with keyAllowed := !s.inFlow }

def quoted (s : Scanner) (quotes : Quotes) (bound : Nat) : Option Scanner := do
  let s ← s.saveKey
  let (text, cursor) ← (s.cursor.skip 1).quoted? quotes bound
  some { s.push (.scalar text) with cursor, keyAllowed := false }

/-- A plain scalar. A new line behind it allows a simple key. -/
def plain (s : Scanner) (bound : Nat) : Option Scanner := do
  let s ← s.saveKey
  let (text, keyAllowed, cursor) ← s.cursor.plain? s.inFlow s.margin bound
  some { s.push (.scalar text) with cursor, keyAllowed }

def token (s : Scanner) (bound : Nat) : Option Scanner :=
  let flow := s.inFlow
  if s.cursor.atMark '-' then s.document .documentStart
  else if s.cursor.atMark '.' then s.document .documentEnd
  else
    match s.cursor.rest with
    | '[' :: _ => s.openFlow .flowSequence
    | '{' :: _ => s.openFlow .flowMapping
    | ']' :: _ => s.closeFlow .flowSequenceEnd
    | '}' :: _ => s.closeFlow .flowMappingEnd
    | ',' :: _ => s.comma
    | '\x27' :: _ => s.quoted .single bound
    | '\x22' :: _ => s.quoted .double bound
    | x :: rest =>
        if x == '-' && atWordEnd rest then s.dash
        else if x == '?' && (flow || atWordEnd rest) then s.explicitKey
        else if x == ':' && (flow || atWordEnd rest) then s.colon
        else if startsPlain flow s.cursor.rest then s.plain bound
        else none
    | [] => none

/-- Read tokens up to the end of the text, at most `bound` of them. -/
def run : (bound : Nat) → Scanner → Option (List Token)
  | 0, _ => none
  | bound + 1, s => do
      let (cursor, keyAllowed) := skipSpace s.inFlow bound s.cursor s.keyAllowed
      let s ← { s with cursor, keyAllowed }.dropStale
      if cursor.rest.isEmpty then
        let s ← (s.closeBlocks 0).dropKey
        some s.tokens.reverse
      else
        let s ← (s.closeBlocks (cursor.column + 1)).token bound
        run bound s

end Scanner

def tokens? (text : String) : Option (List Token) :=
  let cs := text.toList
  if cs.all isPrintable then Scanner.run (cs.length + 2) { cursor := ⟨cs, 0, 0, 0⟩ } else none

end TypedTx.Yaml
