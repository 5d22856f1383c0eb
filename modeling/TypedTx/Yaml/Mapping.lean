import TypedTx.Yaml.Token

/-!
# YAML mappings

The documents read here are one mapping, in block or in flow style, from scalars
to scalars and sequences of scalars. Deeper nesting, anchors, tags, block
scalars, directives and further documents are refused.
-/

namespace TypedTx.Yaml

/-- The value of a key. -/
inductive Value where
  | scalar (s : Scalar)
  | sequence (items : List Scalar)
deriving DecidableEq, Repr

/-- The keys with their values, in the order of the document. -/
abbrev Mapping := List (String × Value)

/-- The scalar that stands for a missing one. -/
def Scalar.empty : Scalar := ⟨"", true⟩

/-- A scalar at the front, or the empty one if a token that satisfies `ends`
stands in its place. -/
def scalarOr? (ends : Token → Bool) : List Token → Option (Scalar × List Token)
  | .scalar s :: rest => some (s, rest)
  | token :: rest => if ends token then some (.empty, token :: rest) else none
  | [] => none

/-- The members of a flow sequence behind its first bracket or its last member.
A comma may stand behind the last member. -/
def flowSequence? : List Token → (acc : List Scalar) → Option (List Scalar × List Token)
  | .flowSequenceEnd :: rest, acc => some (acc.reverse, rest)
  | .comma :: .flowSequenceEnd :: rest, acc@(_ :: _) => some (acc.reverse, rest)
  | .comma :: .scalar s :: rest, acc@(_ :: _) => flowSequence? rest (s :: acc)
  | .scalar s :: rest, [] => flowSequence? rest [s]
  | _, _ => none

/-- The members of a block sequence behind its opening token. -/
def blockSequence? : List Token → (acc : List Scalar) → Option (List Scalar × List Token)
  | .blockEnd :: rest, acc => some (acc.reverse, rest)
  | .dash :: .scalar s :: rest, acc => blockSequence? rest (s :: acc)
  | .dash :: .dash :: rest, acc => blockSequence? (.dash :: rest) (.empty :: acc)
  | .dash :: .blockEnd :: rest, acc => blockSequence? (.blockEnd :: rest) (.empty :: acc)
  | _, _ => none

/-- The members of a block sequence at the column of the keys around it, which
the next key ends. -/
def alignedSequence? : List Token → (acc : List Scalar) → Option (List Scalar × List Token)
  | .dash :: .scalar s :: rest, acc => alignedSequence? rest (s :: acc)
  | .dash :: rest, acc =>
      match rest with
      | .dash :: _ | .key :: _ | .value :: _ | .blockEnd :: _ =>
          alignedSequence? rest (.empty :: acc)
      | _ => none
  | rest, acc => some (acc.reverse, rest)

/-- The tokens that end a missing key or value of a block mapping. -/
def endsBlock (token : Token) : Bool :=
  [.key, .value, .blockEnd].contains token

/-- The tokens that end a missing key or value of a flow mapping. -/
def endsFlow (token : Token) : Bool :=
  [.comma, .flowMappingEnd].contains token

def blockValue? : List Token → Option (Value × List Token)
  | .value :: .flowSequence :: rest => do
      let (items, rest) ← flowSequence? rest []
      some (.sequence items, rest)
  | .value :: .blockSequence :: rest => do
      let (items, rest) ← blockSequence? rest []
      some (.sequence items, rest)
  | .value :: .dash :: rest => do
      let (items, rest) ← alignedSequence? (.dash :: rest) []
      some (.sequence items, rest)
  | .value :: rest => do
      let (s, rest) ← scalarOr? endsBlock rest
      some (.scalar s, rest)
  | rest => some (.scalar .empty, rest)

/-- The entries of a block mapping behind its opening token, at most `bound` of
them. -/
def blockMapping? : (bound : Nat) → List Token → (acc : Mapping) → Option (Mapping × List Token)
  | 0, _, _ => none
  | bound + 1, tokens, acc =>
      match tokens with
      | .blockEnd :: rest => some (acc.reverse, rest)
      | .key :: rest => do
          let (key, rest) ← scalarOr? endsBlock rest
          let (value, rest) ← blockValue? rest
          blockMapping? bound rest ((key.text, value) :: acc)
      | _ => none

def flowValue? : List Token → Option (Value × List Token)
  | .value :: .flowSequence :: rest => do
      let (items, rest) ← flowSequence? rest []
      some (.sequence items, rest)
  | .value :: rest => do
      let (s, rest) ← scalarOr? endsFlow rest
      some (.scalar s, rest)
  | rest => some (.scalar .empty, rest)

/-- An entry of a flow mapping. A key that no colon follows has no value. -/
def flowEntry? : List Token → Option ((String × Value) × List Token)
  | .scalar key :: rest => some ((key.text, .scalar .empty), rest)
  | .key :: rest => do
      let (key, rest) ← scalarOr? (fun token => token == .value || endsFlow token) rest
      let (value, rest) ← flowValue? rest
      some ((key.text, value), rest)
  | _ => none

/-- The entries of a flow mapping behind its first brace or its last entry, at
most `bound` of them. A comma may stand behind the last entry. -/
def flowMapping? : (bound : Nat) → List Token → (acc : Mapping) → Option (Mapping × List Token)
  | 0, _, _ => none
  | bound + 1, tokens, acc =>
      match tokens, acc with
      | .flowMappingEnd :: rest, _ => some (acc.reverse, rest)
      | .comma :: .flowMappingEnd :: rest, _ :: _ => some (acc.reverse, rest)
      | .comma :: rest, _ :: _ => do
          let (entry, rest) ← flowEntry? rest
          flowMapping? bound rest (entry :: acc)
      | rest, [] => do
          let (entry, rest) ← flowEntry? rest
          flowMapping? bound rest [entry]
      | _, _ => none

def mapping? (text : String) : Option Mapping := do
  let tokens ← tokens? text
  let tokens := match tokens with
    | .documentStart :: rest => rest
    | rest => rest
  let (entries, rest) ← match tokens with
    | .blockMapping :: rest => blockMapping? (rest.length + 1) rest []
    | .flowMapping :: rest => flowMapping? (rest.length + 1) rest []
    | _ => none
  if rest.all (· == .documentEnd) then some entries else none

end TypedTx.Yaml
