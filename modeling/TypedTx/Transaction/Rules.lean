import TypedTx.Transaction.Basic

/-!
# Construction rules

The requirements that a draft must meet, each by itself. A requirement that
fails names its cause.
-/

namespace TypedTx

/-- The registry to validate against: the supplied one, or else the one of the
chain id that the draft commits to, or else the standard one. -/
def Options.resolve (o : Options) (chainId : Option Word) : Except Fault Registry :=
  match o.registry, chainId with
  | some registry, _ => .ok registry
  | none, none => .ok .standard
  | none, some found =>
      match found.toUInt64? with
      | some id => .ok (.ofChainId id)
      | none => .error (.chainIdMismatch Registry.standard.chainId found)

def requireEips (registry : Registry) (eips : List Nat) : Except Fault Unit :=
  match eips.find? fun eip => !registry.isActive eip with
  | some missing => .error (.unsupportedUpgrade missing)
  | none => .ok ()

/-- A chain id that is there is the registry's. -/
def requireChainId (registry : Registry) : Option Word → Except Fault Unit
  | none => .ok ()
  | some found =>
      if found = Word.ofUInt64 registry.chainId then .ok ()
      else .error (.chainIdMismatch registry.chainId found)

def requireParity (field : String) (value : Word) : Except Fault Unit :=
  if 1 < value then .error (.invalidSignatureParity field value) else .ok ()

/-- Once low values are required, `s` is at most half the order of the curve. -/
def requireLowS (registry : Registry) (field : String) (s : Word) : Except Fault Unit :=
  if registry.isActive 2 && Secp256k1.halfOrder < s then .error (.highSSignature field)
  else .ok ()

def requireSome {α : Type} (require : α → Except Fault Unit) : Option α → Except Fault Unit
  | none => .ok ()
  | some x => require x

/-- The `v` of a legacy signature can be read, and a chain id that it tells is
the registry's. -/
def requireLegacyV (registry : Registry) (v : Word) : Except Fault Unit := do
  let (parity, chainId) ← Replay.decode v
  match chainId with
  | none => requireParity "v" parity
  | some found => do
      requireEips registry [155]
      requireChainId registry (some found)
      requireParity "v" parity

/-- The data of a contract creation is not longer than the limit. -/
def requireInitCode (registry : Registry) (o : Options) (d : Draft) : Except Fault Unit :=
  let size := (d.data.getD []).length
  if d.recipient.isNone && !o.unlimitedInitCode then
    match registry.gas.maxInitCode with
    | some limit =>
        if limit < size then .error (.initCodeSizeExceeded size limit) else .ok ()
    | none => .ok ()
  else .ok ()

/-- The highest fee of all gas fits in 256 bits. -/
def requireFeeBound (gasLimit fee : Word) (feeName : String) : Except Fault Unit :=
  match gasLimit.mul? fee with
  | some _ => .ok ()
  | none => .error (.integerOverflow ("gasLimit * " ++ feeName))

def requireFeeOrder (maxFee maxPriorityFee : Word) : Except Fault Unit :=
  if maxFee < maxPriorityFee then .error (.feeOrderingViolation maxFee maxPriorityFee)
  else .ok ()

/-- Components are there of both signatures or of neither. -/
def requireBothSets (first second : SignatureParts) : Except Fault Unit :=
  match first.isAbsent, second.isAbsent with
  | false, true => .error (.missingSignatureSet "pV, pR, pS")
  | true, false => .error (.missingSignatureSet "v, r, s")
  | _, _ => .ok ()

end TypedTx
