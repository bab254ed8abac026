import Mathlib.Data.List.Infix
import PublicPool.Sv2.Messages
import PublicPool.TemplateProvider

/-!
# `PublicPool.Sv2.Registry`: tokens and declared jobs

The model of `services/sv2-job-declaration-registry.service.ts`. A declarator gets a token with
the output scripts its coinbase must contain, declares a job under it and gets a second token
for the declared job. Tokens run out.

`none` and error codes are the throws of the source.
-/

set_option autoImplicit false

namespace PublicPool.Sv2

structure Sv2AllocatedMiningJobToken where
  token : Bytes
  userIdentifier : String
  coinbaseOutputs : Bytes
  createdAt : ℕ

inductive ValidationMode
  | tokenOnly
  | fullTemplate
  deriving DecidableEq, Repr

structure Sv2DeclaredMiningJob where
  originalToken : Bytes
  token : Bytes
  userIdentifier : String
  job : Sv2DeclareMiningJob
  createdAt : ℕ
  templateId : Option ℕ
  template : Option TemplateProviderTemplate
  validationMode : ValidationMode
  providedTransactions : List Bytes

/-- `Sv2JobDeclarationRegistryService`. -/
structure Sv2JobDeclarationRegistry where
  tokenTtlMs : ℕ
  allocatedTokens : Bytes → Option Sv2AllocatedMiningJobToken
  declaredJobs : Bytes → Option Sv2DeclaredMiningJob

namespace Sv2JobDeclarationRegistry

def initial (tokenTtlMs : ℕ) : Sv2JobDeclarationRegistry where
  tokenTtlMs := tokenTtlMs
  allocatedTokens _ := none
  declaredJobs _ := none

variable (registry : Sv2JobDeclarationRegistry)

/-- `cleanup`: what was created before the cutoff goes. -/
def cleanup (now : ℕ) : Sv2JobDeclarationRegistry :=
  { registry with
    allocatedTokens := fun token => (registry.allocatedTokens token).filter fun entry =>
      now ≤ entry.createdAt + registry.tokenTtlMs
    declaredJobs := fun token => (registry.declaredJobs token).filter fun entry =>
      now ≤ entry.createdAt + registry.tokenTtlMs }

/-- `allocateToken`, with the random token. -/
def allocateToken (userIdentifier : String) (coinbaseOutputs token : Bytes) (now : ℕ) :
    Sv2JobDeclarationRegistry × Sv2AllocatedMiningJobToken :=
  let registry := registry.cleanup now
  let entry := { token, userIdentifier, coinbaseOutputs, createdAt := now }
  ({ registry with
      allocatedTokens := fun id => if id = token then some entry else registry.allocatedTokens id },
    entry)

/-- `readVarInt` at the front of a buffer: the value and the bytes after it. -/
def readVarInt : Bytes → Except String (ℕ × Bytes)
  | [] => .error "invalid-coinbase-outputs"
  | first :: rest =>
    if first < 0xfd then .ok (first.toNat, rest)
    else if first = 0xfd then
      if rest.length < 2 then .error "invalid-coinbase-outputs"
      else .ok (leValue (rest.take 2), rest.drop 2)
    else if first = 0xfe then
      if rest.length < 4 then .error "invalid-coinbase-outputs"
      else .ok (leValue (rest.take 4), rest.drop 4)
    else .error "unsupported-large-coinbase-output-count"

/-- The scripts of a number of outputs. -/
def readOutputScripts : ℕ → Bytes → Except String (List Bytes)
  | 0, _ => .ok []
  | count + 1, outputs => do
    if outputs.length < 8 then throw "invalid-coinbase-outputs"
    let (scriptLength, rest) ← readVarInt (outputs.drop 8)
    if rest.length < scriptLength then throw "invalid-coinbase-outputs"
    let scripts ← readOutputScripts count (rest.drop scriptLength)
    return rest.take scriptLength :: scripts

/-- `extractOutputScripts`. -/
def extractOutputScripts (outputs : Bytes) : Except String (List Bytes) := do
  let (outputCount, rest) ← readVarInt outputs
  readOutputScripts outputCount rest

/-- `buf.indexOf(part) >= 0`. -/
def hasBytes (part : Bytes) (buf : Bytes) : Bool := decide (part <:+: buf)

/-- `coinbaseIncludesRequiredOutputs`. -/
def coinbaseIncludesRequiredOutputs (job : Sv2DeclareMiningJob) (coinbaseOutputs : Bytes) :
    Except String Bool := do
  if coinbaseOutputs = [] then return true
  let scripts ← extractOutputScripts coinbaseOutputs
  let declaredCoinbase := job.coinbaseTxPrefix ++ job.coinbaseTxSuffix
  return scripts.all fun script => script ≠ [] && hasBytes script declaredCoinbase

/-- `declareJob`, with the random token. -/
def declareJob (job : Sv2DeclareMiningJob) (templateId : Option ℕ)
    (template : Option TemplateProviderTemplate) (validationMode : ValidationMode)
    (providedTransactions : List Bytes) (token : Bytes) (now : ℕ) :
    Except String (Sv2JobDeclarationRegistry × Sv2DeclaredMiningJob) := do
  let registry := registry.cleanup now
  match registry.allocatedTokens job.miningJobToken with
  | none => throw "invalid-mining-job-token"
  | some allocated =>
    if ← coinbaseIncludesRequiredOutputs job allocated.coinbaseOutputs then
      let declared : Sv2DeclaredMiningJob :=
        { originalToken := job.miningJobToken
          token
          userIdentifier := allocated.userIdentifier
          job
          createdAt := now
          templateId
          template
          validationMode
          providedTransactions }
      return ({ registry with
        declaredJobs := fun id =>
          if id = token then some declared else registry.declaredJobs id }, declared)
    else throw "coinbase-output-mismatch"

/-- `getDeclaredJob`, which cleans up first. -/
def getDeclaredJob (token : Bytes) (now : ℕ) : Option Sv2DeclaredMiningJob :=
  (registry.cleanup now).declaredJobs token

end Sv2JobDeclarationRegistry

end PublicPool.Sv2
