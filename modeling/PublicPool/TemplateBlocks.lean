import PublicPool.Mining.JobsService
import PublicPool.Sv2.Messages
import PublicPool.TemplateProvider

/-!
# `PublicPool.TemplateBlocks`: declared transactions and the blocks of solutions

The rest of `services/template-provider.service.ts`: the templates it keeps, what it checks of a
declared job, and the blocks it makes of a solution. A job declares its transactions by their
witness ids, each in either byte order. A transaction is looked up among those of the template and
those the miner provided.

`none` stands for a throw.
-/

set_option autoImplicit false

namespace PublicPool

open Lib (OrdMap)

/-! ### Transactions by their witness ids -/

/-- `TemplateProviderTransaction`, with the fields that are read. -/
structure TemplateProviderTransaction where
  data : Bytes
  wtxid : List Char

/-- Whether the package takes a transaction for a coinbase. -/
def Transaction.isCoinbase (tx : Transaction) : Bool :=
  match tx.ins with
  | [input] => input.hash = List.replicate 32 0
  | _ => false

/-- `transaction.getHash(true)`. -/
def Transaction.witnessHash (host : Externals) (tx : Transaction) : Bytes :=
  if tx.isCoinbase then List.replicate 32 0 else (host.hash256 (host.toBuffer tx)).bytes

section
variable (host : Externals)

def parseTransaction (data : Bytes) : Option TemplateProviderTransaction := do
  let tx ← host.fromBuffer data
  return { data, wtxid := Js.toHex (tx.witnessHash host).reverse }

/-- One transaction of a template. The node's hash goes before the one computed here. -/
def buildTransaction (tx : BlockTemplateTx) : Option TemplateProviderTransaction := do
  let parsed ← parseTransaction host tx.data
  return { parsed with
    wtxid := match tx.hash with
      | some hash => if hash = "" then parsed.wtxid else hash.toList
      | none => parsed.wtxid }

def buildTransactions (rawTransactions : List BlockTemplateTx) :
    Option (List TemplateProviderTransaction) :=
  rawTransactions.mapM (buildTransaction host)

/-- The transactions of a template that is kept: `upsert` throws on others. -/
def TemplateProviderTemplate.transactions (template : TemplateProviderTemplate) :
    List TemplateProviderTransaction :=
  (buildTransactions host template.jobTemplate.blockData.transactions).getD []

/-- `hashAliases`: a hash in both byte orders. -/
def hashAliases (hashHex : List Char) : List (List Char) :=
  let normalized := Js.toLowerCase hashHex
  let reversed := Js.toHex (Js.bufferFromHex normalized).reverse
  if normalized = reversed then [normalized] else [normalized, reversed]

/-- The aliases of a transaction, each with its bytes. -/
def aliasEntries (tx : TemplateProviderTransaction) : List (List Char × Bytes) :=
  (hashAliases tx.wtxid).map fun key => (key, tx.data)

/-- `buildMap` on the witness ids, and `buildDeclaredTransactionMap`. -/
def transactionMap (transactions : List TemplateProviderTransaction) : OrdMap (List Char) Bytes :=
  OrdMap.empty.setAll (transactions.flatMap aliasEntries)

/-- `buildDeclaredTransactionMap`, which throws on bytes that are no transaction. -/
def buildDeclaredTransactionMap (template : TemplateProviderTemplate)
    (providedTransactions : List Bytes) : Option (OrdMap (List Char) Bytes) := do
  let provided ← providedTransactions.mapM (parseTransaction host)
  return transactionMap (template.transactions host ++ provided)

/-- `lookupWtxid` and `lookupDeclaredTransaction`: the first alias that is there. -/
def lookupTransaction (map : OrdMap (List Char) Bytes) (hash : Bytes) : Option Bytes :=
  (hashAliases (Js.toHex hash)).findSome? map.get?

/-! ### Checks on a declared job -/

/-- `buildCoinbaseHeightPrefix`. -/
def buildCoinbaseHeightPrefix (height : ℤ) : Bytes :=
  let encodedHeight := host.scriptNumberEncode height
  UInt8.ofNat encodedHeight.length :: encodedHeight

/-- `validateCoinbaseScriptHeight`: the error code, or `none`. -/
def validateCoinbaseScriptHeight (script : Bytes) (height : ℤ) : Option String :=
  if buildCoinbaseHeightPrefix host height <+: script then none
  else some "invalid-job-param-value-coinbase_tx_prefix"

/-- `validateCoinbaseTransactionHeight`. -/
def validateCoinbaseTransactionHeight (coinbaseTx : Bytes) (height : ℤ) : Option String :=
  match host.fromBuffer coinbaseTx with
  | none => some "invalid-coinbase-transaction"
  | some tx =>
    match tx.ins with
    | [input] => validateCoinbaseScriptHeight host input.script height
    | _ => some "invalid-coinbase-input-count"

end

/-- `readBitcoinVarInt` at the front of a buffer: the value and the bytes after it. -/
def readBitcoinVarInt : Bytes → Option (ℕ × Bytes)
  | [] => none
  | first :: rest =>
    let width := if first < 0xfd then 0 else if first = 0xfd then 2 else if first = 0xfe then 4
      else 8
    if width = 0 then some (first.toNat, rest)
    else if rest.length < width then none
    else some (leValue (rest.take width), rest.drop width)

/-- What follows the marker and flag of a transaction with witnesses, if it has them. -/
def skipSegwitMarker : Bytes → Bytes
  | 0x00 :: flag :: rest => if flag = 0x00 then 0x00 :: flag :: rest else rest
  | b => b

/-- The bytes from `getCoinbaseInputScriptStart` on. -/
def coinbaseInputScript (txPrefix : Bytes) : Option Bytes := do
  let (inputCount, rest) ← readBitcoinVarInt (skipSegwitMarker (txPrefix.drop 4))
  if inputCount ≠ 1 ∨ rest.length < 36 then none
  let (_, script) ← readBitcoinVarInt (rest.drop 36)
  return script

section
variable (host : Externals)

/-- `validateDeclaredCoinbasePrefixHeight`. -/
def validateDeclaredCoinbasePrefixHeight (coinbaseTxPrefix : Bytes) (height : ℤ) : Option String :=
  validateCoinbaseScriptHeight host ((coinbaseInputScript coinbaseTxPrefix).getD coinbaseTxPrefix)
    height

/-- One declared hash: the hashes seen so far, the unknown positions and whether one came twice. -/
def declaredWtxidStep (map : OrdMap (List Char) Bytes)
    (acc : List (List Char) × List ℕ × Bool) (entry : Bytes × ℕ) :
    List (List Char) × List ℕ × Bool :=
  let (seen, unknownTxPositionList, duplicateFound) := acc
  let aliases := hashAliases (Js.toHex entry.1)
  if aliases.any (· ∈ seen) then (seen, unknownTxPositionList ++ [entry.2], true)
  else
    (seen ++ aliases,
      if (lookupTransaction map entry.1).isSome then unknownTxPositionList
      else unknownTxPositionList ++ [entry.2],
      duplicateFound)

/-- `DeclareMiningJobValidationResult`: no template, a job that does not fit the template, unknown
transactions, or a job that is complete. -/
inductive DeclareValidation
  | invalid (errorCode : String)
  | missing (template : TemplateProviderTemplate) (unknownTxPositionList : List ℕ)
  | valid (template : TemplateProviderTemplate)

/-- `validateDeclaredWtxids`. -/
def validateDeclaredWtxids (latestTemplate : Option TemplateProviderTemplate) (version : ℤ)
    (wtxidList : List Bytes) (coinbaseTxPrefix : Bytes) : DeclareValidation :=
  match latestTemplate with
  | none => .invalid "template-not-found"
  | some template =>
    if version ≠ template.version then .invalid "version-mismatch"
    else match validateDeclaredCoinbasePrefixHeight host coinbaseTxPrefix template.height with
      | some errorCode => .invalid errorCode
      | none =>
        let (_, unknownTxPositionList, duplicateFound) := wtxidList.zipIdx.foldl
          (declaredWtxidStep (transactionMap (template.transactions host))) ([], [], false)
        if duplicateFound then .invalid "duplicate-transactions"
        else if unknownTxPositionList = [] then .valid template
        else .missing template unknownTxPositionList

/-- Whether a provided transaction is the one declared at a position. -/
def isDeclaredAt (expectedWtxids : List Bytes) (position : ℕ)
    (provided : TemplateProviderTransaction) : Bool :=
  match expectedWtxids[position]? with
  | none => false
  | some expected => Js.toLowerCase (Js.toHex expected) ∈ hashAliases provided.wtxid

/-- `validateProvidedTransactions` up to the mempool: the error code, or `none`. -/
def checkProvidedTransactions (expectedWtxids : List Bytes) (unknownTxPositionList : List ℕ)
    (transactionList : List Bytes) : Option String :=
  if unknownTxPositionList.length ≠ transactionList.length then
    some "missing-transaction-count-mismatch"
  else match transactionList.mapM (parseTransaction host) with
    | none => checkTransactionData host none 0 0 transactionList
    | some transactions =>
      if (unknownTxPositionList.zip transactions).all fun entry =>
          isDeclaredAt expectedWtxids entry.1 entry.2 then none
      else some "transaction-wtxid-mismatch"

/-! ### Blocks -/

/-- The root of a merkle tree over its leaves. -/
def fastMerkleRoot (level : List Bytes) : Bytes :=
  if 1 < level.length then fastMerkleRoot (nextMerkleLevel host level) else level.headD []
termination_by level.length
decreasing_by
  rw [length_nextMerkleLevel]
  omega

/-- `bitcoinjs.Block.calculateMerkleRoot(transactions, false)`. -/
def calculateMerkleRoot (transactions : List Transaction) : Digest :=
  ⟨fit 32 (fastMerkleRoot host (transactions.map fun tx => (tx.txHash host).bytes)), length_fit ..⟩

/-- `bitcoinjs.Block`, as the provider fills it in. -/
structure SolvedBlock where
  version : ℤ
  prevHash : Bytes
  timestamp : ℤ
  bits : ℤ
  nonce : ℤ
  transactions : List Transaction

namespace SolvedBlock

variable (block : SolvedBlock)

/-- The header of a block, which a version past 32 bits with a sign has none of. -/
def header : Option Bytes :=
  blockHeaderBytes block.version block.prevHash (calculateMerkleRoot host block.transactions)
    (some block.timestamp) (some block.bits) (some block.nonce)

/-- `block.toHex(false)`. -/
def toHex : Option Bytes := do
  let header ← block.header host
  return blockBytes host header block.transactions

end SolvedBlock

open Sv2 in
/-- `buildBlockFromSolution`. -/
def buildBlockFromSolution (template : TemplateProviderTemplate)
    (solution : Sv2TdpSubmitSolution) : Option SolvedBlock := do
  let coinbase ← host.fromBuffer solution.coinbaseTx
  let transactions ← (template.transactions host).mapM fun tx => host.fromBuffer tx.data
  return {
    version := solution.version.toNat
    prevHash := template.prevHash
    timestamp := solution.headerTimestamp.toNat
    bits := template.nBits
    nonce := solution.headerNonce.toNat
    transactions := coinbase :: transactions }

/-- The transactions of a declared job, or `none` if one of them is not known or does not
decode. -/
def declaredTransactions (map : OrdMap (List Char) Bytes) (wtxidList : List Bytes) :
    Option (List Transaction) :=
  wtxidList.mapM fun wtxid => do host.fromBuffer (← lookupTransaction map wtxid)

open Sv2 in
/-- `buildBlockFromDeclaredJobSolution`. -/
def buildBlockFromDeclaredJobSolution (template : TemplateProviderTemplate)
    (job : Sv2DeclareMiningJob) (providedTransactions : List Bytes)
    (solution : Sv2PushSolution) : Option SolvedBlock := do
  let map ← buildDeclaredTransactionMap host template providedTransactions
  let coinbase ← host.fromBuffer
    (job.coinbaseTxPrefix ++ solution.extranonce ++ job.coinbaseTxSuffix)
  let transactions ← declaredTransactions host map job.wtxidList
  return {
    version := solution.version.toNat
    prevHash := template.prevHash
    timestamp := solution.ntime.toNat
    bits := solution.nBits.toNat
    nonce := solution.nonce.toNat
    transactions := coinbase :: transactions }

end

/-! ### The templates that are kept -/

structure KeptTemplate where
  template : TemplateProviderTemplate
  createdAt : ℕ

/-- `TemplateProviderService`. -/
structure TemplateProviderService where
  retentionMs : ℕ
  templates : ℕ → Option KeptTemplate
  latestTemplateId : Option ℕ

namespace TemplateProviderService

/-- The service at its start. -/
def initial (retentionMs : ℕ) : TemplateProviderService where
  retentionMs := retentionMs
  templates _ := none
  latestTemplateId := none

variable (service : TemplateProviderService)

/-- `cleanup`: what was created before the cutoff goes. -/
def cleanup (now : ℕ) : TemplateProviderService :=
  let templates := fun id => (service.templates id).filter fun kept =>
    decide (now ≤ kept.createdAt + service.retentionMs)
  { service with
    templates
    latestTemplateId := service.latestTemplateId.filter fun id => (templates id).isSome }

/-- `upsert`: a template whose transactions do not decode is not kept. -/
def upsert (host : Externals) (jobTemplate : JobTemplate) (now : ℕ) : TemplateProviderService :=
  let service := service.cleanup now
  let templateId := Js.readHex jobTemplate.blockData.id.toList
  match buildTransactions host jobTemplate.blockData.transactions with
  | none => service
  | some _ =>
    { service with
      templates := fun id =>
        if id = templateId then some ⟨.ofJobTemplate templateId jobTemplate, now⟩
        else service.templates id
      latestTemplateId := some templateId }

/-- `getTemplate`. -/
def getTemplate (templateId now : ℕ) : Option TemplateProviderTemplate :=
  ((service.cleanup now).templates templateId).map (·.template)

/-- `getLatestTemplate`. -/
def getLatestTemplate (now : ℕ) : Option TemplateProviderTemplate :=
  (service.cleanup now).latestTemplateId.bind fun id => service.getTemplate id now

end TemplateProviderService

end PublicPool
