import PublicPool.Lib.Runs
import PublicPool.Mining.JobsService
import PublicPool.TemplateProvider

/-!
# `PublicPool.Mining.TemplateFeed`: from block templates to job templates

The model of `newMiningJob$` in `services/stratum-v1-jobs.service.ts`. The pipeline is fed with
the node's answers: mining info, of which it reads the number of blocks, and block templates. It
turns a block template into a job template unless nothing has changed since the last one, and
decides by the number of blocks whether the job template clears jobs.

A throw in the pipeline ends it. It throws when a template comes before any mining info, and on
transactions that do not decode.
-/

set_option autoImplicit false

namespace PublicPool

open Lib (Machine)

/-- `IMiningInfo`. -/
structure MiningInfo where
  blocks : ℕ
  deriving DecidableEq

/-- `IBlockTemplate`. -/
structure BlockTemplate where
  version : ℤ
  previousblockhash : String
  transactions : List BlockTemplateTx
  coinbasevalue : ℤ
  mintime : ℕ
  sigoplimit : Option ℕ
  sizelimit : Option ℕ
  weightlimit : Option ℕ
  bits : String
  height : ℤ
  payoutSnapshotId : Option ℕ
  payoutOutputs : Option (List AddressObject)

/-- What the pipeline takes from outside the repository. -/
structure FeedHost extends Externals where
  /-- The proof of a leaf in the merkle tree of some leaves, with `null` where the tree has no
  node. It starts with the leaf and ends with the root. -/
  merkleProof : List Bytes → Bytes → List (Option Bytes)
  /-- `bitcoinjs.Block.calculateMerkleRoot(transactions, true)`, which throws on transactions
  without witnesses. -/
  witnessMerkleRoot : List Transaction → Option Bytes
  /-- `percent.toString()`. -/
  percentText : ℚ → List Char

/-- `convertToLittleEndian`. -/
def convertToLittleEndian (hash : String) : Bytes := (Js.bufferFromHex hash.toList).reverse

/-- The coinbase that stands in for those of the jobs. -/
def tempCoinbaseTx : Transaction where
  version := 2
  ins := [{
    hash := List.replicate 32 0
    index := 0xffffffff
    script := []
    sequence := 0xffffffff
    witness := [List.replicate 32 0] }]
  outs := []
  locktime := 0

namespace BlockTemplate

variable (host : FeedHost) (blockTemplate : BlockTemplate)

/-- The time of a job template. -/
def timestamp (now : ℕ) : ℕ := max blockTemplate.mintime (now / 1000)

/-- The part of a work signature that names a recipient. -/
def outputSignature (output : AddressObject) : List Char :=
  Js.join ':' [output.address.toList, (output.amountSats.map Js.toStringInt).getD [],
    (output.percent.map host.percentText).getD []]

/-- The part of a work signature that names a transaction. -/
def transactionSignature (tx : BlockTemplateTx) : List Char :=
  (((tx.hash.or tx.txid).map String.toList).getD (Js.toHex tx.data))

/-- `workSignature`. -/
def workSignature (now : ℕ) : List Char :=
  Js.join '|' ([blockTemplate.previousblockhash.toList, Js.toStringInt blockTemplate.version,
      blockTemplate.bits.toList, Js.toString10 (blockTemplate.timestamp now),
      Js.toStringInt blockTemplate.height, Js.toStringInt blockTemplate.coinbasevalue,
      (blockTemplate.payoutSnapshotId.map Js.toString10).getD []]
    ++ (blockTemplate.payoutOutputs.getD []).map (outputSignature host)
    ++ blockTemplate.transactions.map transactionSignature)

/-- The job template of a block template, without its number. Bits that are no number count as
zero in everything that reads them. -/
def jobTemplate (clearJobs : Bool) (now : ℕ) : Option JobTemplate := do
  let transactions ← blockTemplate.transactions.mapM fun tx => host.fromBuffer tx.data
  let transactions := tempCoinbaseTx :: transactions
  let transactionHashes := transactions.map fun tx => (tx.txHash host.toExternals).bytes
  let merkleBranches := (host.merkleProof transactionHashes
    (tempCoinbaseTx.txHash host.toExternals).bytes).filterMap id
  let witnessCommit ← host.witnessMerkleRoot transactions
  let bits := (Js.parseInt16 blockTemplate.bits).getD 0
  return {
    block :=
      { version := blockTemplate.version
        prevHash := convertToLittleEndian blockTemplate.previousblockhash
        bits
        timestamp := blockTemplate.timestamp now
        witnessCommit
        transactions }
    -- the first node of the proof is the coinbase, the last one the root
    merkleBranch := merkleBranches.dropLast.drop 1
    blockData :=
      { id := ""
        creation := now
        coinbasevalue := blockTemplate.coinbasevalue
        networkDifficulty := calculateNetworkDifficulty bits
        height := blockTemplate.height
        clearJobs
        payoutSnapshotId := blockTemplate.payoutSnapshotId
        payoutOutputs := blockTemplate.payoutOutputs
        transactions := blockTemplate.transactions
        sigoplimit := blockTemplate.sigoplimit
        sizelimit := blockTemplate.sizelimit
        weightlimit := blockTemplate.weightlimit } }

end BlockTemplate

/-- The pipeline with the jobs service, and the node's mining info. -/
structure TemplateFeed where
  miningInfo : Option MiningInfo
  lastBlockHeight : ℕ
  lastWorkSignature : Option (List Char)
  jobsService : StratumV1JobsService
  ended : Bool

/-- What the pipeline is fed with. Mining info that could not be had is `none`. -/
inductive FeedInput
  | miningInfo (miningInfo : Option MiningInfo)
  | blockTemplate (blockTemplate : BlockTemplate) (now : ℕ)

namespace TemplateFeed

def initial : TemplateFeed where
  miningInfo := none
  lastBlockHeight := 0
  lastWorkSignature := none
  jobsService := .initial
  ended := false

variable (host : FeedHost) (feed : TemplateFeed)

/-- Whether a template that comes with some mining info clears jobs. -/
def clearsJobs (miningInfo : MiningInfo) : Bool :=
  feed.lastBlockHeight = 0 || feed.lastBlockHeight ≠ miningInfo.blocks

/-- The two `map` stages and the `tap` stage. -/
def next (miningInfo : MiningInfo) (blockTemplate : BlockTemplate) (now : ℕ) :
    TemplateFeed × List JobTemplate :=
  let clearJobs := feed.clearsJobs miningInfo
  let seen := { feed with
    lastBlockHeight := if clearJobs then miningInfo.blocks else feed.lastBlockHeight }
  let workSignature := blockTemplate.workSignature host now
  if !clearJobs && feed.lastWorkSignature = some workSignature then (seen, [])
  else
    let signed := { seen with lastWorkSignature := some workSignature }
    match blockTemplate.jobTemplate host clearJobs now with
    | none => ({ signed with ended := true }, [])
    | some jobTemplate =>
      ({ signed with jobsService := feed.jobsService.publish jobTemplate now },
        [feed.jobsService.numberTemplate jobTemplate now])

/-- One input of the pipeline. -/
def step : FeedInput → TemplateFeed × List JobTemplate
  | .miningInfo miningInfo => ({ feed with miningInfo }, [])
  | .blockTemplate blockTemplate now =>
    if feed.ended then (feed, [])
    else match feed.miningInfo with
      | none => ({ feed with ended := true }, [])
      | some miningInfo => feed.next host miningInfo blockTemplate now

end TemplateFeed

/-- The pipeline as a state machine that emits job templates. -/
def feedMachine (host : FeedHost) : Machine TemplateFeed FeedInput JobTemplate :=
  ⟨TemplateFeed.step host⟩

end PublicPool
