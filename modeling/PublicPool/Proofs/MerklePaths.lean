import PublicPool.CustomWork
import PublicPool.Lib.MerkleTree
import PublicPool.TemplateBlocks
import PublicPool.TxCodec

/-!
# `PublicPool.Proofs.MerklePaths`: the path of the coinbase leads to the root of the block

`buildCoinbaseMerklePath` runs through the tree of a block with zeros in place of the coinbase, and
`computeMerkleRoot` climbs from the hash of a coinbase along a path. Both are the tree of
`PublicPool.Lib.MerkleTree` over digests, so the second ends in the root of the tree that has the
coinbase in its place (`computeMerkleRoot_path`), which is the root the block of that coinbase has
(`calculateMerkleRoot_eq`).
-/

set_option autoImplicit false

namespace PublicPool.Proofs

open Lib

/-- The node above two nodes. -/
def merkleNode (host : Externals) (left right : Digest) : Digest :=
  host.hash256 (left.bytes ++ right.bytes)

theorem length_coinbasePlaceholder : (List.replicate 32 (0 : UInt8)).length = 32 :=
  List.length_replicate

/-- The zeros that stand for the coinbase. -/
def coinbasePlaceholderHash : Digest := ⟨List.replicate 32 0, length_coinbasePlaceholder⟩

section
variable (host : Externals)

/-! ### The tree of the code -/

variable (level : List Digest) (leaf : Digest)

theorem nextMerkleLevel_bytes :
    nextMerkleLevel host (level.map (·.bytes))
      = (MerkleTree.nextLevel (merkleNode host) level).map (·.bytes) := by
  induction level using MerkleTree.nextLevel.induct with
  | case1 left right rest ih =>
    simp only [List.map_cons, nextMerkleLevel, MerkleTree.nextLevel, ih]
    rfl
  | case2 left => rfl
  | case3 => rfl

/-- The path the code takes from the first leaf. -/
theorem merklePathFrom_bytes :
    merklePathFrom host (level.map (·.bytes)) 0
      = (MerkleTree.path (merkleNode host) level 0).map (·.bytes) := by
  induction hn : level.length using Nat.strong_induction_on generalizing level
  rename_i n ih
  rw [merklePathFrom, List.length_map]
  by_cases hlength : 1 < level.length
  · have hsibling : [siblingAt (level.map (·.bytes)) 0]
        = (MerkleTree.sibling level 0).toList.map (·.bytes) := by
      cases level with
      | nil => simp at hlength
      | cons first rest =>
        cases rest with
        | nil => simp at hlength
        | cons second rest => rfl
    rw [dif_pos hlength, MerkleTree.path_of_lt _ hlength, nextMerkleLevel_bytes, List.map_append,
      ← hsibling]
    exact congrArg (_ :: ·) (ih _ (hn ▸ MerkleTree.length_nextLevel_lt _ hlength) _ rfl)
  · rw [dif_neg hlength, MerkleTree.path_of_le _ (by omega)]
    rfl

/-- The root the code finds is the root of the tree. -/
theorem fastMerkleRoot_bytes {level : List Digest} {root : Digest}
    (h : MerkleTree.root (merkleNode host) level = some root) :
    fastMerkleRoot host (level.map (·.bytes)) = root.bytes := by
  induction hn : level.length using Nat.strong_induction_on generalizing level
  rename_i n ih
  rw [fastMerkleRoot, List.length_map]
  by_cases hlength : 1 < level.length
  · rw [MerkleTree.root_of_lt _ hlength] at h
    rw [if_pos hlength, nextMerkleLevel_bytes]
    exact ih _ (hn ▸ MerkleTree.length_nextLevel_lt _ hlength) h rfl
  · rw [MerkleTree.root, if_neg hlength] at h
    rw [if_neg hlength]
    cases level with
    | nil => cases h
    | cons first rest => rw [Option.some.inj h]; rfl

/-- A path of digests is climbed from the left. -/
theorem merkleRootOfPath_bytes (path : List Digest) :
    merkleRootOfPath host leaf (path.map (·.bytes)) = path.foldl (merkleNode host) leaf := by
  have hstep : (fun root (sibling : Digest) => merkleStep host root sibling.bytes)
      = merkleNode host := by
    funext root sibling
    rw [merkleStep, fit_of_length sibling.length_eq, merkleNode]
  rw [merkleRootOfPath, List.foldl_map, hstep]

/-- From the first leaf along its path to the root. -/
theorem root_eq_merkleRootOfPath (rest : List Digest) :
    MerkleTree.root (merkleNode host) (leaf :: rest) = some (merkleRootOfPath host leaf
      ((MerkleTree.path (merkleNode host) (leaf :: rest) 0).map (·.bytes))) := by
  rw [merkleRootOfPath_bytes, ← MerkleTree.climb_zero]
  exact MerkleTree.root_eq_climb _ rfl

/-! ### The path of the coinbase -/

/-- The ids of the transactions of a list. -/
def txids (transactions : List Transaction) : List Digest := transactions.map (·.txHash host)

theorem map_bytes_txids (transactions : List Transaction) :
    (txids host transactions).map (·.bytes)
      = transactions.map fun tx => (tx.txHash host).bytes := List.map_map

/-- Whatever stands for the coinbase, the path is the same. -/
theorem merklePathFrom_placeholder (placeholder leaf : Digest) (rest : List Digest) :
    merklePathFrom host (placeholder.bytes :: rest.map (·.bytes)) 0
      = (MerkleTree.path (merkleNode host) (leaf :: rest) 0).map (·.bytes) := by
  rw [MerkleTree.path_cons_congr _ leaf placeholder]
  exact merklePathFrom_bytes host (placeholder :: rest)

theorem buildCoinbaseMerklePath_eq {transactionList : List Bytes} {transactions : List Transaction}
    (h : transactionList.mapM host.fromBuffer = some transactions) :
    buildCoinbaseMerklePath host transactionList = some (merklePathFrom host
      (coinbasePlaceholderHash.bytes :: (txids host transactions).map (·.bytes)) 0) := by
  rw [buildCoinbaseMerklePath, h, map_bytes_txids]
  rfl

/-- The path of the coinbase of a list of transactions leads from the hash of every coinbase to the
root of the tree over that hash and the ids of the transactions. What the path was made with in
place of the coinbase does not matter. -/
theorem computeMerkleRoot_path {transactionList : List Bytes} {transactions : List Transaction}
    (hdecoded : transactionList.mapM host.fromBuffer = some transactions) :
    ∃ path, buildCoinbaseMerklePath host transactionList = some path ∧
      (∀ coinbaseTx : Bytes,
        MerkleTree.root (merkleNode host) (host.hash256 coinbaseTx :: txids host transactions)
          = some (merkleRootOfPath host (host.hash256 coinbaseTx) path)) ∧
      ∀ placeholder : Digest,
        merklePathFrom host (placeholder.bytes :: (txids host transactions).map (·.bytes)) 0
          = path := by
  refine ⟨_, buildCoinbaseMerklePath_eq host hdecoded, ?_, ?_⟩
  · intro coinbaseTx
    rw [merklePathFrom_placeholder host _ (host.hash256 coinbaseTx)]
    exact root_eq_merkleRootOfPath host _ _
  · intro placeholder
    rw [merklePathFrom_placeholder host placeholder coinbasePlaceholderHash,
      merklePathFrom_placeholder host _ coinbasePlaceholderHash]

end

namespace MerkleSample

def host : Externals := Externals.reference (fun b => Digest.ofNat (leValue b)) []

/-- A transaction with one input that pays so much. -/
def transaction (value : ℤ) : Transaction where
  version := 2
  ins := [{ hash := List.replicate 32 7, index := 0, script := [], sequence := 0, witness := [] }]
  outs := [{ value, script := [0x51] }]
  locktime := 0

/-- Three leaves with the coinbase, so that the last is paired with itself. -/
def transactionList : List Bytes := [transaction 1, transaction 2].map host.toLegacyBuffer

theorem decoded : transactionList.mapM host.fromBuffer = some [transaction 1, transaction 2] := by
  decide +kernel

end MerkleSample

open MerkleSample in
theorem computeMerkleRoot_path_sample :
    ∃ path, buildCoinbaseMerklePath host transactionList = some path ∧
      (∀ coinbaseTx : Bytes,
        MerkleTree.root (merkleNode host)
            (host.hash256 coinbaseTx :: txids host [transaction 1, transaction 2])
          = some (merkleRootOfPath host (host.hash256 coinbaseTx) path)) ∧
      ∀ placeholder : Digest,
        merklePathFrom host (placeholder.bytes ::
          (txids host [transaction 1, transaction 2]).map (·.bytes)) 0 = path :=
  computeMerkleRoot_path host decoded

section
variable (host : Externals)

/-- The root of a block is the root of the tree over the ids of its transactions. -/
theorem calculateMerkleRoot_eq (coinbase : Transaction) (transactions : List Transaction) :
    MerkleTree.root (merkleNode host) (txids host (coinbase :: transactions))
      = some (calculateMerkleRoot host (coinbase :: transactions)) := by
  have hroot := root_eq_merkleRootOfPath host (coinbase.txHash host) (txids host transactions)
  have hfast := fastMerkleRoot_bytes host hroot
  refine hroot.trans (congrArg some (Digest.ext_bytes ?_))
  show _ = fit 32 (fastMerkleRoot host _)
  rw [← map_bytes_txids]
  exact (fit_of_length (hfast ▸ Digest.length_eq _)).symm ▸ hfast.symm

end

end PublicPool.Proofs
