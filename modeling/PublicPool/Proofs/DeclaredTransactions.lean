import PublicPool.Lib.PartialMaps
import PublicPool.TemplateBlocks
import PublicPool.TxCodec

/-!
# `PublicPool.Proofs.DeclaredTransactions`: a declared job that was accepted can be assembled

A declared hash is looked up under its two byte orders, at the declaration among the transactions of
the template, and for the block among those and the ones the miner provided. What is found under an
alias of a hash has that hash, in one byte order or the other, because every entry of the map stands
under the aliases of its own hash (`hash_of_lookup`). And what is accepted is found: a hash that the
template did not have is reported with its position, and the transaction that is provided for the
position is checked against the hash (`lookup_of_accepted`).

`declared_job_assembles` puts both together. That different transactions have different hashes is not
needed for it.
-/

set_option autoImplicit false

namespace PublicPool.Proofs

open Lib

section
variable (host : Externals)

/-! ### Aliases -/

theorem lowerChar_hexDigit {n : ℕ} (h : n < 16) : Js.lowerChar (Js.hexDigit n) = Js.hexDigit n := by
  revert n
  decide

theorem toLowerCase_toHex (b : Bytes) : Js.toLowerCase (Js.toHex b) = Js.toHex b := by
  refine (List.map_congr_left fun c hc => ?_).trans (List.map_id _)
  obtain ⟨x, -, hx⟩ := List.mem_flatMap.mp hc
  have hlt := x.toNat_lt
  rcases List.mem_cons.mp hx with rfl | hx
  · exact lowerChar_hexDigit (by omega)
  · rw [List.mem_singleton.mp hx]
    exact lowerChar_hexDigit (by omega)

variable {b a : Bytes} {key : List Char}

/-- A hash is known by its bytes in either order. -/
theorem mem_hashAliases_toHex :
    key ∈ hashAliases (Js.toHex b) ↔ key = Js.toHex b ∨ key = Js.toHex b.reverse := by
  simp only [hashAliases, toLowerCase_toHex, Js.bufferFromHex_toHex]
  split
  · rename_i hsame
    rw [List.mem_singleton, ← hsame, or_self]
  · rw [List.mem_cons, List.mem_singleton]

theorem toHex_inj (h : Js.toHex a = Js.toHex b) : a = b := by
  rw [← Js.bufferFromHex_toHex a, h, Js.bufferFromHex_toHex]

/-- Two hashes are the same up to the order of their bytes. -/
def SameHash (a b : Bytes) : Prop := a = b ∨ a = b.reverse

/-- Hashes with an alias in common are the same. -/
theorem sameHash_of_alias (ha : key ∈ hashAliases (Js.toHex a))
    (hb : key ∈ hashAliases (Js.toHex b)) : SameHash a b := by
  rw [mem_hashAliases_toHex] at ha hb
  rcases ha with rfl | rfl
  · exact hb.imp toHex_inj toHex_inj
  · rcases hb with hb | hb
    · exact Or.inr (List.reverse_eq_iff.mp (toHex_inj hb))
    · exact Or.inl (List.reverse_injective (toHex_inj hb))

/-! ### What the map has -/

/-- The hash of a template transaction is the one of its data. -/
def HashesOwnData (tx : TemplateProviderTransaction) : Prop :=
  (parseTransaction host tx.data).map (·.wtxid) = some tx.wtxid

variable {host}

variable {tx : TemplateProviderTransaction} {data hash : Bytes}
  {transactions : List TemplateProviderTransaction} {key : List Char}
  {template : TemplateProviderTemplate}

/-- A transaction that hashes its own data decodes, and its hash is the witness hash. -/
theorem exists_of_hashesOwnData (h : HashesOwnData host tx) :
    ∃ decoded, host.fromBuffer tx.data = some decoded ∧
      tx.wtxid = Js.toHex (decoded.witnessHash host).reverse := by
  rw [HashesOwnData, parseTransaction] at h
  cases hdecoded : host.fromBuffer tx.data with
  | none =>
    rw [hdecoded] at h
    cases h
  | some decoded =>
    rw [hdecoded] at h
    exact ⟨decoded, rfl, (Option.some.inj h).symm⟩

theorem hashesOwnData_of_parse (h : parseTransaction host data = some tx) :
    HashesOwnData host tx := by
  have hdata : tx.data = data := by
    rw [parseTransaction] at h
    obtain ⟨decoded, -, hdecoded⟩ := Option.bind_eq_some_iff.mp h
    exact congrArg TemplateProviderTransaction.data (Option.some.inj hdecoded).symm
  rw [HashesOwnData, hdata, h]
  rfl

/-- The entries of the map are aliases of its transactions. -/
theorem exists_of_get?_transactionMap (h : (transactionMap transactions).get? key = some data) :
    ∃ tx ∈ transactions, key ∈ hashAliases tx.wtxid ∧ data = tx.data := by
  have hentries : ∀ entry ∈ (transactionMap transactions).entries,
      ∃ tx ∈ transactions, entry.1 ∈ hashAliases tx.wtxid ∧ entry.2 = tx.data := by
    refine OrdMap.forall_entries_setAll (fun entry hentry => nomatch hentry) ?_
    intro entry hentry
    obtain ⟨tx, htx, halias⟩ := List.mem_flatMap.mp hentry
    obtain ⟨key, hkey, rfl⟩ := List.mem_map.mp halias
    exact ⟨tx, htx, hkey, rfl⟩
  exact hentries (key, data) (OrdMap.get?_eq_some_iff.mp h)

/-- Every alias of every transaction is there. -/
theorem isSome_get?_transactionMap (htx : tx ∈ transactions) (hkey : key ∈ hashAliases tx.wtxid) :
    ((transactionMap transactions).get? key).isSome = true := by
  refine OrdMap.get?_isSome_iff.mpr (OrdMap.mem_keys_setAll.mpr (Or.inr ?_))
  have hentry : (key, tx.data) ∈ transactions.flatMap aliasEntries :=
    List.mem_flatMap.mpr ⟨tx, htx, List.mem_map_of_mem hkey⟩
  exact List.mem_map_of_mem (f := Prod.fst) hentry

/-! ### Lookups -/

/-- What is found under an alias of a hash has that hash. -/
theorem hash_of_lookup (hown : ∀ tx ∈ transactions, HashesOwnData host tx)
    (h : lookupTransaction (transactionMap transactions) hash = some data) :
    ∃ decoded, host.fromBuffer data = some decoded ∧ SameHash (decoded.witnessHash host) hash := by
  obtain ⟨key, hkey, hget⟩ := List.exists_of_findSome?_eq_some h
  obtain ⟨tx, htx, halias, rfl⟩ := exists_of_get?_transactionMap hget
  obtain ⟨decoded, hdecoded, hwtxid⟩ := exists_of_hashesOwnData (hown tx htx)
  refine ⟨decoded, hdecoded, ?_⟩
  rw [hwtxid, mem_hashAliases_toHex, List.reverse_reverse] at halias
  exact sameHash_of_alias (mem_hashAliases_toHex.mpr halias.symm) hkey

/-- A hash is found as soon as one of its aliases is there. -/
theorem isSome_lookup_of_alias (hkey : key ∈ hashAliases (Js.toHex hash)) (htx : tx ∈ transactions)
    (halias : key ∈ hashAliases tx.wtxid) :
    (lookupTransaction (transactionMap transactions) hash).isSome = true :=
  List.findSome?_isSome_iff.mpr ⟨key, hkey, isSome_get?_transactionMap htx halias⟩

/-- What is found is still found among more transactions. -/
theorem isSome_lookup_append
    (h : (lookupTransaction (transactionMap transactions) hash).isSome = true)
    (more : List TemplateProviderTransaction) :
    (lookupTransaction (transactionMap (transactions ++ more)) hash).isSome = true := by
  obtain ⟨key, hkey, hsome⟩ := List.findSome?_isSome_iff.mp h
  obtain ⟨data, hdata⟩ := Option.isSome_iff_exists.mp hsome
  obtain ⟨tx, htx, halias, -⟩ := exists_of_get?_transactionMap hdata
  exact isSome_lookup_of_alias hkey (List.mem_append_left more htx) halias

/-! ### Accepted declarations -/

variable (map : OrdMap (List Char) Bytes) (acc : List (List Char) × List ℕ × Bool)

/-- A step of the check reports the positions it reported, and its own when the hash is unknown. -/
theorem declaredWtxidStep_reports (entry : Bytes × ℕ) :
    acc.2.1 ⊆ (declaredWtxidStep map acc entry).2.1 ∧
      (lookupTransaction map entry.1 = none →
        entry.2 ∈ (declaredWtxidStep map acc entry).2.1) := by
  obtain ⟨seen, unknown, duplicate⟩ := acc
  simp only [declaredWtxidStep]
  split
  · exact ⟨List.subset_append_left _ _, fun _ => List.mem_append_right _ List.mem_cons_self⟩
  · constructor
    · intro position hmem
      split
      · exact hmem
      · exact List.mem_append_left _ hmem
    · intro hnone
      rw [hnone, Option.isSome_none, if_neg Bool.false_ne_true]
      exact List.mem_append_right _ List.mem_cons_self

/-- Every unknown hash is reported. -/
theorem mem_unknown_of_lookup_none (entries : List (Bytes × ℕ))
    (acc : List (List Char) × List ℕ × Bool) :
    acc.2.1 ⊆ (entries.foldl (declaredWtxidStep map) acc).2.1 ∧
      ∀ entry ∈ entries, lookupTransaction map entry.1 = none →
        entry.2 ∈ (entries.foldl (declaredWtxidStep map) acc).2.1 := by
  induction entries generalizing acc with
  | nil => exact ⟨fun _ hmem => hmem, fun _ hmem => (List.not_mem_nil hmem).elim⟩
  | cons entry entries ih =>
    obtain ⟨hkeeps, hreports⟩ := declaredWtxidStep_reports map acc entry
    obtain ⟨hrest, hmore⟩ := ih (declaredWtxidStep map acc entry)
    refine ⟨fun position hmem => hrest (hkeeps hmem), ?_⟩
    intro other hother hnone
    rcases List.mem_cons.mp hother with rfl | hother
    · exact hrest (hreports hnone)
    · exact hmore other hother hnone

/-- A declaration is accepted with the provided transactions: all its hashes are known, or the
unknown ones are provided. -/
inductive DeclarationAccepted (host : Externals) (latestTemplate : Option TemplateProviderTemplate)
    (job : Sv2.Sv2DeclareMiningJob) (template : TemplateProviderTemplate) : List Bytes → Prop
  | complete (h : validateDeclaredWtxids host latestTemplate job.version.toNat job.wtxidList
      job.coinbaseTxPrefix = .valid template) :
      DeclarationAccepted host latestTemplate job template []
  | provided {unknownTxPositionList : List ℕ} {transactionList : List Bytes}
      (h : validateDeclaredWtxids host latestTemplate job.version.toNat job.wtxidList
        job.coinbaseTxPrefix = .missing template unknownTxPositionList)
      (hchecked : checkProvidedTransactions host job.wtxidList unknownTxPositionList
        transactionList = none) :
      DeclarationAccepted host latestTemplate job template transactionList

variable {transactionList providedTransactions : List Bytes}
  {latestTemplate : Option TemplateProviderTemplate} {unknownTxPositionList : List ℕ}

/-- A check that reports no error has decoded every transaction. -/
theorem fromBuffer_of_checkTransactionData {maxTotalBytes : Option ℕ} {i totalBytes : ℕ}
    (h : checkTransactionData host maxTotalBytes i totalBytes transactionList = none) :
    ∀ raw ∈ transactionList, ∃ tx, host.fromBuffer raw = some tx := by
  induction transactionList generalizing i totalBytes with
  | nil => exact fun _ hmem => (List.not_mem_nil hmem).elim
  | cons raw rest ih =>
    simp only [checkTransactionData] at h
    split at h
    · cases h
    · split at h
      · cases h
      · rename_i hdecoded
        rw [Bool.not_eq_true, Option.isNone_eq_false_iff, Option.isSome_iff_exists] at hdecoded
        exact List.forall_mem_cons.mpr ⟨hdecoded, ih h⟩

/-- A hash of an accepted declaration is one of the template, or its position is reported. -/
theorem known_or_reported {version : ℤ} {wtxidList : List Bytes} {coinbaseTxPrefix : Bytes}
    (h : validateDeclaredWtxids host latestTemplate version wtxidList coinbaseTxPrefix
        = .valid template ∧ unknownTxPositionList = [] ∨
      validateDeclaredWtxids host latestTemplate version wtxidList coinbaseTxPrefix
        = .missing template unknownTxPositionList) :
    ∀ entry ∈ wtxidList.zipIdx,
      (lookupTransaction (transactionMap (template.transactions host)) entry.1).isSome = true ∨
        entry.2 ∈ unknownTxPositionList := by
  have hreported : ∀ entry ∈ wtxidList.zipIdx,
      (lookupTransaction (transactionMap (template.transactions host)) entry.1).isSome = true ∨
        entry.2 ∈ (wtxidList.zipIdx.foldl
          (declaredWtxidStep (transactionMap (template.transactions host))) ([], [], false)).2.1 := by
    intro entry hentry
    cases hlookup : lookupTransaction (transactionMap (template.transactions host)) entry.1 with
    | some data => exact Or.inl rfl
    | none =>
      exact Or.inr ((mem_unknown_of_lookup_none _ wtxidList.zipIdx ([], [], false)).2 entry hentry
        hlookup)
  rcases h with ⟨h, rfl⟩ | h
  · simp only [validateDeclaredWtxids] at h
    split at h
    · cases h
    · split at h
      · cases h
      · split at h
        · cases h
        · split at h
          · cases h
          · split at h
            · rename_i hempty
              obtain rfl := DeclareValidation.valid.inj h
              rwa [hempty] at hreported
            · cases h
  · simp only [validateDeclaredWtxids] at h
    split at h
    · cases h
    · split at h
      · cases h
      · split at h
        · cases h
        · split at h
          · cases h
          · split at h
            · cases h
            · obtain ⟨rfl, rfl⟩ := DeclareValidation.missing.inj h
              exact hreported

/-- The transactions that pass the check are those declared at the unknown positions. -/
theorem declared_of_checkProvided {expectedWtxids : List Bytes}
    (h : checkProvidedTransactions host expectedWtxids unknownTxPositionList transactionList
      = none) :
    ∃ transactions, transactionList.mapM (parseTransaction host) = some transactions ∧
      unknownTxPositionList.length = transactions.length ∧
      ∀ entry ∈ unknownTxPositionList.zip transactions,
        isDeclaredAt expectedWtxids entry.1 entry.2 = true := by
  simp only [checkProvidedTransactions] at h
  split at h
  · cases h
  · rename_i hlength
    split at h
    · rename_i hnone
      -- a transaction that does not decode is an error of its own
      have hsome : ∃ transactions,
          transactionList.mapM (parseTransaction host) = some transactions := by
        refine exists_mapM_iff.mpr fun raw hmem => ?_
        obtain ⟨tx, htx⟩ := fromBuffer_of_checkTransactionData h raw hmem
        exact ⟨_, by rw [parseTransaction, htx]; rfl⟩
      obtain ⟨transactions, hsome⟩ := hsome
      rw [hnone] at hsome
      cases hsome
    · rename_i transactions hsome
      split at h
      · rename_i hall
        refine ⟨transactions, hsome, ?_, List.all_eq_true.mp hall⟩
        rw [← (mapM_eq_some_iff.mp hsome).length_eq]
        exact not_not.mp hlength
      · cases h

/-- The provided transactions of an accepted declaration decode, and every declared hash is found
among them and those of the template. -/
theorem lookup_of_accepted {job : Sv2.Sv2DeclareMiningJob}
    (h : DeclarationAccepted host latestTemplate job template providedTransactions) :
    ∃ provided, providedTransactions.mapM (parseTransaction host) = some provided ∧
      ∀ wtxid ∈ job.wtxidList, (lookupTransaction
        (transactionMap (template.transactions host ++ provided)) wtxid).isSome = true := by
  cases h with
  | complete h =>
    refine ⟨[], rfl, fun wtxid hmem => ?_⟩
    obtain ⟨i, hi, rfl⟩ := List.mem_iff_getElem.mp hmem
    have hentry := known_or_reported (Or.inl ⟨h, rfl⟩) (job.wtxidList[i], i)
      (List.mk_mem_zipIdx_iff_getElem?.mpr (List.getElem?_eq_getElem hi))
    exact isSome_lookup_append (hentry.resolve_right List.not_mem_nil) []
  | @provided unknownTxPositionList _ h hchecked =>
    obtain ⟨provided, hprovided, hlength, hdeclared⟩ := declared_of_checkProvided hchecked
    refine ⟨provided, hprovided, fun wtxid hmem => ?_⟩
    obtain ⟨i, hi, rfl⟩ := List.mem_iff_getElem.mp hmem
    have hget : job.wtxidList[i]? = some job.wtxidList[i] := List.getElem?_eq_getElem hi
    rcases known_or_reported (Or.inr h) (job.wtxidList[i], i)
      (List.mk_mem_zipIdx_iff_getElem?.mpr hget) with hknown | hreported
    · exact isSome_lookup_append hknown provided
    · -- the transaction that was provided for the position
      obtain ⟨k, hk, hposition⟩ := List.mem_iff_getElem.mp hreported
      have hk' : k < provided.length := hlength ▸ hk
      have hzip : (unknownTxPositionList[k], provided[k]) ∈ unknownTxPositionList.zip provided := by
        rw [← List.getElem_zip (h := by rw [List.length_zip]; omega)]
        exact List.getElem_mem _
      have hmatch := hdeclared _ hzip
      rw [isDeclaredAt, hposition, hget] at hmatch
      replace hmatch := of_decide_eq_true hmatch
      rw [toLowerCase_toHex] at hmatch
      exact isSome_lookup_of_alias (mem_hashAliases_toHex.mpr (Or.inl rfl))
        (List.mem_append_right _ (List.getElem_mem hk')) hmatch

/-- Every transaction of the map hashes its own data. -/
theorem hashesOwnData_of_provided
    (htemplate : ∀ tx ∈ template.transactions host, HashesOwnData host tx)
    {provided : List TemplateProviderTransaction}
    (hprovided : providedTransactions.mapM (parseTransaction host) = some provided) :
    ∀ tx ∈ template.transactions host ++ provided, HashesOwnData host tx := by
  intro tx hmem
  rcases List.mem_append.mp hmem with hmem | hmem
  · exact htemplate tx hmem
  · obtain ⟨data, -, hdata⟩ := exists_of_mem_mapM hprovided hmem
    exact hashesOwnData_of_parse hdata

/-- Declared jobs can be assembled. When a declaration is accepted, the transactions of its block are
all found, they have the declared hashes in order, up to the order of the bytes of each, and every
solution whose coinbase decodes has a block with just these transactions behind its coinbase. -/
theorem declared_job_assembles (host : Externals)
    {latestTemplate : Option TemplateProviderTemplate} {job : Sv2.Sv2DeclareMiningJob}
    {template : TemplateProviderTemplate} {providedTransactions : List Bytes}
    (haccepted : DeclarationAccepted host latestTemplate job template providedTransactions)
    (htemplate : ∀ tx ∈ template.transactions host, HashesOwnData host tx) :
    ∃ map transactions,
      buildDeclaredTransactionMap host template providedTransactions = some map ∧
      declaredTransactions host map job.wtxidList = some transactions ∧
      List.Forall₂ (fun wtxid tx => SameHash (tx.witnessHash host) wtxid) job.wtxidList
        transactions ∧
      ∀ solution coinbase, host.fromBuffer
          (job.coinbaseTxPrefix ++ solution.extranonce ++ job.coinbaseTxSuffix) = some coinbase →
        ∃ block, buildBlockFromDeclaredJobSolution host template job providedTransactions solution
          = some block ∧ block.transactions = coinbase :: transactions := by
  obtain ⟨provided, hprovided, hfound⟩ := lookup_of_accepted haccepted
  have hown := hashesOwnData_of_provided htemplate hprovided
  have hmap : buildDeclaredTransactionMap host template providedTransactions
      = some (transactionMap (template.transactions host ++ provided)) := by
    rw [buildDeclaredTransactionMap, hprovided]
    rfl
  -- every declared hash is found, and what is found decodes
  have hdecodes : ∃ transactions, declaredTransactions host
      (transactionMap (template.transactions host ++ provided)) job.wtxidList
        = some transactions := by
    refine exists_mapM_iff.mpr fun wtxid hmem => ?_
    obtain ⟨data, hdata⟩ := Option.isSome_iff_exists.mp (hfound wtxid hmem)
    obtain ⟨decoded, hdecoded, -⟩ := hash_of_lookup hown hdata
    exact ⟨decoded, by rw [hdata]; exact hdecoded⟩
  obtain ⟨transactions, htransactions⟩ := hdecodes
  refine ⟨_, transactions, hmap, htransactions, ?_, ?_⟩
  · refine (mapM_eq_some_iff.mp htransactions).imp fun wtxid tx hlookup => ?_
    obtain ⟨data, hdata, htx⟩ := Option.bind_eq_some_iff.mp hlookup
    obtain ⟨decoded, hdecoded, hsame⟩ := hash_of_lookup hown hdata
    obtain rfl := Option.some.inj (hdecoded.symm.trans htx)
    exact hsame
  · intro solution coinbase hcoinbase
    rw [buildBlockFromDeclaredJobSolution, hmap, hcoinbase]
    simp only [Option.bind_eq_bind, Option.bind_some, htransactions, Option.pure_def]
    exact ⟨_, rfl, rfl⟩

end

namespace DeclaredSample

def host : Externals := Externals.reference (fun b => Digest.ofNat (leValue b)) []

/-- A transaction with one input, told apart by its version. -/
def transaction (version : ℤ) : Transaction where
  version := version
  ins := [{ hash := List.replicate 32 7, index := 0, script := [], sequence := 0, witness := [] }]
  outs := [{ value := 1000, script := [0x51] }]
  locktime := 0

def hashOf (version : ℤ) : Bytes := (host.hash256 (host.toBuffer (transaction version))).bytes

/-- A template with one transaction. -/
def template : TemplateProviderTemplate := .ofJobTemplate 1
  { block :=
      { version := 0x20000000
        prevHash := List.replicate 32 7
        bits := 0x17034219
        timestamp := 1700000000
        witnessCommit := []
        transactions := [] }
    merkleBranch := []
    blockData :=
      { id := "1"
        creation := 0
        coinbasevalue := 5000000000
        networkDifficulty := calculateNetworkDifficulty 0x17034219
        height := 800000
        clearJobs := true
        payoutSnapshotId := none
        payoutOutputs := none
        transactions := [{ data := host.toBuffer (transaction 1), txid := none, hash := none }]
        sigoplimit := none
        sizelimit := none
        weightlimit := none } }

/-- The coinbase of the job, with eight bytes for the extranonce behind the height. -/
def coinbase : Bytes :=
  host.toLegacyBuffer
    { version := 2
      ins := [{ hash := List.replicate 32 0, index := 0xffffffff
                script := [0x03, 0x00, 0x35, 0x0c] ++ List.replicate 8 0
                sequence := 0xffffffff, witness := [] }]
      outs := [{ value := 5000000000, script := [0x51] }]
      locktime := 0 }

/-- A job with the transaction of the template, its hash the other way round, and one more. -/
def job : Sv2.Sv2DeclareMiningJob where
  requestId := 1
  miningJobToken := [1]
  version := 0x20000000
  coinbaseTxPrefix := coinbase.take 46
  coinbaseTxSuffix := coinbase.drop 54
  wtxidList := [(hashOf 1).reverse, hashOf 2]

theorem missing : validateDeclaredWtxids host (some template) job.version.toNat job.wtxidList
    job.coinbaseTxPrefix = .missing template [1] := by
  have hversion : (job.version.toNat : ℤ) = template.version := by decide +kernel
  have hheight : validateDeclaredCoinbasePrefixHeight host job.coinbaseTxPrefix template.height
      = none := by decide +kernel
  have hchecked : (job.wtxidList.zipIdx.foldl (declaredWtxidStep
      (transactionMap (template.transactions host))) ([], [], false)).2 = ([1], false) := by
    decide +kernel
  unfold validateDeclaredWtxids
  simp [hversion, hheight, hchecked]

theorem accepted : DeclarationAccepted host (some template) job template
    [host.toBuffer (transaction 2)] :=
  .provided missing (by decide +kernel)

theorem hashesOwnData : ∀ tx ∈ template.transactions host, HashesOwnData host tx := by
  unfold HashesOwnData
  decide +kernel

end DeclaredSample

open DeclaredSample in
theorem declared_job_assembles_sample :
    ∃ map transactions,
      buildDeclaredTransactionMap host template [host.toBuffer (transaction 2)] = some map ∧
      declaredTransactions host map job.wtxidList = some transactions ∧
      List.Forall₂ (fun wtxid tx => SameHash (tx.witnessHash host) wtxid) job.wtxidList
        transactions ∧
      ∀ solution coinbase, host.fromBuffer
          (job.coinbaseTxPrefix ++ solution.extranonce ++ job.coinbaseTxSuffix) = some coinbase →
        ∃ block, buildBlockFromDeclaredJobSolution host template job
            [host.toBuffer (transaction 2)] solution
          = some block ∧ block.transactions = coinbase :: transactions :=
  declared_job_assembles host accepted hashesOwnData

end PublicPool.Proofs
