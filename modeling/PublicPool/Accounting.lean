import PublicPool.Types

/-!
# `PublicPool.Accounting`: what the pool records of a share and of a block

The records that every protocol hands to the share accounting (`AcceptedShareRecord` in
`ORM/share-accounting`) and to the block store (`BlocksService.save`), and the identity that a
user name of the form `address.worker` stands for.
-/

set_option autoImplicit false

namespace PublicPool

inductive ShareProtocol
  | sv1
  | sv1Tls
  | sv2
  | sv2Jdp
  | datum
  deriving DecidableEq, Repr

inductive WorkSource
  | poolTemplate
  | minerTemplate
  deriving DecidableEq, Repr

inductive WorkProtocol
  | pool
  | sv2Jdp
  | datum
  deriving DecidableEq, Repr

/-- `AcceptedShareRecord`. The id of the client row is left out. -/
structure AcceptedShareRecord where
  protocol : ShareProtocol
  payoutMode : PayoutMode
  workSource : WorkSource
  workProtocol : WorkProtocol
  address : String
  clientName : String
  sessionId : String
  jobId : String
  jobTemplateId : String
  blockHeight : ℤ
  creditedDifficulty : Option ℚ
  submissionDifficulty : Option ℚ
  networkDifficulty : Option ℚ
  nonce : String
  ntime : String
  version : String
  extraNonce2 : String
  isBlockCandidate : Bool
  blockSubmissionResult : Option String
  deriving DecidableEq

/-- What `BlocksService.save` is given. -/
structure BlockRecord where
  height : ℤ
  minerAddress : String
  worker : String
  sessionId : String
  blockData : Bytes
  blockSubmissionResult : Option String
  payoutSnapshotId : Option ℕ
  payoutMode : PayoutMode
  deriving DecidableEq

namespace Js

/-- `c.toLowerCase()` on the characters of an address. The Kelvin sign is the one character
outside ASCII that becomes an ASCII letter. -/
def lowerChar (c : Char) : Char :=
  if 'A' ≤ c ∧ c ≤ 'Z' then Char.ofNat (c.toNat + 32)
  else if c.toNat = 0x212A then 'k'
  else c

/-- `s.toLowerCase()`. -/
def toLowerCase (s : List Char) : List Char := s.map lowerChar

/-- The parts of `s.split(separator)`. -/
def split (separator : Char) : List Char → List (List Char)
  | [] => [[]]
  | c :: cs =>
    match split separator cs with
    | [] => [[]]
    | part :: parts => if c = separator then [] :: part :: parts else (c :: part) :: parts

/-- `n.toString(16)` of a counter. -/
def toString16 (n : ℕ) : String := String.ofList (Nat.toDigits 16 n)

/-- `parts.join(separator)`. -/
def join (separator : Char) : List (List Char) → List Char
  | [] => []
  | [part] => part
  | part :: parts => part ++ separator :: join separator parts

end Js

/-- A miner address and worker name. -/
structure UserIdentity where
  address : String
  workerName : String
  deriving DecidableEq

/-- `parseUserIdentity`: the address before the first dot, normalized, and the worker after
it. -/
def parseUserIdentity (normalizeAddress : List Char → List Char) (userIdentity : String) :
    UserIdentity :=
  let parts := Js.split '.' userIdentity.toList
  { address := String.ofList (normalizeAddress (parts.headD []))
    workerName :=
      if 1 < parts.length then String.ofList (Js.join '.' parts.tail) else "default" }

/-- `isValidAddress`: the address package recognizes the address. -/
def isValidAddress (host : Externals) (address : String) : Bool :=
  (host.getAddressInfo address).isSome

end PublicPool
