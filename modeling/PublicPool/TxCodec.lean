import PublicPool.Bitcoin

/-!
# `PublicPool.TxCodec`: the transaction format

An executable reading and writing of Bitcoin transactions, the way the transaction package
does it on well-formed data: `serialize` with or without witnesses, and `deserialize`, which
fails on missing and on left-over bytes. `Externals.reference` makes an environment of it, given
a hash and the addresses it knows. Results about the pool hold for every `Externals`; this one
is there to evaluate them.
-/

set_option autoImplicit false

namespace PublicPool.TxCodec

/-- Bytes after their length. -/
def putSlice (b : Bytes) : Bytes := putVarInt b.length ++ b

def putInput (input : TxInput) : Bytes :=
  fit 32 input.hash ++ putLE 4 input.index ++ putSlice input.script ++ putLE 4 input.sequence

def putOutput (output : TxOutput) : Bytes := putLE 8 output.value ++ putSlice output.script

def putWitness (input : TxInput) : Bytes :=
  putVarInt input.witness.length ++ input.witness.flatMap putSlice

/-- The bytes of a transaction; witnesses are written when they are asked for and some input
has one. -/
def serialize (withWitness : Bool) (tx : Transaction) : Bytes :=
  let hasWitness := withWitness && tx.ins.any fun input => input.witness ≠ []
  putLE 4 tx.version ++ (if hasWitness then [0x00, 0x01] else [])
    ++ putVarInt tx.ins.length ++ tx.ins.flatMap putInput
    ++ putVarInt tx.outs.length ++ tx.outs.flatMap putOutput
    ++ (if hasWitness then tx.ins.flatMap putWitness else []) ++ putLE 4 tx.locktime

/-- A reader takes a value off the front of the bytes. -/
abbrev Reader (α : Type) := StateT Bytes Option α

def getBytes (n : ℕ) : Reader Bytes := fun b =>
  if n ≤ b.length then some (b.take n, b.drop n) else none

def getLE (bytes : ℕ) : Reader ℕ := do return leValue (← getBytes bytes)

def getVarInt : Reader ℕ := do
  match ← getLE 1 with
  | 0xfd => getLE 2
  | 0xfe => getLE 4
  | 0xff => getLE 8
  | n => return n

def getSlice : Reader Bytes := do getBytes (← getVarInt)

/-- The same reader, a number of times. -/
def getMany {α : Type} (reader : Reader α) : ℕ → Reader (List α)
  | 0 => return []
  | n + 1 => do return (← reader) :: (← getMany reader n)

def getInput : Reader TxInput := do
  return {
    hash := ← getBytes 32, index := ← getLE 4, script := ← getSlice, sequence := ← getLE 4
    witness := [] }

def getOutput : Reader TxOutput := do
  return { value := ← getLE 8, script := ← getSlice }

/-- The inputs with their witnesses, one after the other. -/
def getWitnesses : List TxInput → Reader (List TxInput)
  | [] => return []
  | input :: inputs => do
    let witness ← getMany getSlice (← getVarInt)
    return { input with witness } :: (← getWitnesses inputs)

/-- The marker and flag of a transaction with witnesses. -/
def getSegwitMarker : Reader Bool := fun b =>
  match b with
  | 0x00 :: 0x01 :: rest => some (true, rest)
  | _ => some (false, b)

def getTransaction : Reader Transaction := do
  let version ← getLE 4
  let hasWitness ← getSegwitMarker
  let ins ← getMany getInput (← getVarInt)
  let outs ← getMany getOutput (← getVarInt)
  let ins ← if hasWitness then getWitnesses ins else pure ins
  let locktime ← getLE 4
  return { version := Js.toInt32 (some version), ins, outs, locktime }

/-- The transaction that the bytes are, if they are one and nothing else. -/
def deserialize (b : Bytes) : Option Transaction :=
  match getTransaction b with
  | some (tx, []) => some tx
  | _ => none

end PublicPool.TxCodec

namespace PublicPool

/-- The environment with the format above, a hash and a table of addresses and their output
scripts, all of one type. Addresses are compared by their first letters. -/
def Externals.reference (hash256 : Bytes → Digest) (scripts : List (String × Bytes)) :
    Externals where
  getAddressInfo address := if (scripts.lookup address).isSome then some .p2wpkh else none
  localeCompare a b := (a.toList.headD 'A').toNat - (b.toList.headD 'A').toNat
  hash256 := hash256
  fromBuffer := TxCodec.deserialize
  toBuffer := TxCodec.serialize true
  toLegacyBuffer := TxCodec.serialize false
  toOutputScript address _ := scripts.lookup address
  paymentOutput _ address _ := scripts.lookup address
  validateAddress address _ := (scripts.lookup address).isSome
  scriptNumberEncode n := putLE (if n < 2 ^ 7 then 1 else if n < 2 ^ 15 then 2 else
    if n < 2 ^ 23 then 3 else 4) n
  compileOpReturn data := opReturn :: UInt8.ofNat data.length :: data

end PublicPool
