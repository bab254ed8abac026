import Mathlib
import PublicPool.Bitcoin
import PublicPool.Lib.Utf8

/-!
# `PublicPool.ProtocolDetection`: which protocol a new connection speaks

`StratumV1Service.detectProtocol` of `services/stratum-v1.service.ts`. One port serves both
protocols, and the first chunk that a client sends decides for good: a V1 client, a V2 client, or
none, and then the socket is closed.

Four guesses are made in this order: JSON-RPC, TLS, HTTP, plain text. What none of them takes is
the first message of a Noise handshake.
-/

set_option autoImplicit false

namespace PublicPool.StratumV1Service

open Lib

inductive Protocol
  | v1
  | v2
  deriving DecidableEq, Repr

/-- The white space that `looksLikeJsonRpc` skips. -/
def isSpace (byte : UInt8) : Bool :=
  byte = 0x20 || byte = 0x09 || byte = 0x0a || byte = 0x0d

/-- White space other than a blank, or printable ASCII. -/
def isPlain (byte : UInt8) : Bool :=
  (byte = 0x09 || byte = 0x0a || byte = 0x0d) || (0x20 ≤ byte && byte ≤ 0x7e)

/-- `text.includes(word)`. -/
def includes (text word : List Char) : Bool := decide (word <:+: text)

/-- `looksLikePlaintext`. -/
def looksLikePlaintext (firstChunk : Bytes) : Bool := firstChunk.all isPlain

/-- `looksLikeJsonRpc`. The words are looked for in the first 256 bytes from the brace on. -/
def looksLikeJsonRpc (firstChunk : Bytes) : Bool :=
  match firstChunk.findIdx? fun byte => !isSpace byte with
  | none => false
  | some firstNonWhitespace =>
    if firstChunk[firstNonWhitespace]? ≠ some 0x7b then false
    else
      let jsonPrefix := Utf8.decode ((firstChunk.drop firstNonWhitespace).take 256)
      if includes jsonPrefix "\"method\"".toList || includes jsonPrefix "\"id\"".toList then true
      else firstChunk.all isPlain

/-- `looksLikeTlsClientHello`. -/
def looksLikeTlsClientHello (firstChunk : Bytes) : Bool :=
  3 ≤ firstChunk.length && firstChunk[0]? = some 0x16 && firstChunk[1]? = some 0x03

/-- `toString('ascii').toUpperCase()`. The decoder drops the highest bit of a byte. -/
def asciiUpperCase (bytes : Bytes) : List Char :=
  bytes.map fun byte => (Char.ofNat (byte.toNat % 128)).toUpper

/-- The methods that `looksLikeHttpRequest` knows. -/
def httpMethods : List String := ["GET ", "POST ", "PUT ", "PATCH ", "HEAD ", "OPTIONS "]

/-- `looksLikeHttpRequest`. -/
def looksLikeHttpRequest (firstChunk : Bytes) : Bool :=
  let start := asciiUpperCase (firstChunk.take 8)
  httpMethods.any fun method => method.toList.isPrefixOf start

/-- `detectProtocol`. -/
def detectProtocol (firstChunk : Bytes) : Option Protocol :=
  if firstChunk.length = 0 then none
  else if looksLikeJsonRpc firstChunk then some .v1
  else if looksLikeTlsClientHello firstChunk then none
  else if looksLikeHttpRequest firstChunk then none
  else if looksLikePlaintext firstChunk then none
  else some .v2

end PublicPool.StratumV1Service
