import PublicPool.Lib.MessageLoops
import PublicPool.Lib.Utf8
import PublicPool.Sv2.Frame

/-!
# `PublicPool.SocketData`: the data handlers of the SV1 and the SV2 client

`StratumV1Client.handleSocketData` and `StratumV2Client.handleEncryptedData`: what a data event
completes, and the loop over it. Both wait for the handler of a message before they go on to the
next one, and both are called for every data event, whether an earlier call has ended or not.

The handlers stay outside: they are turns of a loop, in any order. The lines of an SV1 client are
split off after the data is decoded, piece by piece, as the source does. An SV2 client decrypts
while it reads, before the first handler of the piece is started.
-/

set_option autoImplicit false

namespace PublicPool

open Lib

/-- `buffer.split('\n')`, with the last part as the new buffer, and the lines that are not
empty. -/
def splitLines (buffer : List Char) : List Char × List (List Char) :=
  let lines := buffer.splitOn '\n'
  (lines.getLast?.getD [], lines.dropLast.filter (·.length > 0))

/-- What a data event adds to the buffer and completes. -/
def StratumV1Client.readLines (buffer : List Char) (data : Bytes) :
    List Char × List (List Char) :=
  splitLines (buffer ++ Utf8.decode data)

/-- `StratumV1Client.handleSocketData`. Its loop looks at the connection before each message. -/
def sv1Loops : LoopReader (List Char) Bytes (List Char) where
  read buffer data := some (StratumV1Client.readLines buffer data)
  stopsWhenClosed := true

/-- `StratumV2Client.handleEncryptedData`. -/
def sv2Loops (τ : Type) : LoopReader (Sv2.Sv2FrameReader τ) Bytes Sv2.ParsedFrame where
  read reader data := reader.feed data
  stopsWhenClosed := false

end PublicPool
