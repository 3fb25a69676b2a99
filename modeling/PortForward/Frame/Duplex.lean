import PortForward.Frame.Basic

/-!
# A codec between two buffers

A decoder over an input buffer beside an encoder that appends to an output buffer. What was
written can be moved back to be read. A refused payload leaves the output as it was.
-/

namespace PortForward

structure Duplex where
  decoder : Decoder
  output : Bytes

namespace Duplex

def empty : Duplex := ⟨.empty, []⟩

def feed (x : Duplex) (bytes : Bytes) : Duplex := { x with decoder := x.decoder.feed bytes }

/-- Appends the frame of a payload to the output and shows it. -/
def encode (x : Duplex) (payload : Bytes) : Except FrameError Bytes × Duplex :=
  match Frame.encode payload with
  | .ok wire => (.ok wire, { x with output := x.output ++ wire })
  | .error e => (.error e, x)

def decode (x : Duplex) : Except FrameError (Option Bytes) × Duplex :=
  let (frame, decoder) := x.decoder.next
  (frame, { x with decoder })

def decodeAtEnd (x : Duplex) : Except FrameError (Option Bytes) × Duplex :=
  let (frame, decoder) := x.decoder.nextAtEnd
  (frame, { x with decoder })

def loopBack (x : Duplex) : Duplex := { decoder := x.decoder.feed x.output, output := [] }

end Duplex

end PortForward
