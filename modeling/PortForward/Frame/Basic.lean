import PortForward.IoError.Basic

/-!
# Framed datagrams

A datagram on a byte stream: its length as two bytes, the low one first, then its payload
of at most `maxPayload` bytes. The decoder is incremental. It takes the two bytes of a
length off its buffer as soon as both are there, so an announced length may be pending
while the buffer is empty; and a stream that ends there ends between frames for it.
-/

namespace PortForward

abbrev Bytes := List UInt8

def maxPayload : Nat := 65507

/-- What can be wrong with a frame. -/
inductive FrameError
  | oversizedHeader
  | oversizedPayload
  | truncated
  deriving DecidableEq, Repr

def FrameError.toIoError : FrameError → IoError
  | oversizedHeader => .custom .invalidData "frame size too big"
  | oversizedPayload => .custom .invalidInput "frame size too big"
  | truncated => .custom .other "bytes remaining on stream"

namespace Frame

def header (n : Nat) : Bytes := [UInt8.ofNat n, UInt8.ofNat (n / 256)]

def announced (lo hi : UInt8) : Nat := lo.toNat + 256 * hi.toNat

def encode (payload : Bytes) : Except FrameError Bytes :=
  if payload.length ≤ maxPayload then .ok (header payload.length ++ payload)
  else .error .oversizedPayload

end Frame

/-- An incremental decoder: the length announced for the next frame, once it is known, and
the bytes not yet consumed. -/
structure Decoder where
  pending : Option Nat
  buffer : Bytes
  deriving DecidableEq, Repr

namespace Decoder

def empty : Decoder := ⟨none, []⟩

def feed (d : Decoder) (bytes : Bytes) : Decoder := { d with buffer := d.buffer ++ bytes }

/-- Takes a payload of the given length off the buffer, or waits for it. -/
def takePayload (n : Nat) (buffer : Bytes) : Option Bytes × Decoder :=
  if n ≤ buffer.length then (some (buffer.take n), ⟨none, buffer.drop n⟩)
  else (none, ⟨some n, buffer⟩)

/-- The next complete frame. An oversized length stays in the buffer, so its error repeats. -/
def next (d : Decoder) : Except FrameError (Option Bytes) × Decoder :=
  match d.pending, d.buffer with
  | some n, buffer => let (frame, d) := takePayload n buffer; (.ok frame, d)
  | none, lo :: hi :: rest =>
    if Frame.announced lo hi ≤ maxPayload then
      let (frame, d) := takePayload (Frame.announced lo hi) rest
      (.ok frame, d)
    else (.error .oversizedHeader, d)
  | none, _ => (.ok none, d)

/-- The next complete frame once no more bytes will come. Bytes left over are an error;
a pending length without any is not. What the attempt consumed stays consumed. -/
def nextAtEnd (d : Decoder) : Except FrameError (Option Bytes) × Decoder :=
  match d.next with
  | (.ok none, d) => (if d.buffer = [] then .ok none else .error .truncated, d)
  | answer => answer

end Decoder

end PortForward
