import PortForward.Address.Basic
import PortForward.Text.Cut
import PortForward.Text.Numeral

/-!
# Reading addresses

The inverse of the address texts, for a wider grammar: the scheme and `any` in either
case, zero-padded ports, every way of writing an IPv6 address, and `-1` for every vsock
context. An IPv4 octet has no leading zero, and `::` stands for at least one group.

This module does NOT word the refusal: a text is an address or it is not.
-/

namespace PortForward

open Numeral Text

namespace Ipv4

def octet? (cs : List Char) : Option UInt8 :=
  if 1 < cs.length ∧ cs.head? = some '0' then none
  else (readBelow? 10 256 cs).map UInt8.ofNat

def ofChars? (cs : List Char) : Option Ipv4 :=
  match pieces '.' cs with
  | [a, b, c, d] =>
    (octet? a).bind fun a => (octet? b).bind fun b => (octet? c).bind fun c =>
      (octet? d).map fun d => ⟨a, b, c, d⟩
  | _ => none

end Ipv4

namespace Ipv6

/-- One group: one to four hexadecimal digits. -/
def group? (cs : List Char) : Option UInt16 :=
  if cs.length ≤ 4 then (readBelow? 16 65536 cs).map UInt16.ofNat else none

def groupsOnly? : List (List Char) → Option (List UInt16)
  | [] => some []
  | p :: ps => (group? p).bind fun g => (groupsOnly? ps).map (g :: ·)

/-- Groups of which the last piece may be an IPv4 address that stands for two. -/
def groupsThenV4? : List (List Char) → Option (List UInt16)
  | [] => some []
  | [p] => ((group? p).map fun g => [g]).or ((Ipv4.ofChars? p).map Ipv4.segments)
  | p :: ps => (group? p).bind fun g => (groupsThenV4? ps).map (g :: ·)

/-- The pieces of one side of `::`, which may be empty. -/
def sidePieces (cs : List Char) : List (List Char) :=
  if cs = [] then [] else pieces ':' cs

def ofChars? (cs : List Char) : Option Ipv6 :=
  match cutDouble? ':' cs with
  | none => (groupsThenV4? (pieces ':' cs)).bind ofList?
  | some (front, back) =>
    (groupsOnly? (sidePieces front)).bind fun front =>
      (groupsThenV4? (sidePieces back)).bind fun back =>
        if front.length + back.length < 8 then
          ofList? (front ++ List.replicate (8 - front.length - back.length) 0 ++ back)
        else none

end Ipv6

namespace SocketAddress

def port? (cs : List Char) : Option UInt16 := (readBelow? 10 65536 cs).map UInt16.ofNat

def scope? (cs : List Char) : Option UInt32 := (readBelow? 10 4294967296 cs).map UInt32.ofNat

def v4OfChars? (cs : List Char) : Option SocketAddress :=
  (cut? ':' cs).bind fun (ip, port) =>
    (Ipv4.ofChars? ip).bind fun ip => (port? port).map (v4 ip)

/-- What stands between the brackets: an IPv6 address and perhaps a scope. -/
def hostOfChars? (cs : List Char) : Option (Ipv6 × UInt32) :=
  match cut? '%' cs with
  | none => (Ipv6.ofChars? cs).map (·, 0)
  | some (ip, scope) =>
    (Ipv6.ofChars? ip).bind fun ip => (scope? scope).map (ip, ·)

def v6OfChars? : List Char → Option SocketAddress
  | '[' :: cs =>
    (cut? ']' cs).bind fun (host, rest) =>
      match rest with
      | ':' :: port =>
        (hostOfChars? host).bind fun (ip, scope) => (port? port).map fun port => v6 ip port 0 scope
      | _ => none
  | _ => none

def ofChars? (cs : List Char) : Option SocketAddress := (v4OfChars? cs).or (v6OfChars? cs)

end SocketAddress

namespace VsockEndpoint

def cid? (cs : List Char) : Option Cid :=
  if lower cs = "any".toList ∨ cs = "-1".toList then some .any
  else (readSigned? 4294967296 cs).map fun n => .ofRaw (UInt32.ofNat n)

def port? (cs : List Char) : Option UInt32 := (readSigned? 4294967296 cs).map UInt32.ofNat

def ofChars? (cs : List Char) : Option VsockEndpoint :=
  (cut? ':' cs).bind fun (cid, port) =>
    (cid? cid).bind fun cid => (port? port).map (⟨cid, ·⟩)

end VsockEndpoint

namespace Address

def scheme? (cs : List Char) : Option Transport :=
  if lower cs = "tcp".toList then some .stream
  else if lower cs = "udp".toList then some .datagram
  else if lower cs = "vsock".toList then some .vsock
  else none

def ofChars? (cs : List Char) : Option Address :=
  (cut? ':' cs).bind fun (scheme, rest) =>
    (scheme? scheme).bind fun
      | .stream => (SocketAddress.ofChars? rest).map stream
      | .datagram => (SocketAddress.ofChars? rest).map datagram
      | .vsock => (VsockEndpoint.ofChars? rest).map vsock

def ofText? (text : String) : Option Address := ofChars? text.toList

end Address

end PortForward
