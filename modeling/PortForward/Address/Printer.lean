import PortForward.Address.Basic
import PortForward.Text.Numeral

/-!
# Address texts

How each address is written. IPv6 follows RFC 5952: lower-case groups without leading
zeros, the longest run of two or more zero groups written `::` (the first of several),
and the last two groups of a mapped IPv4 address in dotted form.
-/

namespace PortForward

open Numeral

def Transport.text : Transport → String
  | .stream => "tcp"
  | .datagram => "udp"
  | .vsock => "vsock"

def Ipv4.chars (ip : Ipv4) : List Char :=
  ['.'].intercalate (ip.octets.map fun o => decimal o.toNat)

namespace Ipv6

def groups (segments : List UInt16) : List Char :=
  [':'].intercalate (segments.map fun s => hexadecimal s.toNat)

/-- How many zero segments follow one another from position `i` on. -/
def zerosFrom (segments : List UInt16) (i : Nat) : Nat :=
  ((segments.drop i).takeWhile (· = 0)).length

/-- Where the longest run of zero segments starts and how long it is; of several the first. -/
def zeroRun (segments : List UInt16) : Nat × Nat :=
  (List.range segments.length).foldl
    (fun best i => if best.2 < zerosFrom segments i then (i, zerosFrom segments i) else best) (0, 0)

def mapped? (ip : Ipv6) : Option Ipv4 :=
  match ip.segments with
  | [0, 0, 0, 0, 0, 0xffff, hi, lo] =>
    some ⟨(hi / 256).toUInt8, hi.toUInt8, (lo / 256).toUInt8, lo.toUInt8⟩
  | _ => none

def chars (ip : Ipv6) : List Char :=
  match ip.mapped? with
  | some v4 => "::ffff:".toList ++ v4.chars
  | none =>
    let (start, length) := zeroRun ip.segments
    if 1 < length then
      groups (ip.segments.take start) ++ "::".toList ++ groups (ip.segments.drop (start + length))
    else groups ip.segments

end Ipv6

namespace SocketAddress

/-- The text of the IP address alone, without brackets and scope. -/
def ipChars : SocketAddress → List Char
  | v4 ip _ => ip.chars
  | v6 ip _ _ _ => ip.chars

/-- The host part: an IPv6 address in brackets, with its scope unless that is zero. -/
def hostChars : SocketAddress → List Char
  | v4 ip _ => ip.chars
  | v6 ip _ _ scope =>
    '[' :: ip.chars ++ (if scope = 0 then [] else '%' :: decimal scope.toNat) ++ [']']

def chars (a : SocketAddress) : List Char := a.hostChars ++ ':' :: decimal a.port.toNat

def text (a : SocketAddress) : String := String.ofList a.chars

end SocketAddress

def Cid.chars : Cid → List Char
  | any => "any".toList
  | id n => decimal n.toNat

def VsockEndpoint.chars (e : VsockEndpoint) : List Char :=
  e.cid.chars ++ ':' :: decimal e.port.toNat

def VsockEndpoint.text (e : VsockEndpoint) : String := String.ofList e.chars

namespace Address

def chars : Address → List Char
  | stream s => "tcp:".toList ++ s.chars
  | datagram s => "udp:".toList ++ s.chars
  | vsock e => "vsock:".toList ++ e.chars

def text (a : Address) : String := String.ofList a.chars

/-- The text of an address whose socket address may go by another name. -/
def textWith (name : SocketAddress → String) : Address → String
  | stream s => "tcp:" ++ name s
  | datagram s => "udp:" ++ name s
  | vsock e => "vsock:" ++ e.text

end Address

end PortForward
