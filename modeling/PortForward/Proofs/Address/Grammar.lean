import PortForward.Proofs.Address.IpGrammar
import PortForward.Proofs.Address.RoundTrip

/-!
# The grammar of address texts

A text is read as an address exactly if it is a scheme in either case, a colon and what the scheme
asks for: a socket address after `tcp` and `udp`, a context and a port after `vsock`. Numbers after
`vsock` may carry a plus sign, those of a socket address may not; leading zeros are accepted in
both, but for the octets of an IPv4 address. Every other text is refused as it was given.
-/

namespace PortForward

open Numeral Text

variable {cs : List Char}

namespace SocketAddress

/-- What may stand between brackets: an IPv6 address and perhaps a scope, which is zero if it is
not written. -/
inductive HostSpelled : List Char → Ipv6 → UInt32 → Prop
  | plain {host ip} : Ipv6.Spelled host ip → HostSpelled host ip 0
  | withScope {host zone ip} {scope : UInt32} : Ipv6.Spelled host ip → Digits 10 zone scope.toNat →
      HostSpelled (host ++ '%' :: zone) ip scope

/-- An IP address and a port. No text gives flow information. -/
inductive Spelled : List Char → SocketAddress → Prop
  | v4 {host digits ip} {port : UInt16} : Ipv4.Spelled host ip → Digits 10 digits port.toNat →
      Spelled (host ++ ':' :: digits) (.v4 ip port)
  | v6 {host digits ip scope} {port : UInt16} : HostSpelled host ip scope →
      Digits 10 digits port.toNat →
      Spelled ('[' :: host ++ ']' :: ':' :: digits) (.v6 ip port 0 scope)

variable {a : SocketAddress} {ip : Ipv6} {port : UInt16} {scope : UInt32}

theorem port?_eq_some_iff : port? cs = some port ↔ Digits 10 cs port.toNat :=
  map_eq_some_iff_of_inverse (fun _ => readBelow?_eq_some_iff (by decide))
    (fun _ => UInt16.toNat_ofNat_of_lt') fun p => ⟨p.toNat_lt, UInt16.ofNat_toNat⟩

theorem scope?_eq_some_iff : scope? cs = some scope ↔ Digits 10 cs scope.toNat :=
  map_eq_some_iff_of_inverse (fun _ => readBelow?_eq_some_iff (by decide))
    (fun _ => UInt32.toNat_ofNat_of_lt') fun s => ⟨s.toNat_lt, UInt32.ofNat_toNat⟩

theorem hostOfChars?_eq_some_iff :
    hostOfChars? cs = some (ip, scope) ↔ HostSpelled cs ip scope := by
  constructor
  · intro h
    unfold hostOfChars? at h
    split at h
    case h_1 =>
      obtain ⟨ip, hip, heq⟩ := Option.map_eq_some_iff.mp h
      cases heq
      exact .plain (Ipv6.ofChars?_eq_some_iff.mp hip)
    case h_2 host zone hcut =>
      obtain ⟨ip, hip, h⟩ := Option.bind_eq_some_iff.mp h
      obtain ⟨scope, hscope, heq⟩ := Option.map_eq_some_iff.mp h
      cases heq
      rw [(cut?_eq_some_iff.mp hcut).2]
      exact .withScope (Ipv6.ofChars?_eq_some_iff.mp hip) (scope?_eq_some_iff.mp hscope)
  · intro h
    have hpercent : ∀ {host ip}, Ipv6.Spelled host ip → '%' ∉ host := fun hip =>
      hip.not_mem (by decide) (by decide) (by decide)
    unfold hostOfChars?
    cases h with
    | plain hip =>
      rw [cut?_eq_none_iff.mpr (hpercent hip)]
      simp [Ipv6.ofChars?_eq_some_iff.mpr hip]
    | withScope hip hscope =>
      rw [cut?_append (hpercent hip)]
      simp [Ipv6.ofChars?_eq_some_iff.mpr hip, scope?_eq_some_iff.mpr hscope]

theorem HostSpelled.bracket_not_mem (h : HostSpelled cs ip scope) : ']' ∉ cs := by
  have hhost : ∀ {host ip}, Ipv6.Spelled host ip → ']' ∉ host := fun hip =>
    hip.not_mem (by decide) (by decide) (by decide)
  cases h with
  | plain hip => exact hhost hip
  | withScope hip hscope =>
    have hzone := hscope.not_mem (c := ']') (by decide) (by decide)
    simp [hhost hip, hzone]

theorem spelled_of_v6OfChars? (h : v6OfChars? cs = some a) : Spelled cs a := by
  unfold v6OfChars? at h
  split at h
  case h_1 cs =>
    obtain ⟨⟨host, rest⟩, hcut, h⟩ := Option.bind_eq_some_iff.mp h
    dsimp only at h
    split at h
    case h_1 digits =>
      obtain ⟨⟨ip, scope⟩, hhost, h⟩ := Option.bind_eq_some_iff.mp h
      obtain ⟨port, hport, rfl⟩ := Option.map_eq_some_iff.mp h
      rw [(cut?_eq_some_iff.mp hcut).2]
      exact .v6 (hostOfChars?_eq_some_iff.mp hhost) (port?_eq_some_iff.mp hport)
    case h_2 => cases h
  case h_2 => cases h

theorem ofChars?_eq_some_iff : ofChars? cs = some a ↔ Spelled cs a := by
  constructor
  · intro h
    rcases Option.or_eq_some_iff.mp h with h | ⟨-, h⟩
    · obtain ⟨⟨host, digits⟩, hcut, h⟩ := Option.bind_eq_some_iff.mp h
      obtain ⟨ip, hip, h⟩ := Option.bind_eq_some_iff.mp h
      obtain ⟨port, hport, rfl⟩ := Option.map_eq_some_iff.mp h
      rw [(cut?_eq_some_iff.mp hcut).2]
      exact .v4 (Ipv4.ofChars?_eq_some_iff.mp hip) (port?_eq_some_iff.mp hport)
    · exact spelled_of_v6OfChars? h
  · intro h
    cases h with
    | v4 hip hport =>
      rw [ofChars?, v4OfChars?, cut?_append (hip.not_mem (by decide) (by decide))]
      simp [Ipv4.ofChars?_eq_some_iff.mpr hip, port?_eq_some_iff.mpr hport]
    | v6 hhost hport =>
      rw [ofChars?, List.cons_append, v4OfChars?_bracket, Option.none_or, v6OfChars?,
        cut?_append hhost.bracket_not_mem]
      simp [hostOfChars?_eq_some_iff.mpr hhost, port?_eq_some_iff.mpr hport]

end SocketAddress

/-- A context is `any` in either case, `-1` or a number, of which the highest stands for all. -/
inductive Cid.Spelled : List Char → Cid → Prop
  | any {word} : InEitherCase "any".toList word → Spelled word .any
  | minusOne : Spelled "-1".toList .any
  | highest {digits} : Signed digits anyRaw.toNat → Spelled digits .any
  | id {digits} {n : UInt32} : Signed digits n.toNat → n ≠ anyRaw → Spelled digits (.id n)

namespace VsockEndpoint

/-- A context, a colon and a port. -/
inductive Spelled : List Char → VsockEndpoint → Prop
  | mk {context digits} {e : VsockEndpoint} : Cid.Spelled context e.cid →
      Signed digits e.port.toNat → Spelled (context ++ ':' :: digits) e

variable {e : VsockEndpoint} {cid : Cid} {port : UInt32}

theorem port?_eq_some_iff : port? cs = some port ↔ Signed cs port.toNat :=
  map_eq_some_iff_of_inverse (fun _ => readSigned?_eq_some_iff)
    (fun _ => UInt32.toNat_ofNat_of_lt') fun p => ⟨p.toNat_lt, UInt32.ofNat_toNat⟩

theorem cid?_of_signed {n : UInt32} (h : Signed cs n.toNat) : cid? cs = some (.ofRaw n) := by
  have hword : ¬ (lower cs = "any".toList ∨ cs = "-1".toList) := by
    rintro (hany | rfl)
    · rcases (lower_eq_iff (by decide)).mp hany with - | ⟨rfl | rfl, -⟩
      · exact h.not_mem (by decide) (by decide) List.mem_cons_self
      · exact h.not_mem (by decide) (by decide) List.mem_cons_self
    · exact h.not_mem (by decide) (by decide) (List.mem_cons_self (a := '-'))
  obtain ⟨m, hm, rfl⟩ := Option.map_eq_some_iff.mp (port?_eq_some_iff.mpr h)
  rw [cid?, if_neg hword, hm]
  rfl

theorem spelled_of_cid? (h : cid? cs = some cid) : Cid.Spelled cs cid := by
  unfold cid? at h
  split at h
  case isTrue hword =>
    cases h
    rcases hword with hany | rfl
    · exact .any ((lower_eq_iff (by decide)).mp hany)
    · exact .minusOne
  case isFalse =>
    obtain ⟨m, hm, rfl⟩ := Option.map_eq_some_iff.mp h
    have hsigned := port?_eq_some_iff.mp (Option.map_eq_some_iff.mpr ⟨m, hm, rfl⟩)
    unfold Cid.ofRaw
    split
    case isTrue heq => exact .highest (heq ▸ hsigned)
    case isFalse hne => exact .id hsigned hne

theorem cid?_eq_some_iff : cid? cs = some cid ↔ Cid.Spelled cs cid := by
  refine ⟨spelled_of_cid?, fun h => ?_⟩
  cases h with
  | any hword => exact if_pos (.inl ((lower_eq_iff (by decide)).mpr hword))
  | minusOne => rfl
  | highest hdigits => exact cid?_of_signed hdigits
  | id hdigits hne => rw [cid?_of_signed hdigits, Cid.ofRaw, if_neg hne]

theorem colon_not_mem (h : Cid.Spelled cs cid) : ':' ∉ cs := by
  cases h with
  | any hword => exact hword.not_mem (by decide)
  | minusOne => decide
  | highest hdigits => exact hdigits.not_mem (by decide) (by decide)
  | id hdigits => exact hdigits.not_mem (by decide) (by decide)

theorem ofChars?_eq_some_iff : ofChars? cs = some e ↔ Spelled cs e := by
  constructor
  · intro h
    obtain ⟨⟨context, digits⟩, hcut, h⟩ := Option.bind_eq_some_iff.mp h
    obtain ⟨cid, hcid, h⟩ := Option.bind_eq_some_iff.mp h
    obtain ⟨port, hport, rfl⟩ := Option.map_eq_some_iff.mp h
    rw [(cut?_eq_some_iff.mp hcut).2]
    exact .mk (cid?_eq_some_iff.mp hcid) (port?_eq_some_iff.mp hport)
  · rintro ⟨hcid, hport⟩
    rw [ofChars?, cut?_append (colon_not_mem hcid)]
    simp [cid?_eq_some_iff.mpr hcid, port?_eq_some_iff.mpr hport]

end VsockEndpoint

namespace Address

/-- The scheme before the first colon says what stands behind it. -/
inductive Spelled : List Char → Address → Prop
  | stream {scheme rest socket} : InEitherCase "tcp".toList scheme →
      SocketAddress.Spelled rest socket → Spelled (scheme ++ ':' :: rest) (.stream socket)
  | datagram {scheme rest socket} : InEitherCase "udp".toList scheme →
      SocketAddress.Spelled rest socket → Spelled (scheme ++ ':' :: rest) (.datagram socket)
  | vsock {scheme rest endpoint} : InEitherCase "vsock".toList scheme →
      VsockEndpoint.Spelled rest endpoint → Spelled (scheme ++ ':' :: rest) (.vsock endpoint)

variable {a : Address} {transport : Transport} {s : String}

theorem scheme?_eq_some_iff :
    scheme? cs = some transport ↔ InEitherCase transport.text.toList cs := by
  rw [← lower_eq_iff (by cases transport <;> decide)]
  constructor
  · intro h
    unfold scheme? at h
    split at h
    case isTrue htcp =>
      cases h
      exact htcp
    case isFalse =>
      split at h
      case isTrue hudp =>
        cases h
        exact hudp
      case isFalse =>
        obtain ⟨hvsock, heq⟩ := Option.ite_none_right_eq_some.mp h
        cases heq
        exact hvsock
  · intro h
    rw [scheme?, h]
    cases transport <;> rfl

theorem spelled_of_ofChars? (h : ofChars? cs = some a) : Spelled cs a := by
  obtain ⟨⟨scheme, rest⟩, hcut, h⟩ := Option.bind_eq_some_iff.mp h
  obtain ⟨transport, hscheme, h⟩ := Option.bind_eq_some_iff.mp h
  rw [(cut?_eq_some_iff.mp hcut).2]
  have hword := scheme?_eq_some_iff.mp hscheme
  cases transport with
  | stream =>
    obtain ⟨socket, hsocket, rfl⟩ := Option.map_eq_some_iff.mp h
    exact .stream hword (SocketAddress.ofChars?_eq_some_iff.mp hsocket)
  | datagram =>
    obtain ⟨socket, hsocket, rfl⟩ := Option.map_eq_some_iff.mp h
    exact .datagram hword (SocketAddress.ofChars?_eq_some_iff.mp hsocket)
  | vsock =>
    obtain ⟨endpoint, hendpoint, rfl⟩ := Option.map_eq_some_iff.mp h
    exact .vsock hword (VsockEndpoint.ofChars?_eq_some_iff.mp hendpoint)

theorem cut?_of_scheme {scheme : List Char} (transport : Transport)
    (h : InEitherCase transport.text.toList scheme) (rest : List Char) :
    cut? ':' (scheme ++ ':' :: rest) = some (scheme, rest) ∧ scheme? scheme = some transport := by
  have hcolon : ':' ∉ scheme := h.not_mem (by cases transport <;> decide)
  exact ⟨cut?_append hcolon, scheme?_eq_some_iff.mpr h⟩

theorem ofChars?_of_spelled (h : Spelled cs a) : ofChars? cs = some a := by
  cases h with
  | @stream _ rest _ hword hrest =>
    obtain ⟨hcut, hscheme⟩ := cut?_of_scheme .stream hword rest
    simp [ofChars?, hcut, hscheme, SocketAddress.ofChars?_eq_some_iff.mpr hrest]
  | @datagram _ rest _ hword hrest =>
    obtain ⟨hcut, hscheme⟩ := cut?_of_scheme .datagram hword rest
    simp [ofChars?, hcut, hscheme, SocketAddress.ofChars?_eq_some_iff.mpr hrest]
  | @vsock _ rest _ hword hrest =>
    obtain ⟨hcut, hscheme⟩ := cut?_of_scheme .vsock hword rest
    simp [ofChars?, hcut, hscheme, VsockEndpoint.ofChars?_eq_some_iff.mpr hrest]

theorem ofChars?_eq_some_iff : ofChars? cs = some a ↔ Spelled cs a :=
  ⟨spelled_of_ofChars?, ofChars?_of_spelled⟩

theorem read_eq_error_iff {failure : Failure} :
    read s = .error failure ↔ ofChars? s.toList = none ∧ failure = .invalidAddress s := by
  unfold read ofText?
  cases ofChars? s.toList with
  | none => simp [eq_comm]
  | some b => simp

/-- A text is read as the address that it spells. One that spells none is refused, and the refusal
carries the text as given. -/
theorem read_iff_spelled :
    (∀ s a, read s = .ok a ↔ Spelled s.toList a) ∧
    ∀ s failure, read s = .error failure ↔
      (∀ a, ¬ Spelled s.toList a) ∧ failure = .invalidAddress s := by
  constructor
  · intro s a
    rw [read_eq_ok_iff, ofChars?_eq_some_iff]
  · intro s failure
    rw [read_eq_error_iff, Option.eq_none_iff_forall_ne_some]
    simp only [ne_eq, ofChars?_eq_some_iff]

end Address

end PortForward
