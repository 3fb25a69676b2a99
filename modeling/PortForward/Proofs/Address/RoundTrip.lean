import PortForward.Failure
import PortForward.Proofs.Address.Ip

/-!
# Addresses read back

The text of an address is read as that address, but for the two things that a text cannot say:
the flow information of an IPv6 address, and that a vsock context stands for all by its number.
What is read lacks both already, so each address that has been read has one text, whatever
text it was read from.
-/

namespace PortForward

open Numeral Text

namespace SocketAddress

variable {a : SocketAddress} {cs : List Char}

theorem port?_decimal (port : UInt16) : port? (decimal port.toNat) = some port := by
  rw [port?, readBelow?_decimal port.toNat_lt]
  simp

theorem scope?_decimal (scope : UInt32) : scope? (decimal scope.toNat) = some scope := by
  rw [scope?, readBelow?_decimal scope.toNat_lt]
  simp

theorem v4OfChars?_chars (ip : Ipv4) (port : UInt16) :
    v4OfChars? (v4 ip port).chars = some (v4 ip port) := by
  have hcolon : ':' ∉ ip.chars := ip.not_mem_chars (by decide) (by decide)
  rw [v4OfChars?, chars, hostChars, cut?_append hcolon]
  simp [Ipv4.ofChars?_chars, SocketAddress.port, port?_decimal]

theorem v4OfChars?_bracket (cs : List Char) : v4OfChars? ('[' :: cs) = none := by
  rw [v4OfChars?, cut?, if_neg (by decide)]
  cases cut? ':' cs with
  | none => rfl
  | some x => simp [Ipv4.ofChars?_bracket]

/-- The scope is written only if it is not zero. -/
def scopeChars (scope : UInt32) : List Char :=
  if scope = 0 then [] else '%' :: decimal scope.toNat

theorem hostOfChars?_append (ip : Ipv6) (scope : UInt32) :
    hostOfChars? (ip.chars ++ scopeChars scope) = some (ip, scope) := by
  have hpercent : '%' ∉ ip.chars := ip.not_mem_chars (by decide) (by decide) (by decide)
  unfold scopeChars
  split
  case isTrue hzero =>
    rw [List.append_nil, hostOfChars?, cut?_eq_none_iff.mpr hpercent, hzero]
    simp [Ipv6.ofChars?_chars]
  case isFalse =>
    rw [hostOfChars?, cut?_append hpercent]
    simp [Ipv6.ofChars?_chars, scope?_decimal]

theorem bracket_not_mem_host (ip : Ipv6) (scope : UInt32) :
    ']' ∉ ip.chars ++ scopeChars scope := by
  have hip : ']' ∉ ip.chars := ip.not_mem_chars (by decide) (by decide) (by decide)
  have hscope : ']' ∉ decimal scope.toNat := not_mem_decimal (by decide) _
  unfold scopeChars
  split <;> simp [hip, hscope]

theorem chars_v6 (ip : Ipv6) (port : UInt16) (flow scope : UInt32) :
    (v6 ip port flow scope).chars =
      '[' :: (ip.chars ++ scopeChars scope) ++ ']' :: ':' :: decimal port.toNat := by
  simp [chars, hostChars, scopeChars, SocketAddress.port]

theorem v6OfChars?_chars (ip : Ipv6) (port : UInt16) (flow scope : UInt32) :
    v6OfChars? (v6 ip port flow scope).chars = some (v6 ip port 0 scope) := by
  rw [chars_v6, List.cons_append, v6OfChars?, cut?_append (bracket_not_mem_host ip scope)]
  simp [hostOfChars?_append, port?_decimal]

theorem ofChars?_chars (a : SocketAddress) : ofChars? a.chars = some a.normalize := by
  cases a with
  | v4 ip port =>
    rw [ofChars?, v4OfChars?_chars]
    rfl
  | v6 ip port flow scope =>
    rw [ofChars?, v6OfChars?_chars, chars_v6, List.cons_append, v4OfChars?_bracket]
    rfl

/-- What is read has no flow information. -/
theorem normalize_of_v6OfChars? (h : v6OfChars? cs = some a) : a.normalize = a := by
  unfold v6OfChars? at h
  split at h
  case h_1 cs =>
    obtain ⟨⟨host, rest⟩, -, h⟩ := Option.bind_eq_some_iff.mp h
    dsimp only at h
    split at h
    case h_1 port =>
      obtain ⟨⟨ip, scope⟩, -, h⟩ := Option.bind_eq_some_iff.mp h
      obtain ⟨port, -, rfl⟩ := Option.map_eq_some_iff.mp h
      rfl
    case h_2 => cases h
  case h_2 => cases h

theorem normalize_of_ofChars? (h : ofChars? cs = some a) : a.normalize = a := by
  rcases Option.or_eq_some_iff.mp h with h | ⟨-, h⟩
  · obtain ⟨⟨ip, port⟩, -, h⟩ := Option.bind_eq_some_iff.mp h
    obtain ⟨ip, -, h⟩ := Option.bind_eq_some_iff.mp h
    obtain ⟨port, -, rfl⟩ := Option.map_eq_some_iff.mp h
    rfl
  · exact normalize_of_v6OfChars? h

end SocketAddress

theorem Cid.raw_ofRaw (n : UInt32) : (Cid.ofRaw n).raw = n := by
  unfold Cid.ofRaw
  split
  case isTrue h => exact h.symm
  case isFalse => rfl

namespace VsockEndpoint

variable {e : VsockEndpoint} {cid : Cid} {cs : List Char}

theorem lower_decimal (n : Nat) : lower (decimal n) = decimal n := by
  refine (List.map_congr_left fun c hc => ?_).trans (List.map_id _)
  have hdigit := Nat.isDigit_of_mem_toDigits (by decide) (by decide) hc
  rw [Char.isDigit, Bool.and_eq_true, decide_eq_true_eq, decide_eq_true_eq] at hdigit
  refine dif_neg fun hupper => ?_
  exact absurd (UInt32.le_trans hupper.1 hdigit.2) (by decide)

theorem port?_decimal (port : UInt32) : port? (decimal port.toNat) = some port := by
  rw [port?, readSigned?_decimal port.toNat_lt]
  simp

theorem cid?_chars (cid : Cid) : cid? cid.chars = some cid.normalize := by
  cases cid with
  | any => rfl
  | id n =>
    have hletter : 'a' ∉ decimal n.toNat := not_mem_decimal (by decide) _
    have hsign : '-' ∉ decimal n.toNat := not_mem_decimal (by decide) _
    have hnumber : ¬ (lower (decimal n.toNat) = "any".toList ∨ decimal n.toNat = "-1".toList) := by
      rw [lower_decimal]
      rintro (h | h)
      · exact hletter (h ▸ List.mem_cons_self)
      · exact hsign (h ▸ List.mem_cons_self)
    rw [Cid.chars, cid?, if_neg hnumber, readSigned?_decimal n.toNat_lt]
    simp [Cid.normalize, Cid.raw]

theorem ofChars?_chars (e : VsockEndpoint) :
    ofChars? e.chars = some ⟨e.cid.normalize, e.port⟩ := by
  have hcolon : ':' ∉ e.cid.chars := by
    cases e.cid with
    | any => decide
    | id n => exact not_mem_decimal (by decide) _
  rw [ofChars?, chars, cut?_append hcolon]
  simp [cid?_chars, port?_decimal]

theorem normalize_of_cid? (h : cid? cs = some cid) : cid.normalize = cid := by
  unfold cid? at h
  split at h
  case isTrue =>
    cases h
    rfl
  case isFalse =>
    obtain ⟨n, -, rfl⟩ := Option.map_eq_some_iff.mp h
    rw [Cid.normalize, Cid.raw_ofRaw]

theorem normalize_of_ofChars? (h : ofChars? cs = some e) : e.cid.normalize = e.cid := by
  obtain ⟨⟨cid, port⟩, -, h⟩ := Option.bind_eq_some_iff.mp h
  obtain ⟨cid, hcid, h⟩ := Option.bind_eq_some_iff.mp h
  obtain ⟨port, -, rfl⟩ := Option.map_eq_some_iff.mp h
  exact normalize_of_cid? hcid

end VsockEndpoint

namespace Address

variable {a : Address} {cs : List Char} {s : String}

theorem ofChars?_chars (a : Address) : ofChars? a.chars = some a.normalize := by
  cases a with
  | stream s =>
    have hrest : ofChars? (stream s).chars = (SocketAddress.ofChars? s.chars).map stream := rfl
    rw [hrest, SocketAddress.ofChars?_chars]
    rfl
  | datagram s =>
    have hrest : ofChars? (datagram s).chars = (SocketAddress.ofChars? s.chars).map datagram := rfl
    rw [hrest, SocketAddress.ofChars?_chars]
    rfl
  | vsock e =>
    have hrest : ofChars? (vsock e).chars = (VsockEndpoint.ofChars? e.chars).map vsock := rfl
    rw [hrest, VsockEndpoint.ofChars?_chars]
    rfl

theorem normalize_of_ofChars? (h : ofChars? cs = some a) : a.normalize = a := by
  obtain ⟨⟨scheme, rest⟩, -, h⟩ := Option.bind_eq_some_iff.mp h
  obtain ⟨transport, -, h⟩ := Option.bind_eq_some_iff.mp h
  cases transport with
  | stream =>
    obtain ⟨s, hs, rfl⟩ := Option.map_eq_some_iff.mp h
    rw [normalize, SocketAddress.normalize_of_ofChars? hs]
  | datagram =>
    obtain ⟨s, hs, rfl⟩ := Option.map_eq_some_iff.mp h
    rw [normalize, SocketAddress.normalize_of_ofChars? hs]
  | vsock =>
    obtain ⟨e, he, rfl⟩ := Option.map_eq_some_iff.mp h
    rw [normalize, VsockEndpoint.normalize_of_ofChars? he]

theorem read_eq_ok_iff : read s = .ok a ↔ ofChars? s.toList = some a := by
  unfold read ofText?
  cases ofChars? s.toList with
  | none => simp
  | some b => simp

theorem read_text (a : Address) : read a.text = .ok a.normalize := by
  rw [read_eq_ok_iff, text, String.toList_ofList, ofChars?_chars]

theorem normalize_of_read (h : read s = .ok a) : a.normalize = a :=
  normalize_of_ofChars? (read_eq_ok_iff.mp h)

theorem text_injective {b : Address} (ha : a.normalize = a) (hb : b.normalize = b)
    (h : a.text = b.text) : a = b := by
  have hread := read_text a
  rw [h, read_text b, ha, hb] at hread
  exact (Except.ok.inj hread).symm

/-- Reading inverts writing up to the normal form; what is read is in normal form, and then it
and its text determine each other; and the texts of IPv6 addresses are those of RFC 5952. -/
theorem canonical_text :
    (∀ a : Address, read a.text = .ok a.normalize) ∧
    (∀ s a, read s = .ok a → a.normalize = a ∧ read a.text = .ok a) ∧
    (∀ s t a b, read s = .ok a → read t = .ok b → (a.text = b.text ↔ a = b)) ∧
    ∀ ip : Ipv6, ip.Written ip.chars := by
  refine ⟨read_text, ?_, ?_, Ipv6.written_chars⟩
  · intro s a h
    have hnormal := normalize_of_read h
    refine ⟨hnormal, ?_⟩
    rw [read_text, hnormal]
  · intro s t a b hs ht
    constructor
    · exact text_injective (normalize_of_read hs) (normalize_of_read ht)
    · rintro rfl
      rfl

/-- A mapped address is read from its segments and from its dotted form, and it is not the IPv4
address. -/
theorem canonical_text_mapped :
    let spelled := "TCP:[0:0::FFFF:c000:201%07]:0080"
    let a : Address := .stream (.v6 ⟨[0, 0, 0, 0, 0, 0xffff, 0xc000, 0x201], rfl⟩ 80 0 7)
    let b : Address := .stream (.v4 ⟨192, 0, 2, 1⟩ 80)
    a.text = "tcp:[::ffff:192.0.2.1%7]:80" ∧ b.text = "tcp:192.0.2.1:80" ∧
      read spelled = .ok a ∧ a.normalize = a ∧ read a.text = .ok a ∧
      read b.text = .ok b ∧ (a.text = b.text ↔ a = b) := by
  intro spelled a b
  obtain ⟨hall, hread, hcanonical, -⟩ := canonical_text
  have ha : read spelled = .ok a := read_eq_ok_iff.mpr (by decide +kernel)
  have hb : read b.text = .ok b := hall b
  exact ⟨rfl, rfl, ha, (hread _ _ ha).1, (hread _ _ ha).2, hb, hcanonical _ _ _ _ ha hb⟩

end Address

end PortForward
