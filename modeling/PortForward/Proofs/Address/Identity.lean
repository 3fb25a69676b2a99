import Mathlib.Data.List.Dedup
import PortForward.Proofs.Address.RoundTrip

/-!
# One endpoint, one address

Addresses come about in two ways: a text is read, or the kernel names the peer of a vsock
connection. Either way an endpoint has one address and the address has one text, so that a set of
addresses counts endpoints. A context written down by its number alone need not be such an address:
the highest number stands for every context, under another name.
-/

namespace PortForward

/-- An address that was read from a text, or that the kernel gave for a peer. -/
inductive Address.Obtained : Address → Prop
  | read {s a} : Address.read s = .ok a → Obtained a
  | peer (k : KernelEndpoint) : Obtained (.vsock (.ofKernel k))

/-- The same IP address, port and scope; flow information makes no difference. -/
def SocketAddress.SameEndpoint : SocketAddress → SocketAddress → Prop
  | v4 ip port, v4 ip' port' => ip = ip' ∧ port = port'
  | v6 ip port _ scope, v6 ip' port' _ scope' => ip = ip' ∧ port = port' ∧ scope = scope'
  | _, _ => False

/-- The same transport and the same endpoint, which for vsock is what the kernel is given. -/
def Address.SameEndpoint : Address → Address → Prop
  | stream s, stream t => s.SameEndpoint t
  | datagram s, datagram t => s.SameEndpoint t
  | vsock e, vsock f => e.toKernel = f.toKernel
  | _, _ => False

theorem SocketAddress.normalize_eq_iff {s t : SocketAddress} :
    s.normalize = t.normalize ↔ s.SameEndpoint t := by
  cases s <;> cases t <;> simp [normalize, SameEndpoint]

namespace VsockEndpoint

theorem toKernel_ofKernel (k : KernelEndpoint) : (ofKernel k).toKernel = k := by
  simp [ofKernel, toKernel, Cid.raw_ofRaw]

theorem ofKernel_toKernel (e : VsockEndpoint) : ofKernel e.toKernel = ⟨e.cid.normalize, e.port⟩ :=
  rfl

end VsockEndpoint

theorem VsockEndpoint.ofKernel_inj {k l : KernelEndpoint} :
    VsockEndpoint.ofKernel k = .ofKernel l ↔ k = l :=
  (Function.LeftInverse.injective VsockEndpoint.toKernel_ofKernel).eq_iff

theorem Cid.normalize_ne_iff {cid : Cid} : cid.normalize ≠ cid ↔ cid = .id anyRaw := by
  cases cid with
  | any => exact iff_of_false (fun h => h rfl) nofun
  | id n =>
    by_cases hn : n = anyRaw
    · subst hn
      exact iff_of_true nofun rfl
    · rw [normalize, raw, ofRaw, if_neg hn]
      exact iff_of_false (fun h => h rfl) fun h => hn (Cid.id.inj h)

namespace Address

variable {a b : Address} {addresses : List Address}

theorem normalize_eq_iff : a.normalize = b.normalize ↔ a.SameEndpoint b := by
  cases a with
  | stream s => cases b <;> simp [normalize, SameEndpoint, SocketAddress.normalize_eq_iff]
  | datagram s => cases b <;> simp [normalize, SameEndpoint, SocketAddress.normalize_eq_iff]
  | vsock e =>
    cases b with
    | vsock f =>
      rw [normalize, normalize, ← VsockEndpoint.ofKernel_toKernel,
        ← VsockEndpoint.ofKernel_toKernel, vsock.injEq, VsockEndpoint.ofKernel_inj, SameEndpoint]
    | _ => simp [normalize, SameEndpoint]

theorem Obtained.normalize_eq (h : Obtained a) : a.normalize = a := by
  cases h with
  | read hread => exact normalize_of_read hread
  | peer k =>
    have hsame := VsockEndpoint.ofKernel_toKernel (.ofKernel k)
    rw [VsockEndpoint.toKernel_ofKernel] at hsame
    exact congrArg vsock hsame.symm

/-- The set holds what it held and what was added. -/
theorem mem_insertAll (set : List Address) (addresses : List Address) :
    a ∈ (insertAll set addresses).2 ↔ a ∈ set ∨ a ∈ addresses := by
  induction addresses generalizing set with
  | nil => simp [insertAll]
  | cons b rest ih =>
    rw [insertAll]
    dsimp only
    rw [ih, List.mem_cons, ← or_assoc]
    refine or_congr_left ?_
    split
    case isTrue => simp
    case isFalse hold =>
      rw [Classical.not_not] at hold
      refine (or_iff_left_of_imp ?_).symm
      rintro rfl
      exact hold

/-- And it holds each once. -/
theorem nodup_insertAll {set : List Address} (addresses : List Address) (hset : set.Nodup) :
    (insertAll set addresses).2.Nodup := by
  induction addresses generalizing set with
  | nil => exact hset
  | cons b rest ih =>
    rw [insertAll]
    refine ih ?_
    split
    case isTrue hnew =>
      exact hset.append (List.nodup_singleton b) (List.disjoint_singleton.mpr hnew)
    case isFalse => exact hset

/-- Addresses of which no two have one text are as many as their texts. -/
theorem length_insertAll (hinj : ∀ a ∈ addresses, ∀ b ∈ addresses, a.text = b.text → a = b) :
    (insertAll [] addresses).2.length = (addresses.map text).dedup.length := by
  have hmem : ∀ a, a ∈ (insertAll [] addresses).2 ↔ a ∈ addresses := fun a =>
    (mem_insertAll [] addresses).trans (or_iff_right List.not_mem_nil)
  have hnodup : ((insertAll [] addresses).2.map text).Nodup := by
    refine (nodup_insertAll addresses List.nodup_nil).map_on fun a ha b hb => ?_
    exact hinj a ((hmem a).mp ha) b ((hmem b).mp hb)
  have hperm : ((insertAll [] addresses).2.map text).Perm (addresses.map text).dedup := by
    refine (List.perm_ext_iff_of_nodup hnodup (List.nodup_dedup _)).mpr fun s => ?_
    simp [hmem]
  rw [← hperm.length_eq, List.length_map]

theorem Obtained.text_eq_iff (ha : Obtained a) (hb : Obtained b) : a.text = b.text ↔ a = b :=
  ⟨text_injective ha.normalize_eq hb.normalize_eq, congrArg text⟩

theorem Obtained.sameEndpoint_iff (ha : Obtained a) (hb : Obtained b) :
    a.SameEndpoint b ↔ a = b := by
  rw [← normalize_eq_iff, ha.normalize_eq, hb.normalize_eq]

theorem obtained_of_texts {texts : List String} (h : texts.map read = addresses.map .ok) :
    ∀ a ∈ addresses, Obtained a := by
  intro a ha
  have hread : Except.ok a ∈ texts.map read := h ▸ List.mem_map_of_mem ha
  obtain ⟨s, -, hs⟩ := List.mem_map.mp hread
  exact .read hs

theorem text_anyRaw_ne (port : UInt32) :
    text (.vsock ⟨.id Cid.anyRaw, port⟩) ≠ text (.vsock ⟨.any, port⟩) := by
  intro h
  have hchars := List.append_cancel_left (String.ofList_injective h)
  have hnumber : (VsockEndpoint.chars ⟨.id Cid.anyRaw, port⟩).head? = some '4' := rfl
  have hword : (VsockEndpoint.chars ⟨.any, port⟩).head? = some 'a' := rfl
  rw [hchars, hword] at hnumber
  exact absurd hnumber (by decide)

/-- Addresses are one if their texts are, and just as well if their endpoints are. So a set of
addresses that were read holds as many as there are texts to display. A vsock endpoint survives the
way to the kernel and back, unless it names every context by number; it then has a text of its own
and yet is the same endpoint to the kernel. -/
theorem one_address_of_endpoint :
    (∀ a b, Obtained a → Obtained b → (a = b ↔ a.text = b.text) ∧ (a = b ↔ a.SameEndpoint b)) ∧
    (∀ (texts : List String) (addresses : List Address), texts.map read = addresses.map .ok →
      (insertAll [] addresses).2.Nodup ∧ (∀ a, a ∈ (insertAll [] addresses).2 ↔ a ∈ addresses) ∧
      (insertAll [] addresses).2.length = (addresses.map text).dedup.length) ∧
    (∀ e, Obtained (.vsock e) → VsockEndpoint.ofKernel e.toKernel = e) ∧
    (∀ e, VsockEndpoint.ofKernel e.toKernel ≠ e ↔ e.cid = .id Cid.anyRaw) ∧
    ∀ port, text (.vsock ⟨.id Cid.anyRaw, port⟩) ≠ text (.vsock ⟨.any, port⟩) ∧
      VsockEndpoint.toKernel ⟨.id Cid.anyRaw, port⟩ = VsockEndpoint.toKernel ⟨.any, port⟩ := by
  refine ⟨fun a b ha hb => ⟨(ha.text_eq_iff hb).symm, (ha.sameEndpoint_iff hb).symm⟩, ?_, ?_, ?_,
    fun port => ⟨text_anyRaw_ne port, rfl⟩⟩
  · intro texts addresses htexts
    have hobtained := obtained_of_texts htexts
    refine ⟨nodup_insertAll addresses List.nodup_nil, fun a => ?_, length_insertAll ?_⟩
    · rw [mem_insertAll, or_iff_right List.not_mem_nil]
    · exact fun a ha b hb => ((hobtained a ha).text_eq_iff (hobtained b hb)).mp
  · intro e he
    exact vsock.inj he.normalize_eq
  · intro e
    obtain ⟨cid, port⟩ := e
    rw [VsockEndpoint.ofKernel_toKernel, ← Cid.normalize_ne_iff, Ne, Ne, VsockEndpoint.mk.injEq,
      and_iff_left rfl]

/-- Three spellings of every context and the peer that the kernel names so are one address; a mapped
address is not the IPv4 address. -/
theorem one_address_of_wildcard :
    let wildcard : Address := .vsock ⟨.any, 7⟩
    let peer : Address := .vsock (.ofKernel ⟨4294967295, 7⟩)
    let mapped : Address := .stream (.v6 ⟨[0, 0, 0, 0, 0, 0xffff, 0xc000, 0x201], rfl⟩ 80 0 0)
    let plain : Address := .stream (.v4 ⟨192, 0, 2, 1⟩ 80)
    let texts := ["VSOCK:-1:7", "vsock:+4294967295:07", "vsock:any:7",
      "tcp:[0::FFFF:c000:201%0]:80", "tcp:192.0.2.1:0080"]
    let addresses := [wildcard, wildcard, wildcard, mapped, plain]
    texts.map read = addresses.map .ok ∧
      (wildcard = peer ↔ wildcard.text = peer.text) ∧
      (wildcard = peer ↔ wildcard.SameEndpoint peer) ∧
      (mapped = plain ↔ mapped.SameEndpoint plain) ∧ ¬ mapped.SameEndpoint plain ∧
      (insertAll [] addresses).2.length = (addresses.map text).dedup.length ∧
      (insertAll [] addresses).2.length = 3 ∧
      VsockEndpoint.ofKernel (VsockEndpoint.toKernel ⟨.any, 7⟩) = ⟨.any, 7⟩ := by
  intro wildcard peer mapped plain texts addresses
  obtain ⟨hone, hset, hback, -⟩ := one_address_of_endpoint
  have hread : texts.map read = addresses.map .ok := by decide +kernel
  have hwildcard : Obtained wildcard := obtained_of_texts hread wildcard (by simp [addresses])
  have hmapped : Obtained mapped := obtained_of_texts hread mapped (by simp [addresses])
  have hplain : Obtained plain := obtained_of_texts hread plain (by simp [addresses])
  obtain ⟨htexts, hendpoints⟩ := hone wildcard peer hwildcard (.peer _)
  exact ⟨hread, htexts, hendpoints, (hone mapped plain hmapped hplain).2, id,
    (hset texts addresses hread).2.2, by decide +kernel, hback _ hwildcard⟩

end Address

end PortForward
