import PortForward.Proofs.Address.Ip
import PortForward.Proofs.Text.Grammar

/-!
# The grammar of IP addresses

The texts that stand for an IPv4 address are four decimal octets, of which none is written with a
leading zero. Those that stand for an IPv6 address are eight groups, or fewer groups around one
`::` that stands for at least one; the last two groups may be written as an IPv4 address.
-/

namespace PortForward

open Numeral Text

variable {c : Char} {cs : List Char} {ps : List (List Char)} {segments : List UInt16}

namespace Ipv4

/-- A decimal octet. Only the octet that is a single zero begins with one. -/
def IsOctet (cs : List Char) (o : UInt8) : Prop :=
  Digits 10 cs o.toNat ∧ ¬ (1 < cs.length ∧ cs.head? = some '0')

/-- Four octets with dots between them. -/
def Spelled (cs : List Char) (ip : Ipv4) : Prop :=
  ∃ parts, List.Forall₂ IsOctet parts ip.octets ∧ cs = ['.'].intercalate parts

variable {o : UInt8} {ip : Ipv4}

theorem octet?_eq_some_iff : octet? cs = some o ↔ IsOctet cs o := by
  unfold octet? IsOctet
  split
  case isTrue hzero => simp [hzero]
  case isFalse hzero =>
    rw [and_iff_left hzero]
    exact map_eq_some_iff_of_inverse (fun _ => readBelow?_eq_some_iff (by decide))
      (fun _ => UInt8.toNat_ofNat_of_lt') fun o => ⟨o.toNat_lt, UInt8.ofNat_toNat⟩

theorem IsOctet.not_mem (hc : digit? 10 c = none) (h : IsOctet cs o) : c ∉ cs :=
  h.1.not_mem (by decide) hc

theorem not_mem_parts {octets : List UInt8} (hc : digit? 10 c = none)
    (h : List.Forall₂ IsOctet ps octets) : ∀ p ∈ ps, c ∉ p :=
  ((List.forall₂_and_left _ _).mp (h.imp fun _ _ ho => ⟨ho.not_mem hc, ho⟩)).1

theorem ofChars?_eq_some_iff : ofChars? cs = some ip ↔ Spelled cs ip := by
  constructor
  · intro h
    unfold ofChars? at h
    split at h
    case h_1 a b c d hpieces =>
      obtain ⟨a', ha, h⟩ := Option.bind_eq_some_iff.mp h
      obtain ⟨b', hb, h⟩ := Option.bind_eq_some_iff.mp h
      obtain ⟨c', hc, h⟩ := Option.bind_eq_some_iff.mp h
      obtain ⟨d', hd, rfl⟩ := Option.map_eq_some_iff.mp h
      rw [octet?_eq_some_iff] at ha hb hc hd
      refine ⟨[a, b, c, d], .cons ha (.cons hb (.cons hc (.cons hd .nil))), ?_⟩
      rw [← hpieces, intercalate_pieces]
    case h_2 => cases h
  · rintro ⟨parts, hparts, rfl⟩
    have hdots := not_mem_parts (c := '.') (by decide) hparts
    obtain ⟨a, b, c, d⟩ := ip
    obtain - | ⟨ha, - | ⟨hb, - | ⟨hc, - | ⟨hd, ⟨⟩⟩⟩⟩⟩ := hparts
    rw [ofChars?, pieces_intercalate hdots (by simp)]
    rw [← octet?_eq_some_iff] at ha hb hc hd
    simp [ha, hb, hc, hd]

theorem Spelled.not_mem (hdot : c ≠ '.') (hc : digit? 10 c = none) (h : Spelled cs ip) :
    c ∉ cs := by
  obtain ⟨parts, hparts, rfl⟩ := h
  exact not_mem_intercalate hdot (not_mem_parts hc hparts)

theorem Spelled.dot_mem (h : Spelled cs ip) : '.' ∈ cs := by
  obtain ⟨parts, hparts, rfl⟩ := h
  obtain - | ⟨-, - | ⟨-, -⟩⟩ := hparts
  simp [List.intercalate_cons_cons]

end Ipv4

namespace Ipv6

/-- One to four hexadecimal digits. -/
def IsGroup (cs : List Char) (g : UInt16) : Prop :=
  Digits 16 cs g.toNat ∧ cs.length ≤ 4

/-- The segments that parts stand for: one for each group, and two for an IPv4 address, which can
only be the last part. -/
inductive Parts : List (List Char) → List UInt16 → Prop
  | nil : Parts [] []
  | dotted {cs ip} : Ipv4.Spelled cs ip → Parts [cs] ip.segments
  | cons {cs g ps segments} : IsGroup cs g → Parts ps segments → Parts (cs :: ps) (g :: segments)

/-- Every segment has its part, or one `::` stands for the zeros that have none. -/
inductive Spelled : List Char → Ipv6 → Prop
  | whole {ps ip} : Parts ps ip.segments → Spelled ([':'].intercalate ps) ip
  | compressed {before after front back n ip} : List.Forall₂ IsGroup before front →
      Parts after back → 0 < n → ip.segments = front ++ List.replicate n 0 ++ back →
      Spelled ([':'].intercalate before ++ "::".toList ++ [':'].intercalate after) ip

variable {g : UInt16} {v4 : Ipv4} {ip : Ipv6}

theorem group?_eq_some_iff : group? cs = some g ↔ IsGroup cs g := by
  unfold group? IsGroup
  split
  case isTrue hlength =>
    rw [and_iff_left hlength]
    exact map_eq_some_iff_of_inverse (fun _ => readBelow?_eq_some_iff (by decide))
      (fun _ => UInt16.toNat_ofNat_of_lt') fun g => ⟨g.toNat_lt, UInt16.ofNat_toNat⟩
  case isFalse hlength => simp [hlength]

theorem groupsOnly?_eq_some_iff :
    groupsOnly? ps = some segments ↔ List.Forall₂ IsGroup ps segments := by
  induction ps generalizing segments with
  | nil => simp [groupsOnly?, eq_comm]
  | cons p ps ih =>
    rw [groupsOnly?, List.forall₂_cons_left_iff, Option.bind_eq_some_iff]
    simp only [group?_eq_some_iff, Option.map_eq_some_iff, ih]
    constructor
    · rintro ⟨g, hg, gs, hgs, rfl⟩
      exact ⟨g, gs, hg, hgs, rfl⟩
    · rintro ⟨g, gs, hg, hgs, rfl⟩
      exact ⟨g, hg, gs, hgs, rfl⟩

/-- The dot keeps an IPv4 address from being a group. -/
theorem not_isGroup_of_spelled (h : Ipv4.Spelled cs v4) : ¬ IsGroup cs g := fun hg =>
  hg.1.not_mem (by decide) (by decide) h.dot_mem

theorem groupsThenV4?_eq_some_iff : groupsThenV4? ps = some segments ↔ Parts ps segments := by
  induction ps using groupsThenV4?.induct generalizing segments with
  | case1 =>
    rw [groupsThenV4?, Option.some_inj]
    constructor
    · rintro rfl
      exact .nil
    · rintro ⟨⟩
      rfl
  | case2 p =>
    rw [groupsThenV4?, Option.or_eq_some_iff]
    simp only [Option.map_eq_some_iff, Option.map_eq_none_iff, group?_eq_some_iff,
      Ipv4.ofChars?_eq_some_iff]
    constructor
    · rintro (⟨g, hg, rfl⟩ | ⟨-, v4, hv4, rfl⟩)
      · exact .cons hg .nil
      · exact .dotted hv4
    · intro h
      cases h with
      | dotted hv4 =>
        refine .inr ⟨Option.eq_none_iff_forall_ne_some.mpr fun g hg => ?_, _, hv4, rfl⟩
        exact not_isGroup_of_spelled hv4 (group?_eq_some_iff.mp hg)
      | cons hg hnil =>
        cases hnil
        exact .inl ⟨_, hg, rfl⟩
  | case3 p ps hne ih =>
    rw [groupsThenV4?, Option.bind_eq_some_iff]
    · simp only [group?_eq_some_iff, Option.map_eq_some_iff, ih]
      constructor
      · rintro ⟨g, hg, gs, hgs, rfl⟩
        exact .cons hg hgs
      · intro h
        cases h with
        | dotted => exact absurd rfl hne
        | cons hg hgs => exact ⟨_, hg, _, hgs, rfl⟩
    · exact hne

theorem Parts.of_groups (h : List.Forall₂ IsGroup ps segments) : Parts ps segments := by
  induction h with
  | nil => exact .nil
  | cons hg _ ih => exact .cons hg ih

/-- Parts can be told apart, and no part is empty. -/
theorem Parts.forall_mem (h : Parts ps segments) : ∀ p ∈ ps, p ≠ [] ∧ ':' ∉ p := by
  induction h with
  | nil => exact List.forall_mem_nil _
  | dotted hv4 =>
    refine List.forall_mem_singleton.mpr ⟨List.ne_nil_of_mem hv4.dot_mem, ?_⟩
    exact hv4.not_mem (by decide) (by decide)
  | cons hg _ ih =>
    exact List.forall_mem_cons.mpr ⟨⟨hg.1.ne_nil, hg.1.not_mem (by decide) (by decide)⟩, ih⟩

theorem ofList?_eq_some_iff : ofList? segments = some ip ↔ ip.segments = segments := by
  constructor
  · intro h
    obtain ⟨hlength, hip⟩ := Option.dite_none_right_eq_some.mp h
    rw [← Option.some.inj hip]
  · rintro rfl
    exact ofList?_segments ip

theorem intercalate_sidePieces (cs : List Char) : [':'].intercalate (sidePieces cs) = cs := by
  unfold sidePieces
  split
  case isTrue hnil => rw [hnil, List.intercalate_nil]
  case isFalse => exact intercalate_pieces ':' cs

theorem spelled_of_ofChars? (h : ofChars? cs = some ip) : Spelled cs ip := by
  unfold ofChars? at h
  split at h
  case h_1 =>
    obtain ⟨gs, hgs, hip⟩ := Option.bind_eq_some_iff.mp h
    obtain rfl := ofList?_eq_some_iff.mp hip
    rw [← intercalate_pieces ':' cs]
    exact .whole (groupsThenV4?_eq_some_iff.mp hgs)
  case h_2 before after hcut =>
    obtain ⟨front, hfront, h⟩ := Option.bind_eq_some_iff.mp h
    obtain ⟨back, hback, h⟩ := Option.bind_eq_some_iff.mp h
    obtain ⟨hroom, hip⟩ := Option.ite_none_right_eq_some.mp h
    have hjoin : cs = [':'].intercalate (sidePieces before) ++ "::".toList ++
        [':'].intercalate (sidePieces after) := by
      rw [intercalate_sidePieces, intercalate_sidePieces, eq_append_of_cutDouble? hcut]
      simp
    rw [hjoin]
    exact .compressed (groupsOnly?_eq_some_iff.mp hfront) (groupsThenV4?_eq_some_iff.mp hback)
      (by omega) (ofList?_eq_some_iff.mp hip)

theorem ofChars?_of_spelled (h : Spelled cs ip) : ofChars? cs = some ip := by
  cases h with
  | @whole ps _ hparts =>
    have hne : ps ≠ [] := by
      rintro rfl
      have hlength := ip.length_eq
      generalize ip.segments = segments at hparts hlength
      cases hparts
      cases hlength
    rw [ofChars?, cutDouble?_intercalate hparts.forall_mem]
    dsimp only
    rw [pieces_intercalate (fun p hp => (hparts.forall_mem p hp).2) hne,
      groupsThenV4?_eq_some_iff.mpr hparts, Option.bind_some, ofList?_segments]
  | @compressed before after front back n _ hfront hback hpos hip =>
    have hbefore := (Parts.of_groups hfront).forall_mem
    have hafter := hback.forall_mem
    have hcut : cutDouble? ':'
        ([':'].intercalate before ++ "::".toList ++ [':'].intercalate after) =
          some ([':'].intercalate before, [':'].intercalate after) := by
      rw [List.append_assoc]
      exact cutDouble?_intercalate_double hbefore
    have hlength := congrArg List.length hip
    rw [ip.length_eq, List.length_append, List.length_append, List.length_replicate] at hlength
    have hzeros : 8 - front.length - back.length = n := by omega
    rw [← groupsOnly?_eq_some_iff, ← sidePieces_intercalate hbefore] at hfront
    rw [← groupsThenV4?_eq_some_iff, ← sidePieces_intercalate hafter] at hback
    exact ofChars?_of_sides hcut hfront hback (by omega) (by rw [hzeros, hip])

theorem ofChars?_eq_some_iff : ofChars? cs = some ip ↔ Spelled cs ip :=
  ⟨spelled_of_ofChars?, ofChars?_of_spelled⟩

theorem Parts.not_mem (hdot : c ≠ '.') (hc : digit? 16 c = none) (h : Parts ps segments) :
    ∀ p ∈ ps, c ∉ p := by
  have hdecimal : digit? 10 c = none := by
    rw [digit?_eq_filter (by decide), hc, Option.filter_none]
  induction h with
  | nil => exact List.forall_mem_nil _
  | dotted hv4 => exact List.forall_mem_singleton.mpr (hv4.not_mem hdot hdecimal)
  | cons hg _ ih => exact List.forall_mem_cons.mpr ⟨hg.1.not_mem (by decide) hc, ih⟩

theorem Spelled.not_mem (hcolon : c ≠ ':') (hdot : c ≠ '.') (hc : digit? 16 c = none)
    (h : Spelled cs ip) : c ∉ cs := by
  cases h with
  | whole hparts => exact not_mem_intercalate hcolon (hparts.not_mem hdot hc)
  | compressed hfront hback =>
    have hbefore := not_mem_intercalate hcolon ((Parts.of_groups hfront).not_mem hdot hc)
    have hafter := not_mem_intercalate hcolon (hback.not_mem hdot hc)
    simp [hbefore, hafter, hcolon]

end Ipv6

end PortForward
