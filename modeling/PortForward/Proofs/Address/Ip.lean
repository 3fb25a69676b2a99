import PortForward.Address.Reader
import PortForward.Proofs.Address.Compression
import PortForward.Proofs.Text.Cut
import PortForward.Proofs.Text.Numeral

/-!
# IP addresses read back

Every IPv4 and every IPv6 address is read back from its text as itself, and the text holds no
character that could be taken for what follows it in a socket address.
-/

namespace PortForward

open Numeral Text

variable {c : Char} {cs : List Char} {segments : List UInt16} {ip : Ipv6} {v4 : Ipv4}

namespace Ipv4

theorem octet?_decimal (o : UInt8) : octet? (decimal o.toNat) = some o := by
  rw [octet?, if_neg fun h => head?_decimal h.1 h.2, readBelow?_decimal o.toNat_lt]
  simp

theorem ofChars?_chars (ip : Ipv4) : ofChars? ip.chars = some ip := by
  have hpieces : pieces '.' ip.chars = ip.octets.map fun o => decimal o.toNat := by
    refine pieces_intercalate ?_ (by simp [octets])
    intro p hp
    obtain ⟨o, -, rfl⟩ := List.mem_map.mp hp
    exact not_mem_decimal (by decide) _
  rw [ofChars?, hpieces]
  simp [octets, octet?_decimal]

theorem not_mem_chars (hdot : c ≠ '.') (hdigit : digit? 10 c = none) (ip : Ipv4) :
    c ∉ ip.chars := by
  refine not_mem_intercalate hdot fun p hp => ?_
  obtain ⟨o, -, rfl⟩ := List.mem_map.mp hp
  exact not_mem_decimal hdigit _

theorem dot_mem_chars (ip : Ipv4) : '.' ∈ ip.chars := by
  simp [chars, octets, List.intercalate_cons_cons]

/-- A bracket cannot begin an octet. -/
theorem ofChars?_bracket (cs : List Char) : ofChars? ('[' :: cs) = none := by
  have hoctet : ∀ p, octet? ('[' :: p) = none := by
    intro p
    rw [octet?, if_neg (by simp), readBelow?_eq_none_of_mem (by decide) List.mem_cons_self]
    rfl
  unfold ofChars?
  cases hps : pieces '.' cs with
  | nil =>
    rw [pieces_eq_splitOn] at hps
    exact absurd hps (List.splitOn_ne_nil '.' cs)
  | cons p ps =>
    have hpieces : pieces '.' ('[' :: cs) = ('[' :: p) :: ps := by
      simp [pieces, hps]
    rw [hpieces]
    split
    case h_1 a b c d heq =>
      cases heq
      rw [hoctet, Option.bind_none]
    case h_2 => rfl

end Ipv4

namespace Ipv6

theorem ofList?_segments (ip : Ipv6) : ofList? ip.segments = some ip := by
  rw [ofList?, dif_pos ip.length_eq]

theorem group?_hexadecimal (s : UInt16) : group? (hexadecimal s.toNat) = some s := by
  rw [group?, if_pos (length_hexadecimal_le s.toNat_lt), readBelow?_hexadecimal s.toNat_lt]
  simp

theorem groupsOnly?_map (segments : List UInt16) :
    groupsOnly? (segments.map fun s => hexadecimal s.toNat) = some segments := by
  induction segments with
  | nil => rfl
  | cons s segments ih =>
    rw [List.map_cons, groupsOnly?, group?_hexadecimal, ih]
    rfl

theorem groupsThenV4?_map (segments : List UInt16) :
    groupsThenV4? (segments.map fun s => hexadecimal s.toNat) = some segments := by
  induction segments with
  | nil => rfl
  | cons s segments ih =>
    cases segments with
    | nil => simp [groupsThenV4?, group?_hexadecimal]
    | cons s' segments =>
      rw [List.map_cons] at ih ⊢
      rw [List.map_cons, groupsThenV4?, group?_hexadecimal, ih]
      · rfl
      · simp

/-- Groups can be told apart, and no group is empty. -/
theorem forall_mem_groups (segments : List UInt16) :
    ∀ p ∈ segments.map fun s => hexadecimal s.toNat, p ≠ [] ∧ ':' ∉ p := by
  intro p hp
  obtain ⟨s, -, rfl⟩ := List.mem_map.mp hp
  exact ⟨hexadecimal_ne_nil _, not_mem_hexadecimal (by decide) _⟩

theorem pieces_groups (hne : segments ≠ []) :
    pieces ':' (groups segments) = segments.map fun s => hexadecimal s.toNat :=
  pieces_intercalate (fun p hp => (forall_mem_groups segments p hp).2) (by simpa using hne)

theorem sidePieces_intercalate {ps : List (List Char)} (hps : ∀ p ∈ ps, p ≠ [] ∧ ':' ∉ p) :
    sidePieces ([':'].intercalate ps) = ps := by
  cases ps with
  | nil => rfl
  | cons p ps =>
    obtain ⟨hp, -⟩ := List.forall_mem_cons.mp hps
    have hjoin : [':'].intercalate (p :: ps) ≠ [] := by
      cases ps <;> simp [List.intercalate_cons_cons, hp.1]
    rw [sidePieces, if_neg hjoin, pieces_intercalate (fun p hp => (hps p hp).2) (by simp)]

theorem sidePieces_groups (segments : List UInt16) :
    sidePieces (groups segments) = segments.map fun s => hexadecimal s.toNat :=
  sidePieces_intercalate (forall_mem_groups segments)

theorem groupsOnly?_sidePieces (segments : List UInt16) :
    groupsOnly? (sidePieces (groups segments)) = some segments := by
  rw [sidePieces_groups, groupsOnly?_map]

theorem groupsThenV4?_sidePieces (segments : List UInt16) :
    groupsThenV4? (sidePieces (groups segments)) = some segments := by
  rw [sidePieces_groups, groupsThenV4?_map]

theorem cutDouble?_groups (front : List UInt16) (back : List Char) :
    cutDouble? ':' (groups front ++ "::".toList ++ back) = some (groups front, back) := by
  rw [List.append_assoc]
  exact cutDouble?_intercalate_double (forall_mem_groups front)

theorem ofChars?_groups (ip : Ipv6) : ofChars? (groups ip.segments) = some ip := by
  have hne : ip.segments ≠ [] := List.ne_nil_of_length_pos (by rw [ip.length_eq]; decide)
  rw [ofChars?, groups, cutDouble?_intercalate (forall_mem_groups ip.segments)]
  dsimp only
  rw [← groups, pieces_groups hne, groupsThenV4?_map, Option.bind_some, ofList?_segments]

/-- The two sides of `::` are read apart, and zeros fill what they leave. -/
theorem ofChars?_of_sides {before after : List Char} {front back : List UInt16}
    (hcut : cutDouble? ':' cs = some (before, after))
    (hfront : groupsOnly? (sidePieces before) = some front)
    (hback : groupsThenV4? (sidePieces after) = some back)
    (hroom : front.length + back.length < 8)
    (hip : ip.segments = front ++ List.replicate (8 - front.length - back.length) 0 ++ back) :
    ofChars? cs = some ip := by
  rw [ofChars?, hcut]
  dsimp only
  rw [hfront, hback, Option.bind_some, Option.bind_some, if_pos hroom, ← hip, ofList?_segments]

theorem ofChars?_mapped (h : ip.segments = mappedFront ++ v4.segments) :
    ofChars? ("::ffff:".toList ++ v4.chars) = some ip := by
  have hback : groupsThenV4? (sidePieces ("ffff:".toList ++ v4.chars)) =
      some (0xffff :: v4.segments) := by
    have hjoin : "ffff:".toList ++ v4.chars = [':'].intercalate ["ffff".toList, v4.chars] := by
      simp [List.intercalate_cons_cons]
    have hcolon : ':' ∉ v4.chars := Ipv4.not_mem_chars (by decide) (by decide) v4
    -- the dot keeps the last piece from being a group
    have hgroup : group? v4.chars = none := by
      rw [group?, readBelow?_eq_none_of_mem (c := '.') (by decide) v4.dot_mem_chars]
      simp
    have hffff : group? "ffff".toList = some 0xffff := by decide
    rw [sidePieces, if_neg (by simp), hjoin, pieces_intercalate (by simp [hcolon]) (by simp)]
    rw [groupsThenV4?, groupsThenV4?, hffff, hgroup, Ipv4.ofChars?_chars]
    · rfl
    · simp
  exact ofChars?_of_sides rfl rfl hback (by simp [Ipv4.segments]) h

theorem ofChars?_compressed {start length : Nat} (hlong : 1 < length)
    (hrun : IsRun ip.segments start length) :
    ofChars? (groups (ip.segments.take start) ++ "::".toList ++
      groups (ip.segments.drop (start + length))) = some ip := by
  have hle := hrun.le_length (by omega)
  have hlength := ip.length_eq
  have hfront := List.length_take_of_le (l := ip.segments) (i := start) (by omega)
  have hback := List.length_drop (i := start + length) (l := ip.segments)
  have hzeros : 8 - (ip.segments.take start).length -
      (ip.segments.drop (start + length)).length = length := by omega
  refine ofChars?_of_sides (cutDouble?_groups _ _) (groupsOnly?_sidePieces _)
    (groupsThenV4?_sidePieces _) (by omega) ?_
  rw [hzeros]
  exact hrun.eq_append (by omega)

/-- Every text in the form of RFC 5952 is read as the address that it is a form of. -/
theorem ofChars?_of_written (h : ip.Written cs) : ofChars? cs = some ip := by
  cases h with
  | mapped h => exact ofChars?_mapped h
  | whole => exact ofChars?_groups ip
  | compressed _ hlong hrun => exact ofChars?_compressed hlong hrun.run

theorem ofChars?_chars (ip : Ipv6) : ofChars? ip.chars = some ip :=
  ofChars?_of_written ip.written_chars

theorem not_mem_groups (hcolon : c ≠ ':') (hdigit : digit? 16 c = none)
    (segments : List UInt16) : c ∉ groups segments := by
  refine not_mem_intercalate hcolon fun p hp => ?_
  obtain ⟨s, -, rfl⟩ := List.mem_map.mp hp
  exact not_mem_hexadecimal hdigit _

theorem not_mem_of_written (hcolon : c ≠ ':') (hdot : c ≠ '.') (hdigit : digit? 16 c = none)
    (h : ip.Written cs) : c ∉ cs := by
  have hf : c ≠ 'f' := by
    rintro rfl
    revert hdigit
    decide
  have hdecimal : digit? 10 c = none := by
    rw [digit?_eq_filter (by decide), hdigit, Option.filter_none]
  cases h with
  | @mapped v4 _ => simp [hcolon, hf, v4.not_mem_chars hdot hdecimal]
  | whole => exact not_mem_groups hcolon hdigit _
  | compressed => simp [hcolon, not_mem_groups hcolon hdigit]

theorem not_mem_chars (hcolon : c ≠ ':') (hdot : c ≠ '.') (hdigit : digit? 16 c = none)
    (ip : Ipv6) : c ∉ ip.chars :=
  not_mem_of_written hcolon hdot hdigit ip.written_chars

end Ipv6

end PortForward
