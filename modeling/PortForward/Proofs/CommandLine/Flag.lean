import PortForward.CommandLine.Program

/-!
# The best-effort flag on a command line

The flag takes no value and may be given once. Wherever a command line without it is accepted,
the same line behind the flag is accepted and says the same otherwise: every step of the reader
does the same to a reading that has the flag already, except to take the flag again.
-/

namespace PortForward.CommandLine

open Text

def Arguments.withBestEffort (a : Arguments) (flag : Bool) : Arguments :=
  { a with bestEffort := flag }

namespace Reading

variable {r r' : Reading} {o : Opt} {op : Reading → Except Halt Reading}

/-- A reading that has the flag as well. -/
def flagged (r : Reading) : Reading := { r with bestEffort := true }

/-- The step does to a reading that has the flag what it does without. -/
def Commutes (op : Reading → Except Halt Reading) : Prop :=
  ∀ r : Reading, op r.flagged = (op r).map flagged

/-- The step does so unless it takes the flag itself. -/
def Spares (op : Reading → Except Halt Reading) : Prop :=
  ∀ r r', op r = .ok r' → r'.bestEffort = false →
    r.bestEffort = false ∧ op r.flagged = .ok r'.flagged

theorem flagged_eq_self (h : r.bestEffort = true) : r.flagged = r := by
  cases r
  cases h
  rfl

theorem Commutes.bind {next : Reading → Except Halt Reading} (hop : Commutes op)
    (hnext : Commutes next) : Commutes fun r => (op r).bind next := by
  intro r
  dsimp only
  rw [hop r]
  cases op r with
  | error _ => rfl
  | ok r' => exact hnext r'

theorem Commutes.map {f : Reading → Reading} (hop : Commutes op)
    (hf : ∀ r, f r.flagged = (f r).flagged) : Commutes fun r => (op r).map f := by
  intro r
  dsimp only
  rw [hop r]
  cases op r with
  | error _ => rfl
  | ok r' => exact congrArg Except.ok (hf r')

theorem Commutes.spares (h : Commutes op) : Spares op := by
  intro r r' hop hr'
  have hflagged : op r.flagged = .ok r'.flagged := by rw [h r, hop]; rfl
  refine ⟨Bool.eq_false_iff.mpr fun hr => ?_, hflagged⟩
  rw [flagged_eq_self hr, hop] at hflagged
  have hself : r' = r'.flagged := Except.ok.inj hflagged
  exact Bool.false_ne_true (hr'.symm.trans (congrArg Reading.bestEffort hself))

/-! ## The steps of the reader -/

theorem assign_commutes (o : Opt) (value : String) : Commutes (·.assign o value) := by
  rintro ⟨f, b, flag, t, v, pending⟩
  cases o with
  | frontend =>
    cases f with
    | some _ => rfl
    | none =>
      simp only [assign, flagged]
      cases valueOf .frontend value Failure.message (Address.read value) <;> rfl
  | backend =>
    cases b with
    | some _ => rfl
    | none =>
      simp only [assign, flagged]
      cases valueOf .backend value Failure.message (Address.read value) <;> rfl
  | udpTimeout =>
    cases t with
    | some _ => rfl
    | none =>
      simp only [assign, flagged]
      cases valueOf .udpTimeout value Numeral.Refusal.message
        (Numeral.readChecked 18446744073709551616 value.toList) <;> rfl
  | bestEffort | verbose | help | version => rfl

theorem resolve_commutes : Commutes resolve := by
  rintro ⟨f, b, flag, t, v, _ | ⟨o, _ | value⟩⟩
  · rfl
  · rfl
  · exact assign_commutes o value ⟨f, b, flag, t, v, none⟩

theorem raise_commutes (h : o ≠ .bestEffort) : Commutes (·.raise o) := by
  rintro ⟨f, b, flag, t, v, pending⟩
  cases o with
  | bestEffort => exact absurd rfl h
  | verbose => cases v <;> rfl
  | frontend | backend | udpTimeout | help | version => rfl

theorem take_commutes (h : o ≠ .bestEffort) (attached : Option String) :
    Commutes (·.take o attached) := by
  intro r
  cases hvalue : o.takesValue <;> cases attached <;> simp only [take, hvalue]
  case false.none => exact resolve_commutes.bind (raise_commutes h) r
  case false.some => rfl
  case true.none =>
    have hwait : ∀ r : Reading, { r.flagged with pending := some (o, none) } =
        { r with pending := some (o, none) }.flagged := fun _ => rfl
    exact resolve_commutes.map hwait r
  case true.some value => exact resolve_commutes.bind (assign_commutes o value) r

theorem ofShort?_ne_bestEffort {c : Char} (h : Opt.ofShort? c = some o) : o ≠ .bestEffort := by
  rintro rfl
  have hshort := List.find?_some h
  cases of_decide_eq_true hshort

theorem takeLetters_commutes (cs : List Char) : Commutes (·.takeLetters cs) := by
  induction cs with
  | nil => exact fun r => rfl
  | cons c cs ih =>
    intro r
    simp only [takeLetters]
    cases hc : Opt.ofShort? c with
    | none => rfl
    | some o =>
      have htake := take_commutes (ofShort?_ne_bestEffort hc)
      dsimp only
      split
      · split
        · exact htake none r
        · exact htake _ r
        · exact htake _ r
      · exact (htake none).bind ih r

theorem takePlain_commutes (argument : String) : Commutes (·.takePlain argument) := by
  rintro ⟨f, b, flag, t, v, _ | ⟨o, _ | value⟩⟩ <;> rfl

/-- Taking the flag itself leaves its mark. -/
theorem bestEffort_of_take {attached : Option String} (h : r.take .bestEffort attached = .ok r') :
    r'.bestEffort = true := by
  cases attached with
  | some value => cases h
  | none =>
    change r.resolve.bind (·.raise .bestEffort) = .ok r' at h
    cases hresolve : r.resolve with
    | error _ =>
      rw [hresolve] at h
      cases h
    | ok r'' =>
      rw [hresolve] at h
      simp only [Except.bind, raise] at h
      split at h
      · cases h
      · cases h
        rfl

theorem take_spares (o : Opt) (attached : Option String) : Spares (·.take o attached) := by
  by_cases ho : o = .bestEffort
  · subst ho
    intro r r' htake hr'
    exact absurd (hr'.symm.trans (bestEffort_of_take htake)) Bool.false_ne_true
  · exact (take_commutes ho attached).spares

theorem takeLong_spares (cs : List Char) : Spares (·.takeLong cs) := by
  intro r r' h hr'
  simp only [takeLong] at h ⊢
  split at h
  · cases h
  · exact take_spares _ _ r r' h hr'

theorem takeArgument_spares (argument : String) : Spares (·.takeArgument argument) := by
  intro r r' h hr'
  simp only [takeArgument] at h ⊢
  split at h
  · exact takeLong_spares _ r r' h hr'
  · exact (takeLetters_commutes _).spares r r' h hr'
  · exact (takePlain_commutes argument).spares r r' h hr'

theorem takeAll_cons {argument : String} (h : argument ≠ "--") (r : Reading)
    (rest : List String) :
    r.takeAll (argument :: rest) = (r.takeArgument argument).bind (·.takeAll rest) := by
  rw [takeAll]
  · exact fun hargument _ => h hargument
  · exact fun _ _ hargument _ => h hargument

theorem takeAll_spares (argv : List String) : Spares (·.takeAll argv) := by
  induction argv with
  | nil => exact resolve_commutes.spares
  | cons argument rest ih =>
    by_cases hend : argument = "--"
    · subst hend
      cases rest with
      | nil => exact resolve_commutes.spares
      | cons next rest => exact fun r r' h => nomatch h
    · intro r r' h hr'
      simp only [takeAll_cons hend] at h ⊢
      cases hr'' : r.takeArgument argument with
      | error e =>
        rw [hr''] at h
        cases h
      | ok r'' =>
        rw [hr''] at h
        obtain ⟨hflag, hrest⟩ := ih r'' r' h hr'
        obtain ⟨hr, hargument⟩ := takeArgument_spares argument r r'' hr'' hflag
        dsimp only at hargument
        rw [hargument]
        exact ⟨hr, hrest⟩

theorem complete_flagged {a : Arguments} (h : r.complete = .ok a) :
    r.bestEffort = a.bestEffort ∧ r.flagged.complete = .ok (a.withBestEffort true) := by
  obtain ⟨f, b, flag, t, v, pending⟩ := r
  cases f <;> cases b <;> cases h
  exact ⟨rfl, rfl⟩

end Reading

/-- A command line without the flag that is accepted is accepted behind the flag, too. -/
theorem Arguments.read_flag {argv : List String} {a : Arguments} (h : read argv = .ok a)
    (hflag : a.bestEffort = false) :
    read ("--best-effort" :: argv) = .ok (a.withBestEffort true) := by
  have hfirst : Reading.empty.takeAll ("--best-effort" :: argv) =
      Reading.empty.flagged.takeAll argv := by
    rw [Reading.takeAll_cons (by decide)]
    rfl
  rw [read, hfirst]
  cases hread : Reading.empty.takeAll argv with
  | error e =>
    rw [read, hread] at h
    cases h
  | ok r =>
    rw [read, hread] at h
    obtain ⟨hr, hcomplete⟩ := Reading.complete_flagged h
    obtain ⟨-, htake⟩ := Reading.takeAll_spares argv _ r hread (hr.trans hflag)
    dsimp only at htake
    rw [htake]
    exact hcomplete

end PortForward.CommandLine
