import PortForward.Proofs.BestEffort

/-!
# Failures behind wrappers

A program may put an IO error into wrappers, each with a kind of its own. The error inside is what
every message shows, but whether a failed listen call is soft goes by the kind of the outermost
wrapper, and nothing behind that wrapper is looked at. So a wrapper can turn a soft failure hard and
a hard one soft, and does so just where its kind and the error inside disagree about the address.
-/

namespace PortForward

namespace IoError

/-- The error in wrappers of these kinds, the outermost first. -/
def wrappedIn (kinds : List IoErrorKind) (e : IoError) : IoError := kinds.foldr wrapped e

/-- The kinds of the wrappers of an error, the outermost first. -/
def wrappers : IoError → List IoErrorKind
  | wrapped k e => k :: e.wrappers
  | _ => []

variable (kinds : List IoErrorKind) (e : IoError)

/-- Every error is the one at its bottom, in its wrappers. -/
theorem wrappedIn_wrappers : e.innermost.wrappedIn e.wrappers = e := by
  induction e with
  | wrapped k e ih => exact congrArg (wrapped k) ih
  | _ => rfl

@[simp] theorem wrappers_innermost : e.innermost.wrappers = [] := by
  induction e with
  | wrapped k e ih => exact ih
  | _ => rfl

@[simp] theorem innermost_wrappedIn : (e.wrappedIn kinds).innermost = e.innermost := by
  induction kinds with
  | nil => rfl
  | cons k kinds ih => exact ih

@[simp] theorem message_wrappedIn : (e.wrappedIn kinds).message = e.message := by
  induction kinds with
  | nil => rfl
  | cons k kinds ih => exact ih

@[simp] theorem kind_wrappedIn : (e.wrappedIn kinds).kind = kinds.headD e.kind := by
  cases kinds <;> rfl

end IoError

/-- Whether a failure to listen is soft is decided by the error at the bottom of its cause. -/
def Failure.SeesThrough (a : Address) (e : IoError) : Prop :=
  (listen a e).isSoft = true ↔ a.transport ≠ .vsock ∧ e.innermost.kind = .addrNotAvailable

/-- The same proxy, a frontend that is skipped in both, or failures with the same texts. -/
def Proxy.AnswersAlike : Except Failure (Option Proxy) → Except Failure (Option Proxy) → Prop
  | .ok p, .ok q => p = q
  | .error e, .error e' => e.message = e'.message ∧ e.causes = e'.causes
  | _, _ => False

variable {σ : Type} {b : Binder σ} {level : Level} {frontend backend : Address} {s s' : σ}
variable {route : Route} {kinds : List IoErrorKind} {cause e : IoError}

theorem Failure.isSoft_listen_iff (a : Address) (e : IoError) :
    (listen a e).isSoft = true ↔ a.transport ≠ .vsock ∧ e.kind = .addrNotAvailable :=
  decide_eq_true_iff

/-- Errors that say the same make failures to listen that say the same. -/
theorem Failure.texts_listen {e' : IoError} (h : e.message = e'.message) (a : Address) :
    (listen a e).message = (listen a e').message ∧ (listen a e).causes = (listen a e').causes :=
  ⟨congrArg (fun m => s!"failed to listen on {a.text}: {m}") h, congrArg (fun m => [m]) h⟩

theorem Failure.seesThrough_iff (hip : frontend.transport ≠ .vsock) :
    SeesThrough frontend e ↔
      (e.kind = .addrNotAvailable ↔ e.innermost.kind = .addrNotAvailable) := by
  rw [SeesThrough, isSoft_listen_iff, and_iff_right hip, and_iff_right hip]

namespace Proxy

/-- An attempt whose listen call fails is decided by that failure. -/
theorem makeBestEffort_of_listen (hroute : Route.ofIp frontend backend = .ok route)
    (hlisten : b.listen frontend.bindCall s = (.error e, s')) :
    makeBestEffort b level frontend backend s =
      if (Failure.listen frontend e).isSoft then ((.ok none, [.frontendSkipped frontend]), s')
      else ((.error (.listen frontend e), []), s') := by
  have hmade : makeIp b level frontend backend s = (.error (.listen frontend e), s') :=
    (setUp_of_answers .ip b level frontend backend s).unheard route e s' hroute hlisten
  by_cases hsoft : (Failure.listen frontend e).isSoft = true
  · rw [if_pos hsoft, makeBestEffort_of_isSoft hmade hsoft]
  · rw [if_neg hsoft, makeBestEffort_of_isHard hmade (Bool.eq_false_iff.mpr hsoft)]

/-- What a failure to listen comes to whose cause is in wrappers of these kinds. -/
structure JudgedInWrappers (kinds : List IoErrorKind) (cause : IoError) : Prop where
  bottom : (cause.wrappedIn kinds).innermost = cause.innermost
  texts : ∀ a, (Failure.listen a (cause.wrappedIn kinds)).message =
      (Failure.listen a cause).message ∧
    (Failure.listen a (cause.wrappedIn kinds)).causes = (Failure.listen a cause).causes
  soft_iff : ∀ a, (Failure.listen a (cause.wrappedIn kinds)).isSoft = true ↔
    a.transport ≠ .vsock ∧ kinds.headD cause.kind = .addrNotAvailable
  seesThrough_iff : ∀ a : Address, a.transport ≠ .vsock →
    (Failure.SeesThrough a (cause.wrappedIn kinds) ↔
      (kinds.headD cause.kind = .addrNotAvailable ↔ cause.innermost.kind = .addrNotAvailable))
  attempt : ∀ (σ : Type) (b : Binder σ) level frontend backend route s s',
    Route.ofIp frontend backend = .ok route →
    b.listen frontend.bindCall s = (.error (cause.wrappedIn kinds), s') →
    makeBestEffort b level frontend backend s =
      if frontend.transport ≠ .vsock ∧ kinds.headD cause.kind = .addrNotAvailable then
        ((.ok none, [.frontendSkipped frontend]), s')
      else ((.error (.listen frontend (cause.wrappedIn kinds)), []), s')
  /-- two listen calls that fail, the one with the wrappers and the other without -/
  alike_iff : ∀ (σ τ : Type) (b : Binder σ) (c : Binder τ) level frontend backend route s s' t t',
    Route.ofIp frontend backend = .ok route →
    b.listen frontend.bindCall s = (.error (cause.wrappedIn kinds), s') →
    c.listen frontend.bindCall t = (.error cause, t') →
    (AnswersAlike (makeBestEffort b level frontend backend s).1.1
        (makeBestEffort c level frontend backend t).1.1 ↔
      (frontend.transport = .vsock ∨
        (kinds.headD cause.kind = .addrNotAvailable ↔ cause.kind = .addrNotAvailable)))

/-- Attempts that fail to listen, with errors of the same message, have the same answer if both
failures are soft or both are hard. -/
theorem answersAlike_iff {τ : Type} {c : Binder τ} {t t' : τ} {e' : IoError}
    (hroute : Route.ofIp frontend backend = .ok route)
    (hb : b.listen frontend.bindCall s = (.error e, s'))
    (hc : c.listen frontend.bindCall t = (.error e', t')) (hmessage : e.message = e'.message) :
    AnswersAlike (makeBestEffort b level frontend backend s).1.1
        (makeBestEffort c level frontend backend t).1.1 ↔
      ((Failure.listen frontend e).isSoft = true ↔ (Failure.listen frontend e').isSoft = true) := by
  rw [makeBestEffort_of_listen hroute hb, makeBestEffort_of_listen hroute hc]
  by_cases hsoft : (Failure.listen frontend e).isSoft = true
  · by_cases hsoft' : (Failure.listen frontend e').isSoft = true
    · rw [if_pos hsoft, if_pos hsoft']
      exact iff_of_true rfl (iff_of_true hsoft hsoft')
    · rw [if_pos hsoft, if_neg hsoft']
      exact iff_of_false id fun h => hsoft' (h.mp hsoft)
  · by_cases hsoft' : (Failure.listen frontend e').isSoft = true
    · rw [if_neg hsoft, if_pos hsoft']
      exact iff_of_false id fun h => hsoft (h.mpr hsoft')
    · rw [if_neg hsoft, if_neg hsoft']
      exact iff_of_true (Failure.texts_listen hmessage frontend) (iff_of_false hsoft hsoft')

/-- Every IO error is the one at its bottom in some wrappers, and of an error in any more wrappers
the outermost kind alone decides whether a failure to listen is soft. -/
theorem judged_by_outermost (kinds : List IoErrorKind) (cause : IoError) :
    (∃ own, cause.innermost.wrappedIn own = cause ∧ cause.innermost.wrappers = []) ∧
      JudgedInWrappers kinds cause := by
  refine ⟨⟨cause.wrappers, cause.wrappedIn_wrappers, cause.wrappers_innermost⟩, ?_⟩
  have hsoft : ∀ a, (Failure.listen a (cause.wrappedIn kinds)).isSoft = true ↔
      a.transport ≠ .vsock ∧ kinds.headD cause.kind = .addrNotAvailable := by
    intro a
    rw [Failure.isSoft_listen_iff, IoError.kind_wrappedIn]
  constructor
  case bottom => exact IoError.innermost_wrappedIn kinds cause
  case texts => exact Failure.texts_listen (IoError.message_wrappedIn kinds cause)
  case soft_iff => exact hsoft
  case seesThrough_iff =>
    intro a hip
    rw [Failure.seesThrough_iff hip, IoError.kind_wrappedIn, IoError.innermost_wrappedIn]
  case attempt =>
    intro σ b level frontend backend route s s' hroute hlisten
    simp only [makeBestEffort_of_listen hroute hlisten, hsoft]
  case alike_iff =>
    intro σ τ b c level frontend backend route s s' t t' hroute hb hc
    rw [answersAlike_iff hroute hb hc (IoError.message_wrappedIn kinds cause), hsoft,
      Failure.isSoft_listen_iff, and_congr_right_iff]
    by_cases hvsock : frontend.transport = .vsock
    · simp only [hvsock, ne_eq, not_true_eq_false, false_implies, true_or]
    · simp only [hvsock, ne_eq, not_false_eq_true, true_implies, false_or]

/-- An address that does not exist here is a hard failure behind a wrapper of another kind, and a
refused permission is a soft one behind a wrapper of this kind. -/
theorem misjudged_in_wrapper :
    let frontend : Address := .stream (.v4 ⟨10, 0, 0, 1⟩ 80)
    let backend : Address := .stream (.v4 ⟨10, 0, 0, 2⟩ 80)
    let missing := (IoError.os 99).wrappedIn [.permissionDenied]
    let denied := (IoError.os 13).wrappedIn [.addrNotAvailable]
    let attempt (e : IoError) :=
      (makeBestEffort ((Binder.system .info).failing e) .info frontend backend
        (.fresh .isolated [])).1.1
    ¬ Failure.SeesThrough frontend missing ∧ ¬ Failure.SeesThrough frontend denied ∧
      ¬ AnswersAlike (attempt missing) (attempt (.os 99)) ∧
      ¬ AnswersAlike (attempt denied) (attempt (.os 13)) := by
  intro frontend backend missing denied attempt
  refine ⟨?_, ?_, id, id⟩
  · rw [Failure.seesThrough_iff (by decide)]
    decide
  · rw [Failure.seesThrough_iff (by decide)]
    decide

end Proxy

end PortForward
