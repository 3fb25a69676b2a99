import PortForward.Proofs.Construction

/-!
# Which failures are skipped

A best-effort proxy is the proxy of the IP table, but for one failure: the listen call on an IP
frontend that does not exist here. The same kind of IO error is hard when it is raised by any
other call or on vsock, and a hard failure is handed on as it is and not reported.
-/

namespace PortForward

variable {σ : Type} {b : Binder σ} {level : Level} {frontend backend : Address} {s : σ}

/-- The pair has a route, and the listen call finds that its IP frontend does not exist here. -/
structure Binder.Lacks (b : Binder σ) (frontend backend : Address) (s : σ) : Prop where
  routed : ∃ route, Route.ofIp frontend backend = .ok route
  ip : frontend.transport ≠ .vsock
  absent : ∃ e s', b.listen frontend.bindCall s = (.error e, s') ∧ e.kind = .addrNotAvailable

theorem Address.textWith_text (a : Address) : a.textWith SocketAddress.text = a.text := by
  cases a with
  | stream a | datagram a => exact (String.ofList_append ..).symm
  | vsock e => exact (String.ofList_append ..).symm

namespace Proxy

/-- What a best-effort attempt comes to, against the plain one of the same table. -/
structure Attempt (b : Binder σ) (level : Level) (frontend backend : Address) (s : σ) :
    Prop where
  skipped_iff : (makeBestEffort b level frontend backend s).1.1 = .ok none ↔
    b.Lacks frontend backend s
  made_iff : ∀ p, (makeBestEffort b level frontend backend s).1.1 = .ok (some p) ↔
    (makeIp b level frontend backend s).1 = .ok p
  failed_iff : ∀ e, (makeBestEffort b level frontend backend s).1.1 = .error e ↔
    (makeIp b level frontend backend s).1 = .error e ∧ ¬ b.Lacks frontend backend s
  state : (makeBestEffort b level frontend backend s).2 = (makeIp b level frontend backend s).2
  noticed : b.Lacks frontend backend s →
    (makeBestEffort b level frontend backend s).1.2 = [.frontendSkipped frontend]
  quiet : ¬ b.Lacks frontend backend s → (makeBestEffort b level frontend backend s).1.2 = []
  line : (Notice.frontendSkipped frontend).line SocketAddress.text =
    s!"INFO address {frontend.text} doesn't exist in the VM: only binding on the host"
  unsupported : ∀ e, Route.ofIp frontend backend = .error e →
    makeBestEffort b level frontend backend s =
      ((.error (.unsupported frontend.transport backend.transport), []), s)
  /-- on vsock whatever the kind of the error is -/
  unheard : ∀ route e s', Route.ofIp frontend backend = .ok route →
    b.listen frontend.bindCall s = (.error e, s') →
    frontend.transport = .vsock ∨ e.kind ≠ .addrNotAvailable →
    makeBestEffort b level frontend backend s = ((.error (.listen frontend e), []), s')
  /-- whatever the kind of the error is -/
  unnamed : ∀ route socket e s' s'', Route.ofIp frontend backend = .ok route →
    b.listen frontend.bindCall s = (.ok (some socket), s') →
    b.localAddress socket s' = (.error e, s'') →
    makeBestEffort b level frontend backend s = ((.error (.io e), []), s'')
  /-- one listen call for a pair with a route, and none without -/
  calls : ∀ noted, makeBestEffort b.noting level frontend backend (s, noted) =
    ((makeBestEffort b level frontend backend s).1, (makeBestEffort b level frontend backend s).2,
      match Route.ofIp frontend backend with
      | .ok _ => noted ++ [frontend.bindCall]
      | .error _ => noted)

variable {e : Failure} {s' : σ}

theorem makeBestEffort_of_isSoft (h : makeIp b level frontend backend s = (.error e, s'))
    (hsoft : e.isSoft = true) :
    makeBestEffort b level frontend backend s = ((.ok none, [.frontendSkipped frontend]), s') := by
  rw [makeBestEffort, h]
  exact if_pos hsoft

theorem makeBestEffort_of_isHard (h : makeIp b level frontend backend s = (.error e, s'))
    (hhard : e.isSoft = false) :
    makeBestEffort b level frontend backend s = ((.error e, []), s') := by
  rw [makeBestEffort, h]
  exact if_neg (Bool.eq_false_iff.mp hhard)

/-- The one soft failure is that of the listen call on an IP frontend that is not here. -/
theorem isSoft_iff_lacks (h : makeIp b level frontend backend s = (.error e, s')) :
    e.isSoft = true ↔ b.Lacks frontend backend s := by
  have hsetUp := setUp_of_answers .ip b level frontend backend s
  constructor
  · intro hsoft
    cases hroute : Route.ofIp frontend backend with
    | error cause =>
      cases h.symm.trans (hsetUp.rejected cause hroute)
      exact absurd hsoft Bool.false_ne_true
    | ok route =>
      rcases hlisten : b.listen frontend.bindCall s with ⟨cause | _ | socket, s''⟩
      · cases h.symm.trans (hsetUp.unheard route cause s'' hroute hlisten)
        obtain ⟨hip, hkind⟩ := of_decide_eq_true hsoft
        exact ⟨⟨route, hroute⟩, hip, cause, s', hlisten, hkind⟩
      · obtain ⟨p, hmade, -⟩ := hsetUp.nameless route s'' hroute hlisten
        cases h.symm.trans hmade
      · rcases haddress : b.localAddress socket s'' with ⟨cause | bound, t⟩
        · cases h.symm.trans (hsetUp.unnamed route socket cause s'' t hroute hlisten haddress)
          exact absurd hsoft Bool.false_ne_true
        · obtain ⟨p, hmade, -⟩ := hsetUp.named route socket bound s'' t hroute hlisten haddress
          cases h.symm.trans hmade
  · rintro ⟨⟨route, hroute⟩, hip, cause, s'', hlisten, hkind⟩
    cases h.symm.trans (hsetUp.unheard route cause s'' hroute hlisten)
    exact decide_eq_true ⟨hip, hkind⟩

theorem makeIp_of_lacks (h : b.Lacks frontend backend s) (level : Level) :
    ∃ e s', makeIp b level frontend backend s = (.error e, s') := by
  obtain ⟨⟨route, hroute⟩, -, cause, s', hlisten, -⟩ := h
  have hsetUp := setUp_of_answers .ip b level frontend backend s
  exact ⟨_, s', hsetUp.unheard route cause s' hroute hlisten⟩

/-- An attempt makes the proxy, skips the frontend, or fails as the plain one does. -/
theorem makeBestEffort_cases (b : Binder σ) (level : Level) (frontend backend : Address) (s : σ) :
    (∃ p s', makeIp b level frontend backend s = (.ok p, s') ∧
      makeBestEffort b level frontend backend s = ((.ok (some p), []), s') ∧
      ¬ b.Lacks frontend backend s) ∨
    (∃ e s', makeIp b level frontend backend s = (.error e, s') ∧
      makeBestEffort b level frontend backend s = ((.ok none, [.frontendSkipped frontend]), s') ∧
      b.Lacks frontend backend s) ∨
    ∃ e s', makeIp b level frontend backend s = (.error e, s') ∧
      makeBestEffort b level frontend backend s = ((.error e, []), s') ∧
      ¬ b.Lacks frontend backend s := by
  rcases hmade : makeIp b level frontend backend s with ⟨e | p, s'⟩
  · cases hsoft : e.isSoft with
    | true =>
      exact .inr (.inl ⟨e, s', rfl, makeBestEffort_of_isSoft hmade hsoft,
        (isSoft_iff_lacks hmade).mp hsoft⟩)
    | false =>
      have hlacks : ¬ b.Lacks frontend backend s := fun h =>
        Bool.false_ne_true (hsoft.symm.trans ((isSoft_iff_lacks hmade).mpr h))
      exact .inr (.inr ⟨e, s', rfl, makeBestEffort_of_isHard hmade hsoft, hlacks⟩)
  · refine .inl ⟨p, s', rfl, by rw [makeBestEffort, hmade], fun hlacks => ?_⟩
    obtain ⟨e, s'', hfailed⟩ := makeIp_of_lacks hlacks level
    cases hmade.symm.trans hfailed

theorem skipped_iff_lacks : (makeBestEffort b level frontend backend s).1.1 = .ok none ↔
    b.Lacks frontend backend s := by
  rcases makeBestEffort_cases b level frontend backend s with
    ⟨p, s', -, heq, hlacks⟩ | ⟨e, s', -, heq, hlacks⟩ | ⟨e, s', -, heq, hlacks⟩
  · simp only [heq, hlacks, Except.ok.injEq, reduceCtorEq]
  · simp only [heq, hlacks]
  · simp only [heq, hlacks, reduceCtorEq]

theorem made_iff_makeIp (p : Proxy) :
    (makeBestEffort b level frontend backend s).1.1 = .ok (some p) ↔
      (makeIp b level frontend backend s).1 = .ok p := by
  rcases makeBestEffort_cases b level frontend backend s with
    ⟨p, s', hmade, heq, -⟩ | ⟨e, s', hmade, heq, -⟩ | ⟨e, s', hmade, heq, -⟩
  · simp only [hmade, heq, Except.ok.injEq, Option.some.injEq]
  · simp only [hmade, heq, Except.ok.injEq, reduceCtorEq]
  · simp only [hmade, heq, reduceCtorEq]

theorem failed_iff_makeIp (f : Failure) :
    (makeBestEffort b level frontend backend s).1.1 = .error f ↔
      (makeIp b level frontend backend s).1 = .error f ∧ ¬ b.Lacks frontend backend s := by
  rcases makeBestEffort_cases b level frontend backend s with
    ⟨p, s', hmade, heq, -⟩ | ⟨e, s', hmade, heq, hlacks⟩ | ⟨e, s', hmade, heq, hlacks⟩
  · simp only [hmade, heq, reduceCtorEq, false_and]
  · simp only [heq, hlacks, reduceCtorEq, not_true_eq_false, and_false]
  · simp only [hmade, heq, hlacks, Except.error.injEq, not_false_eq_true, and_true]

theorem notices_of_lacks (h : b.Lacks frontend backend s) :
    (makeBestEffort b level frontend backend s).1.2 = [.frontendSkipped frontend] := by
  rcases makeBestEffort_cases b level frontend backend s with
    ⟨p, s', -, -, hlacks⟩ | ⟨e, s', -, heq, -⟩ | ⟨e, s', -, -, hlacks⟩
  · exact absurd h hlacks
  · rw [heq]
  · exact absurd h hlacks

theorem notices_of_not_lacks (h : ¬ b.Lacks frontend backend s) :
    (makeBestEffort b level frontend backend s).1.2 = [] := by
  rcases makeBestEffort_cases b level frontend backend s with
    ⟨p, s', -, heq, -⟩ | ⟨e, s', -, -, hlacks⟩ | ⟨e, s', -, heq, -⟩
  · rw [heq]
  · exact absurd hlacks h
  · rw [heq]

theorem state_of_makeBestEffort (b : Binder σ) (level : Level) (frontend backend : Address)
    (s : σ) :
    (makeBestEffort b level frontend backend s).2 = (makeIp b level frontend backend s).2 := by
  rcases makeBestEffort_cases b level frontend backend s with
    ⟨p, s', hmade, heq, -⟩ | ⟨e, s', hmade, heq, -⟩ | ⟨e, s', hmade, heq, -⟩ <;>
    rw [hmade, heq]

/-- An attempt makes the listen calls of the plain construction. -/
theorem makeBestEffort_noting (b : Binder σ) (level : Level) (frontend backend : Address) (s : σ)
    (noted : List BindCall) : makeBestEffort b.noting level frontend backend (s, noted) =
      ((makeBestEffort b level frontend backend s).1,
        (makeBestEffort b level frontend backend s).2,
        match Route.ofIp frontend backend with
        | .ok _ => noted ++ [frontend.bindCall]
        | .error _ => noted) := by
  have hcalls := (setUp_of_answers .ip b level frontend backend s).calls noted
  simp only [Route.Table.make, Route.Table.route] at hcalls
  rw [makeBestEffort, hcalls, makeBestEffort]
  rcases makeIp b level frontend backend s with ⟨e | p, s'⟩
  · dsimp only
    cases e.isSoft <;> rfl
  · rfl

/-- For every binder and every pair the one soft failure is skipped, with a notice, and everything
else is as without best effort. -/
theorem attempt_of_answers (b : Binder σ) (level : Level) (frontend backend : Address) (s : σ) :
    Attempt b level frontend backend s := by
  have hsetUp := setUp_of_answers .ip b level frontend backend s
  constructor
  case skipped_iff => exact skipped_iff_lacks
  case made_iff => exact made_iff_makeIp
  case failed_iff => exact failed_iff_makeIp
  case state => exact state_of_makeBestEffort b level frontend backend s
  case noticed => exact notices_of_lacks
  case quiet => exact notices_of_not_lacks
  case line =>
    rw [← frontend.textWith_text]
    rfl
  case unsupported =>
    intro e hroute
    exact makeBestEffort_of_isHard (hsetUp.rejected e hroute) rfl
  case unheard =>
    intro route e s' hroute hlisten hhard
    refine makeBestEffort_of_isHard (hsetUp.unheard route e s' hroute hlisten) ?_
    exact decide_eq_false fun ⟨hip, hkind⟩ => hhard.elim hip (fun h => h hkind)
  case unnamed =>
    intro route socket e s' s'' hroute hlisten haddress
    exact makeBestEffort_of_isHard
      (hsetUp.unnamed route socket e s' s'' hroute hlisten haddress) rfl
  case calls => exact makeBestEffort_noting b level frontend backend s

/-- The same error is soft of the listen call, and hard of the question for the address. -/
example :
    let frontend : Address := .stream (.v4 .loopback 8080)
    let backend : Address := .stream (.v4 .loopback 9000)
    let attempt (call : SystemCall) :=
      (makeBestEffort (.system .info) .info frontend backend (.fresh .isolated [⟨call, 99⟩])).1
    attempt .bind = (.ok none, [.frontendSkipped frontend]) ∧
      attempt .getsockname = (.error (.io (.os 99)), []) := ⟨rfl, rfl⟩

end Proxy

end PortForward
