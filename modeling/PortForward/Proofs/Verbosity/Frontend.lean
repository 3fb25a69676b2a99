import PortForward.Proofs.BestEffort
import PortForward.Trial

/-!
# Setting up at two levels of the log

The line about a bound socket shows the address of the socket, which is asked for only where the
log shows the line. If that question fails, the whole listen call fails with it; where the log does
not show the line, the same question is asked later and its failure is one of its own. Nothing else
of a construction depends on the level, whatever the kernel answers to its calls.
-/

namespace PortForward

/-- What a kernel answers to the calls by which a frontend is bound, and what a line of the log does
to it. -/
structure BindCalls (σ : Type) where
  bindIp : SocketAddress → σ → Except IoError Nat × σ
  bindVsock : KernelEndpoint → σ → Except IoError Unit × σ
  localAddress : Nat → σ → Except IoError SocketAddress × σ
  log : Notice → σ → σ

def Kernel.calls : BindCalls Kernel where
  bindIp := Kernel.bindIp
  bindVsock := Kernel.bindVsock
  localAddress := Kernel.localAddress
  log := Kernel.log

/-- The line about a bound frontend. -/
def Address.boundNotice (bound : SocketAddress) : Address → Notice
  | stream _ => .streamBound bound
  | datagram _ => .datagramBound bound
  | vsock e => .vsockBound e.port

theorem Address.boundTo_inj {a : Address} {bound bound' : SocketAddress}
    (hip : a.transport ≠ .vsock) : a.boundTo bound = a.boundTo bound' ↔ bound = bound' := by
  cases a with
  | stream a => exact Address.stream.injEq .. ▸ Iff.rfl
  | datagram a => exact Address.datagram.injEq .. ▸ Iff.rfl
  | vsock e => exact absurd rfl hip

section
variable (level level' : Level)

def DatagramRelay.logging (r : DatagramRelay) : DatagramRelay := { r with level }

/-- The service with a log of the given level. Only a datagram relay knows the level. -/
def Service.logging : Service → Service
  | .datagram r => .datagram (r.logging level)
  | s => s

def Proxy.logging (p : Proxy) : Proxy := { p with service := p.service.logging level }

theorem Route.service_logging (route : Route) :
    (route.service level).logging level' = route.service level' := by
  cases route <;> rfl

end

namespace BindCalls

variable {σ : Type} (c : BindCalls σ)

def bindLogged (level : Level) (notice : SocketAddress → Notice) (a : SocketAddress) (s : σ) :
    Except IoError Nat × σ :=
  match c.bindIp a s with
  | (.error e, s) => (.error e, s)
  | (.ok socket, s) =>
    if level.shows .debug then
      match c.localAddress socket s with
      | (.error e, s) => (.error e, s)
      | (.ok bound, s) => (.ok socket, c.log (notice bound) s)
    else (.ok socket, s)

def bindVsockLogged (level : Level) (port : UInt32) (s : σ) : Except IoError Unit × σ :=
  match c.bindVsock ⟨Cid.anyRaw, port⟩ s with
  | (.error e, s) => (.error e, s)
  | (.ok (), s) => (.ok (), if level.shows .debug then c.log (.vsockBound port) s else s)

/-- The binder that makes these calls, with a log of the given level. -/
def binder (level : Level) : Binder σ where
  stream := c.bindLogged level .streamBound
  datagram := c.bindLogged level .datagramBound
  vsock := c.bindVsockLogged level
  localAddress := c.localAddress

/-- The answer to the listen call of a frontend where nothing is logged. -/
def listen (frontend : Address) : σ → Except IoError (Option Nat) × σ :=
  (c.binder .off).listen frontend.bindCall

/-- The line about a listener that has no socket to be asked. -/
def logVsock (level : Level) : Address → σ → σ
  | .vsock e, s => if level.shows .debug then c.log (.vsockBound e.port) s else s
  | _, s => s

theorem bindLogged_calls (level : Level) (notice : SocketAddress → Notice) :
    Kernel.calls.bindLogged level notice = Binder.bindLogged level notice := by
  funext a k
  simp only [bindLogged, Binder.bindLogged, Kernel.calls]
  rcases k.bindIp a with ⟨e | socket, k'⟩
  · rfl
  · rcases h : k'.localAddress socket with ⟨e | bound, k''⟩ <;> simp only [h]

theorem bindVsockLogged_calls (level : Level) :
    Kernel.calls.bindVsockLogged level = Binder.bindVsockLogged level := by
  funext port k
  simp only [bindVsockLogged, Binder.bindVsockLogged, Kernel.calls]
  rcases k.bindVsock ⟨Cid.anyRaw, port⟩ with ⟨e | _, k'⟩ <;> rfl

theorem binder_calls : Kernel.calls.binder = Binder.system := by
  funext level
  simp only [binder, Binder.system, bindLogged_calls, bindVsockLogged_calls]
  rfl

variable {c}

theorem ip_of_listen {frontend : Address} {s s' : σ} {socket : Nat}
    (h : c.listen frontend s = (.ok (some socket), s')) : frontend.transport ≠ .vsock := by
  cases frontend with
  | stream a | datagram a => nofun
  | vsock a =>
    simp only [listen, Address.bindCall, Binder.listen] at h
    rcases hcall : (c.binder .off).vsock a.port s with ⟨e | _, t⟩ <;> simp [hcall, Except.map] at h

/-- A log that shows the line asks for the address before the listen call has returned. -/
theorem listen_binder (level : Level) (frontend : Address) (s : σ) :
    (c.binder level).listen frontend.bindCall s =
      match c.listen frontend s with
      | (.error e, s) => (.error e, s)
      | (.ok none, s) => (.ok none, c.logVsock level frontend s)
      | (.ok (some socket), s) =>
        if level.shows .debug then
          match c.localAddress socket s with
          | (.error e, s) => (.error e, s)
          | (.ok bound, s) => (.ok (some socket), c.log (frontend.boundNotice bound) s)
        else (.ok (some socket), s) := by
  have hoff : Level.off.shows .debug = false := rfl
  cases frontend with
  | stream a | datagram a =>
    simp only [listen, Address.bindCall, Binder.listen, binder, bindLogged, hoff,
      Bool.false_eq_true, if_false]
    rcases c.bindIp a s with ⟨e | socket, s'⟩
    · rfl
    · cases level.shows .debug with
      | false => rfl
      | true =>
        simp only [Except.map, if_true]
        rcases c.localAddress socket s' with ⟨e | bound, s''⟩ <;> rfl
  | vsock a =>
    simp only [listen, Address.bindCall, Binder.listen, binder, bindVsockLogged, hoff]
    rcases c.bindVsock ⟨Cid.anyRaw, a.port⟩ s with ⟨e | _, s'⟩ <;> rfl

/-- The socket is asked for its address once, or a second time if the first answer was for the
log. -/
theorem openFrontend_binder (route : Route) (level : Level) (s : σ) :
    route.openFrontend (c.binder level) s =
      match c.listen route.frontend s with
      | (.error e, s) => (.error (.listen route.frontend e), s)
      | (.ok none, s) => (.ok route.frontend, c.logVsock level route.frontend s)
      | (.ok (some socket), s) =>
        match c.localAddress socket s with
        | (.error e, s) =>
          (.error (if level.shows .debug then .listen route.frontend e else .io e), s)
        | (.ok bound, s) =>
          if level.shows .debug then
            match c.localAddress socket (c.log (route.frontend.boundNotice bound) s) with
            | (.error e, s) => (.error (.io e), s)
            | (.ok bound, s) => (.ok (route.frontend.boundTo bound), s)
          else (.ok (route.frontend.boundTo bound), s) := by
  rw [Route.openFrontend_eq, listen_binder]
  rcases c.listen route.frontend s with ⟨e | _ | socket, s'⟩
  · rfl
  · rfl
  · cases hshows : level.shows .debug with
    | false =>
      rcases h : c.localAddress socket s' with ⟨e | bound, s''⟩ <;>
        simp only [binder, h, Bool.false_eq_true, if_false]
    | true =>
      rcases h : c.localAddress socket s' with ⟨e | bound, s''⟩
      · simp only [h, if_true]
      · rcases h' : c.localAddress socket (c.log (route.frontend.boundNotice bound) s'') with
          ⟨e | bound', t⟩ <;> simp only [binder, h, h', if_true]

end BindCalls

namespace Factory

variable {σ : Type}

def table : Factory → Route.Table
  | any .. => .any
  | ip .. | bestEffort .. => .ip
  | vsock .. => .vsock

def frontend : Factory → Address
  | any f _ | ip f _ | bestEffort f _ => f
  | vsock f _ => .vsock f

def backend : Factory → Address
  | any _ t | ip _ t | bestEffort _ t | vsock _ t => t

def route (F : Factory) : Except Failure Route := F.table.route F.frontend F.backend

/-- The factory goes on without a frontend that does not exist here. -/
def skips : Factory → Bool
  | bestEffort .. => true
  | _ => false

/-- What the factory answers to what its table comes to. -/
def answer (F : Factory) : Except Failure Proxy → Except Failure (Option Proxy) × List Notice
  | .ok p => (.ok (some p), [])
  | .error e =>
    if F.skips ∧ e.isSoft then (.ok none, [.frontendSkipped F.frontend]) else (.error e, [])

theorem make_eq (F : Factory) (b : Binder σ) (level : Level) (s : σ) :
    F.make b level s =
      (F.answer (F.table.make b level F.frontend F.backend s).1,
        (F.table.make b level F.frontend F.backend s).2) := by
  cases F with
  | bestEffort f t =>
    simp only [make, table, frontend, backend, Route.Table.make, Proxy.makeBestEffort]
    rcases Proxy.makeIp b level f t s with ⟨e | p, s'⟩
    · simp only [answer, skips, true_and]
      split <;> rfl
    · rfl
  | any f t =>
    simp only [make, table, frontend, backend, Route.Table.make]
    rcases Proxy.make b level f t s with ⟨e | p, s'⟩ <;> rfl
  | ip f t =>
    simp only [make, table, frontend, backend, Route.Table.make]
    rcases Proxy.makeIp b level f t s with ⟨e | p, s'⟩ <;> rfl
  | vsock f t =>
    simp only [make, table, frontend, backend, Route.Table.make]
    rcases Proxy.makeVsock b level f t s with ⟨e | p, s'⟩ <;> rfl

/-- An answer to success or to a hard failure is no answer to anything else. -/
theorem answer_eq_iff {F : Factory} {r r' : Except Failure Proxy}
    (hhard : ∀ e, r = .error e → e.isSoft = false) : F.answer r = F.answer r' ↔ r = r' := by
  refine ⟨fun h => ?_, congrArg F.answer⟩
  rcases r with e | p
  · have he : ¬ (F.skips ∧ e.isSoft) := by simp [hhard e rfl]
    rcases r' with e' | p'
    · by_cases hskip : F.skips ∧ e'.isSoft
      · simp [answer, if_neg he, if_pos hskip] at h
      · simpa [answer, if_neg he, if_neg hskip] using h
    · simp [answer, if_neg he] at h
  · rcases r' with e' | p'
    · by_cases hskip : F.skips ∧ e'.isSoft
      · simp [answer, if_pos hskip] at h
      · simp [answer, if_neg hskip] at h
    · simpa [answer] using h

/-- What a factory makes with binders for all levels, apart from the level that its proxy knows. -/
def made (F : Factory) (b : Level → Binder σ) (level : Level) (s : σ) :
    (Except Failure (Option Proxy) × List Notice) × σ :=
  let ((outcome, notices), s) := F.make (b level) level s
  ((outcome.map (·.map (·.logging .off)), notices), s)

variable {F : Factory} {b : Level → Binder σ} {level : Level} {s : σ}

theorem made_eq (F : Factory) (b : Level → Binder σ) (level : Level) (s : σ) :
    F.made b level s =
      (F.answer ((F.table.make (b level) level F.frontend F.backend s).1.map (·.logging .off)),
        (F.table.make (b level) level F.frontend F.backend s).2) := by
  rw [made, make_eq]
  rcases F.table.make (b level) level F.frontend F.backend s with ⟨e | p, s'⟩
  · by_cases hskip : F.skips ∧ e.isSoft
    · simp only [answer, Except.map, if_pos hskip, Option.map_none]
    · simp only [answer, Except.map, if_neg hskip]
  · rfl

theorem made_of_unrouted {e : Failure} (h : F.route = .error e) :
    F.made b level s = (F.answer (.error e), s) := by
  rw [made_eq, Route.Table.make_eq, ← route, h]
  rfl

theorem made_of_route {route : Route} (h : F.route = .ok route) :
    F.made b level s =
      (F.answer ((route.openFrontend (b level) s).1.map fun bound =>
          .bound bound (route.service .off)),
        (route.openFrontend (b level) s).2) := by
  rw [made_eq, Route.Table.make_of_route h, Route.build]
  rcases route.openFrontend (b level) s with ⟨e | bound, s'⟩
  · rfl
  · simp only [Except.map, Proxy.logging, Proxy.bound, Route.service_logging]

theorem frontend_of_route {route : Route} (h : F.route = .ok route) :
    route.frontend = F.frontend := (Route.Table.ends_of_route h).1

/-- A socket is bound for the factory, and does not tell its address. -/
def Withheld (F : Factory) (c : BindCalls σ) (s : σ) (e : IoError) (s' : σ) : Prop :=
  ∃ route socket t, F.route = .ok route ∧ c.listen F.frontend s = (.ok (some socket), t) ∧
    c.localAddress socket t = (.error e, s')

/-- If a socket is bound for the factory, it tells its address, and tells the same once it has been
logged. -/
def ToldTwice (F : Factory) (c : BindCalls σ) (s : σ) : Prop :=
  ∀ route socket t, F.route = .ok route → c.listen F.frontend s = (.ok (some socket), t) →
    ∃ bound t' s', c.localAddress socket t = (.ok bound, t') ∧
      c.localAddress socket (c.log (F.frontend.boundNotice bound) t') = (.ok bound, s')

variable {c : BindCalls σ} {quiet verbose : Level}

theorem made_of_shows {level' : Level} (h : level.shows .debug = level'.shows .debug) :
    F.made c.binder level s = F.made c.binder level' s := by
  have hlogVsock : ∀ a : Address, c.logVsock level a = c.logVsock level' a := by
    intro a
    funext s
    cases a with
    | vsock e => simp only [BindCalls.logVsock, h]
    | _ => rfl
  cases hroute : F.route with
  | error e => rw [made_of_unrouted hroute, made_of_unrouted hroute]
  | ok route =>
    simp only [made_of_route hroute, BindCalls.openFrontend_binder, hlogVsock, h]

theorem made_of_withheld {e : IoError} {s' : σ} (h : F.Withheld c s e s') (level : Level) :
    F.made c.binder level s =
      (F.answer (.error (if level.shows .debug then .listen F.frontend e else .io e)), s') := by
  obtain ⟨route, socket, t, hroute, hlisten, haddress⟩ := h
  rw [← frontend_of_route hroute] at hlisten ⊢
  simp only [made_of_route hroute, BindCalls.openFrontend_binder, hlisten, haddress, Except.map]

/-- Levels of which only one shows the line make the same of a bound socket if it tells its address
as often as it is asked. -/
theorem made_eq_iff_of_socket {route : Route} {socket : Nat} {t : σ}
    (hquiet : quiet.shows .debug = false) (hverbose : verbose.shows .debug = true)
    (hroute : F.route = .ok route) (hlisten : c.listen F.frontend s = (.ok (some socket), t)) :
    (F.made c.binder quiet s).1 = (F.made c.binder verbose s).1 ↔
      ∃ bound t' s', c.localAddress socket t = (.ok bound, t') ∧
        c.localAddress socket (c.log (F.frontend.boundNotice bound) t') = (.ok bound, s') := by
  have hip := BindCalls.ip_of_listen hlisten
  rw [made_of_route hroute, made_of_route hroute, BindCalls.openFrontend_binder,
    BindCalls.openFrontend_binder, hquiet, hverbose, frontend_of_route hroute, hlisten]
  simp only [Bool.false_eq_true, if_false, if_true]
  rcases hfirst : c.localAddress socket t with ⟨e | bound, t'⟩
  · refine iff_of_false (fun h => ?_) nofun
    cases (answer_eq_iff (by simp [Except.map, Failure.isSoft])).mp h
  · dsimp only
    rcases hsecond : c.localAddress socket (c.log (F.frontend.boundNotice bound) t') with
      ⟨e | bound', s'⟩
    · refine iff_of_false (fun h => ?_) ?_
      · cases (answer_eq_iff (by simp [Except.map])).mp h
      · rintro ⟨bound', t'', s'', h, h'⟩
        cases h
        cases hsecond.symm.trans h'
    · rw [answer_eq_iff (by simp [Except.map])]
      simp only [Except.map, Proxy.bound, Except.ok.injEq, Proxy.mk.injEq, and_true,
        Address.boundTo_inj hip]
      constructor
      · rintro rfl
        exact ⟨bound, t', s', rfl, hsecond⟩
      · rintro ⟨bound'', t'', s'', h, h'⟩
        cases h
        cases hsecond.symm.trans h'
        rfl

theorem made_eq_iff (hquiet : quiet.shows .debug = false) (hverbose : verbose.shows .debug = true) :
    (F.made c.binder quiet s).1 = (F.made c.binder verbose s).1 ↔ F.ToldTwice c s := by
  cases hroute : F.route with
  | error e =>
    rw [made_of_unrouted hroute, made_of_unrouted hroute]
    exact iff_of_true rfl fun route socket t h => by cases hroute.symm.trans h
  | ok route =>
    -- without a socket there is nothing to ask, and the levels differ in a line at most
    have hunasked : ∀ answer t, c.listen F.frontend s = (answer, t) →
        (∀ socket, answer ≠ .ok (some socket)) →
        ((F.made c.binder quiet s).1 = (F.made c.binder verbose s).1 ↔ F.ToldTwice c s) := by
      intro answer t hlisten hnone
      refine iff_of_true ?_ fun route' socket t' _ h =>
        absurd (Prod.ext_iff.mp (hlisten.symm.trans h)).1 (hnone socket)
      rw [made_of_route hroute, made_of_route hroute, BindCalls.openFrontend_binder,
        BindCalls.openFrontend_binder, frontend_of_route hroute, hlisten]
      rcases answer with e | _ | socket
      · rfl
      · rfl
      · exact absurd rfl (hnone socket)
    rcases hlisten : c.listen F.frontend s with ⟨e | _ | socket, t⟩
    · exact hunasked _ _ hlisten nofun
    · exact hunasked _ _ hlisten nofun
    · rw [made_eq_iff_of_socket hquiet hverbose hroute hlisten]
      constructor
      · rintro h route' socket' t' - hlisten'
        cases hlisten.symm.trans hlisten'
        exact h
      · exact fun h => h route socket t hroute hlisten

/-- What the level of the log changes of a construction. -/
structure AtLevels (F : Factory) (c : BindCalls σ) (s : σ) : Prop where
  alike : ∀ level level' : Level, level.shows .debug = level'.shows .debug →
    F.made c.binder level s = F.made c.binder level' s
  same_iff : ∀ quiet verbose : Level, quiet.shows .debug = false → verbose.shows .debug = true →
    ((F.made c.binder quiet s).1 = (F.made c.binder verbose s).1 ↔ F.ToldTwice c s)
  quiet : ∀ level e s', F.Withheld c s e s' → level.shows .debug = false →
    F.made c.binder level s = ((.error (.io e), []), s')
  verbose : ∀ level e s', F.Withheld c s e s' → level.shows .debug = true →
    F.made c.binder level s =
      if F.skips ∧ e.kind = .addrNotAvailable then
        ((.ok none, [.frontendSkipped F.frontend]), s')
      else ((.error (.listen F.frontend e), []), s')

theorem atLevels (F : Factory) (c : BindCalls σ) (s : σ) : F.AtLevels c s := by
  constructor
  case alike => exact fun level level' h => made_of_shows h
  case same_iff => exact fun quiet verbose hquiet hverbose => made_eq_iff hquiet hverbose
  case quiet =>
    intro level e s' hwithheld hquiet
    rw [made_of_withheld hwithheld, hquiet]
    simp [answer, Failure.isSoft]
  case verbose =>
    intro level e s' hwithheld hverbose
    have hip : F.frontend.transport ≠ .vsock := by
      obtain ⟨route, socket, t, -, hlisten, -⟩ := hwithheld
      exact BindCalls.ip_of_listen hlisten
    rw [made_of_withheld hwithheld, hverbose]
    simp only [if_true, answer, Failure.isSoft, decide_eq_true_eq, hip, ne_eq, not_false_eq_true,
      true_and]
    split <;> rfl

end Factory

namespace Kernel

variable {k k' : Kernel} {socket : Nat} {bound : SocketAddress}

/-- The kernel but for what was logged. -/
def unlogged (k : Kernel) : Kernel := { k with notices := [] }

theorem unlogged_logVsock (level : Level) (a : Address) (k : Kernel) :
    (calls.logVsock level a k).unlogged = k.unlogged := by
  cases a with
  | vsock e =>
    simp only [BindCalls.logVsock]
    split <;> rfl
  | _ => rfl

/-- A socket that tells its address leaves no trace of it. -/
theorem eq_of_localAddress (h : k.localAddress socket = (.ok bound, k')) : k' = k := by
  simp only [localAddress, call] at h
  cases hfault : Fault.take? .getsockname k.faults with
  | some fault => simp [hfault] at h
  | none =>
    simp only [hfault] at h
    split at h <;> cases h
    rfl

theorem localAddress_log (k : Kernel) (socket : Nat) (n : Notice) :
    (k.log n).localAddress socket =
      ((k.localAddress socket).1, (k.localAddress socket).2.log n) := by
  simp only [localAddress, call, log]
  cases Fault.take? .getsockname k.faults with
  | some fault => rfl
  | none =>
    dsimp only
    split <;> rfl

/-- Opening a route leaves a kernel behind that only differs in its lines. -/
theorem unlogged_openFrontend (route : Route) (level : Level) (k : Kernel) :
    (route.openFrontend (calls.binder level) k).2.unlogged =
      (route.openFrontend (calls.binder .off) k).2.unlogged := by
  have hoff : Level.off.shows .debug = false := rfl
  rw [BindCalls.openFrontend_binder, BindCalls.openFrontend_binder, hoff]
  rcases calls.listen route.frontend k with ⟨e | _ | socket, k'⟩
  · rfl
  · simp only [unlogged_logVsock]
  · simp only [calls, Bool.false_eq_true, if_false]
    rcases hbound : k'.localAddress socket with ⟨e | bound, k''⟩
    · rfl
    · obtain rfl := eq_of_localAddress hbound
      dsimp only
      split
      · rw [localAddress_log, hbound]
        rfl
      · rfl

end Kernel

namespace Factory

variable {F : Factory} {k : Kernel}

theorem toldTwice_iff : F.ToldTwice Kernel.calls k ↔ ∀ e k', ¬ F.Withheld Kernel.calls k e k' := by
  constructor
  · rintro h e k' ⟨route, socket, t, hroute, hlisten, haddress⟩
    obtain ⟨bound, t', s', hbound, -⟩ := h route socket t hroute hlisten
    cases haddress.symm.trans hbound
  · intro h route socket t hroute hlisten
    rcases hbound : Kernel.calls.localAddress socket t with ⟨e | bound, t'⟩
    · exact absurd ⟨route, socket, t, hroute, hlisten, hbound⟩ (h e t')
    · obtain rfl := Kernel.eq_of_localAddress hbound
      have hbound : t'.localAddress socket = (.ok bound, t') := hbound
      refine ⟨bound, t', t'.log (F.frontend.boundNotice bound), rfl, ?_⟩
      exact (t'.localAddress_log socket _).trans (by rw [hbound])

/-- What the level of the log changes of a construction on a host. -/
structure OnHost (F : Factory) (k : Kernel) : Prop where
  same_iff : ∀ quiet verbose : Level, quiet.shows .debug = false → verbose.shows .debug = true →
    ((F.made .system quiet k).1 = (F.made .system verbose k).1 ↔
      ∀ e k', ¬ F.Withheld Kernel.calls k e k')
  /-- the same sockets, the same listeners, and the same calls are left to fail -/
  kernel : ∀ level level',
    (F.made .system level k).2.unlogged = (F.made .system level' k).2.unlogged

theorem onHost (F : Factory) (k : Kernel) : F.OnHost k := by
  constructor
  case same_iff =>
    intro quiet verbose hquiet hverbose
    rw [← BindCalls.binder_calls, made_eq_iff hquiet hverbose, toldTwice_iff]
  case kernel =>
    intro level level'
    rw [← BindCalls.binder_calls]
    cases hroute : F.route with
    | error e => rw [made_of_unrouted hroute, made_of_unrouted hroute]
    | ok route =>
      rw [made_of_route hroute, made_of_route hroute]
      exact (Kernel.unlogged_openFrontend route level k).trans
        (Kernel.unlogged_openFrontend route level' k).symm

end Factory

end PortForward
