import PortForward.Construction

/-!
# What setting up a proxy comes to

Whichever table chooses the route, setting up a proxy depends on the pair of addresses and on
two answers of the binder alone: to the one listen call that the frontend asks for, and to
the question for the address of the socket. A pair without a route costs no listen call.
-/

namespace PortForward

variable {σ : Type}

/-- The listen call that a frontend asks for. Of a vsock frontend only the port is told. -/
def Address.bindCall : Address → BindCall
  | stream s => .stream s
  | datagram s => .datagram s
  | vsock e => .vsock e.port

/-- A frontend once its socket is bound. Vsock has no socket that tells an address. -/
def Address.boundTo (bound : SocketAddress) : Address → Address
  | stream _ => stream bound
  | datagram _ => datagram bound
  | vsock e => vsock e

/-- The answer to a listen call: the socket that can be asked for its address, if any. -/
def Binder.listen (b : Binder σ) : BindCall → σ → Except IoError (Option Nat) × σ
  | .stream a, s => let (answer, s) := b.stream a s; (answer.map some, s)
  | .datagram a, s => let (answer, s) := b.datagram a s; (answer.map some, s)
  | .vsock port, s => let (answer, s) := b.vsock port s; (answer.map fun _ => none, s)

def Service.carriesDatagrams : Service → Bool
  | stream _ => false
  | framed _ | datagram _ => true

namespace Route

/-- The tables that a route can be chosen from. -/
inductive Table
  | ip
  | vsock
  | any
  deriving DecidableEq, Repr

namespace Table

def route : Table → Address → Address → Except Failure Route
  | ip => ofIp
  | vsock => ofVsock
  | any => of

/-- The factory that goes by a table. The one for vsock is given a vsock frontend. -/
def make (b : Binder σ) (level : Level) : Table → Address → Address → σ → Except Failure Proxy × σ
  | ip, f, t, s => Proxy.makeIp b level f t s
  | any, f, t, s => Proxy.make b level f t s
  | vsock, .vsock e, t, s => Proxy.makeVsock b level e t s
  | vsock, f, t, s => Proxy.ofRoute (ofVsock f t) b level s

theorem make_eq (table : Table) (b : Binder σ) (level : Level) (f t : Address) (s : σ) :
    table.make b level f t s = Proxy.ofRoute (table.route f t) b level s := by
  cases table with
  | ip => rfl
  | any => rfl
  | vsock => cases f <;> rfl

end Table

theorem error_of_ofIp {f t : Address} {e : Failure} (h : ofIp f t = .error e) :
    e = .unsupported f.transport t.transport := by
  cases f <;> cases t <;> cases h <;> rfl

theorem error_of_ofVsock {f t : Address} {e : Failure} (h : ofVsock f t = .error e) :
    e = .unsupported f.transport t.transport := by
  cases f <;> cases t <;> cases h <;> rfl

theorem ends_of_ofIp {f t : Address} {route : Route} (h : ofIp f t = .ok route) :
    route.frontend = f ∧ route.backend = t := by
  cases f <;> cases t <;> cases h <;> exact ⟨rfl, rfl⟩

theorem ends_of_ofVsock {f t : Address} {route : Route} (h : ofVsock f t = .ok route) :
    route.frontend = f ∧ route.backend = t := by
  cases f <;> cases t <;> cases h <;> exact ⟨rfl, rfl⟩

/-- A pair without a route is refused for the transports of the two addresses. -/
theorem Table.error_of_route {table : Table} {f t : Address} {e : Failure}
    (h : table.route f t = .error e) : e = .unsupported f.transport t.transport := by
  cases table with
  | ip => exact error_of_ofIp h
  | vsock => exact error_of_ofVsock h
  | any =>
    cases f with
    | vsock f => exact error_of_ofVsock h
    | stream f => exact error_of_ofIp h
    | datagram f => exact error_of_ofIp h

/-- A route leads from the frontend to the backend that it was chosen for. -/
theorem Table.ends_of_route {table : Table} {f t : Address} {route : Route}
    (h : table.route f t = .ok route) : route.frontend = f ∧ route.backend = t := by
  cases table with
  | ip => exact ends_of_ofIp h
  | vsock => exact ends_of_ofVsock h
  | any =>
    cases f with
    | vsock f => exact ends_of_ofVsock h
    | stream f => exact ends_of_ofIp h
    | datagram f => exact ends_of_ofIp h

/-- Opening a route is listening on its frontend, and asking the socket for its address. -/
theorem openFrontend_eq (route : Route) (b : Binder σ) (s : σ) :
    route.openFrontend b s =
      match b.listen route.frontend.bindCall s with
      | (.error e, s) => (.error (.listen route.frontend e), s)
      | (.ok none, s) => (.ok route.frontend, s)
      | (.ok (some socket), s) =>
        match b.localAddress socket s with
        | (.error e, s) => (.error (.io e), s)
        | (.ok bound, s) => (.ok (route.frontend.boundTo bound), s) := by
  cases route with
  | datagram f t =>
    simp only [openFrontend, Binder.openIp, frontend, Address.bindCall, Binder.listen]
    rcases h : b.datagram f s with ⟨e | socket, s'⟩
    · simp only [h, Except.map]
    · simp only [h, Except.map]
      rfl
  | stream f t =>
    simp only [openFrontend, Binder.openIp, frontend, Address.bindCall, Binder.listen]
    rcases h : b.stream f s with ⟨e | socket, s'⟩
    · simp only [h, Except.map]
    · simp only [h, Except.map]
      rfl
  | vsockStream f t | vsockDatagram f t =>
    simp only [openFrontend, Binder.openVsock, frontend, Address.bindCall, Binder.listen]
    rcases h : b.vsock f.port s with ⟨e | _, s'⟩ <;> simp only [h, Except.map]

theorem service_backend (route : Route) (level : Level) :
    (route.service level).backend = route.backend := by
  cases route <;> rfl

theorem carriesDatagrams_iff (route : Route) (level : Level) :
    (route.service level).carriesDatagrams ↔ route.backend.transport = .datagram := by
  cases route with
  | stream f t => cases t <;> exact iff_of_false Bool.false_ne_true nofun
  | vsockStream f t => exact iff_of_false Bool.false_ne_true nofun
  | datagram f t | vsockDatagram f t => exact iff_of_true rfl rfl

end Route

namespace Binder

variable (b : Binder σ) (s : σ) (calls : List BindCall)

theorem listen_noting (call : BindCall) :
    b.noting.listen call (s, calls) =
      ((b.listen call s).1, (b.listen call s).2, calls ++ [call]) := by
  cases call <;> rfl

theorem localAddress_noting (socket : Nat) :
    b.noting.localAddress socket (s, calls) =
      ((b.localAddress socket s).1, (b.localAddress socket s).2, calls) := rfl

end Binder

/-- Opening a route makes one listen call, and what is noted of it changes nothing. -/
theorem Route.openFrontend_noting (route : Route) (b : Binder σ) (s : σ) (calls : List BindCall) :
    route.openFrontend b.noting (s, calls) =
      ((route.openFrontend b s).1, (route.openFrontend b s).2,
        calls ++ [route.frontend.bindCall]) := by
  simp only [openFrontend_eq, Binder.listen_noting]
  rcases b.listen route.frontend.bindCall s with ⟨e | _ | socket, s'⟩
  · rfl
  · rfl
  · simp only [Binder.localAddress_noting]
    rcases b.localAddress socket s' with ⟨e | bound, s''⟩ <;> rfl

theorem Route.build_noting (route : Route) (b : Binder σ) (level : Level) (s : σ)
    (calls : List BindCall) :
    route.build b.noting level (s, calls) =
      ((route.build b level s).1, (route.build b level s).2,
        calls ++ [route.frontend.bindCall]) := by
  simp only [build, openFrontend_noting]
  rcases route.openFrontend b s with ⟨e | bound, s'⟩ <;> rfl

/-- A proxy made for a pair of addresses: bound to the first, ready to forward to the second,
and not yet run. -/
structure Proxy.MadeFor (frontend backend : Address) (p : Proxy) : Prop where
  frontend_eq : p.frontend = frontend
  backend_eq : p.backend = backend
  datagrams_iff : p.service.carriesDatagrams ↔ backend.transport = .datagram
  unclosed : p.isClosed = false
  bound : p.isBound = true
  unrun : p.runs = []
  starts : p.run.1.runs = [.running]

theorem Route.madeFor_service (route : Route) (level : Level) (bound : Address) :
    (Proxy.bound bound (route.service level)).MadeFor bound route.backend where
  frontend_eq := rfl
  backend_eq := route.service_backend level
  datagrams_iff := route.carriesDatagrams_iff level
  unclosed := rfl
  bound := rfl
  unrun := rfl
  starts := rfl

/-- What setting up a proxy comes to, if the pair has no route, the listen call fails, the socket
does not tell its address, or nothing fails. -/
structure SetUp (table : Route.Table) (b : Binder σ) (level : Level) (frontend backend : Address)
    (s : σ) : Prop where
  rejected : ∀ e, table.route frontend backend = .error e →
    table.make b level frontend backend s =
      (.error (.unsupported frontend.transport backend.transport), s)
  unheard : ∀ route e s', table.route frontend backend = .ok route →
    b.listen frontend.bindCall s = (.error e, s') →
    table.make b level frontend backend s = (.error (.listen frontend e), s')
  unnamed : ∀ route socket e s' s'', table.route frontend backend = .ok route →
    b.listen frontend.bindCall s = (.ok (some socket), s') →
    b.localAddress socket s' = (.error e, s'') →
    table.make b level frontend backend s = (.error (.io e), s'')
  named : ∀ route socket bound s' s'', table.route frontend backend = .ok route →
    b.listen frontend.bindCall s = (.ok (some socket), s') →
    b.localAddress socket s' = (.ok bound, s'') →
    ∃ p : Proxy, table.make b level frontend backend s = (.ok p, s'') ∧
      p.MadeFor (frontend.boundTo bound) backend
  /-- only a vsock frontend has no socket to be asked -/
  nameless : ∀ route s', table.route frontend backend = .ok route →
    b.listen frontend.bindCall s = (.ok none, s') →
    ∃ p : Proxy, table.make b level frontend backend s = (.ok p, s') ∧ p.MadeFor frontend backend ∧
      frontend.transport = .vsock
  /-- one listen call for a pair with a route, and none without -/
  calls : ∀ noted, table.make b.noting level frontend backend (s, noted) =
    ((table.make b level frontend backend s).1, (table.make b level frontend backend s).2,
      match table.route frontend backend with
      | .ok _ => noted ++ [frontend.bindCall]
      | .error _ => noted)

theorem Binder.transport_of_listen {b : Binder σ} {frontend : Address} {s s' : σ}
    (h : b.listen frontend.bindCall s = (.ok none, s')) : frontend.transport = .vsock := by
  cases frontend with
  | vsock e => rfl
  | stream a =>
    simp only [Address.bindCall, listen] at h
    rcases hcall : b.stream a s with ⟨e | socket, t⟩ <;> simp [hcall, Except.map] at h
  | datagram a =>
    simp only [Address.bindCall, listen] at h
    rcases hcall : b.datagram a s with ⟨e | socket, t⟩ <;> simp [hcall, Except.map] at h

theorem Kernel.vsockBinds_call (c : SystemCall) (k : Kernel) :
    (k.call c).2.vsockBinds = k.vsockBinds := by
  unfold call
  split <;> rfl

theorem Kernel.vsockBinds_openSocket (k : Kernel) : k.openSocket.2.vsockBinds = k.vsockBinds := by
  have hsocket := k.vsockBinds_call .socket
  rcases h : k.call .socket with ⟨e | _, k'⟩
  · simp only [openSocket, h] at hsocket ⊢
    exact hsocket
  · simp only [openSocket, h] at hsocket ⊢
    exact (k'.vsockBinds_call .bind).trans hsocket

/-- Listening on vsock on the host fails and binds nothing, or binds the port for every context. -/
theorem Binder.system_vsock_cases (log : Level) (port : UInt32) (k : Kernel) :
    (∃ e k', (system log).vsock port k = (.error e, k') ∧ k'.vsockBinds = k.vsockBinds) ∨
      ∃ k', (system log).vsock port k = (.ok (), k') ∧
        k'.vsockBinds = k.vsockBinds ++ [⟨Cid.anyRaw, port⟩] := by
  have hopen := k.vsockBinds_openSocket
  rcases h : k.openSocket with ⟨e | _, k'⟩
  · rw [h] at hopen
    exact .inl ⟨e, k', by simp only [system, bindVsockLogged, Kernel.bindVsock, h], hopen⟩
  · rw [h] at hopen
    refine .inr ⟨((system log).vsock port k).2, ?_, ?_⟩
    · simp only [system, bindVsockLogged, Kernel.bindVsock, h]
    · simp only [system, bindVsockLogged, Kernel.bindVsock, h]
      split <;> exact congrArg (· ++ _) hopen

theorem Route.Table.make_of_route {table : Route.Table} {frontend backend : Address} {route : Route}
    (h : table.route frontend backend = .ok route) (b : Binder σ) (level : Level) (s : σ) :
    table.make b level frontend backend s = route.build b level s := by
  rw [table.make_eq, h]
  rfl

theorem setUp_of_answers (table : Route.Table) (b : Binder σ) (level : Level)
    (frontend backend : Address) (s : σ) : SetUp table b level frontend backend s := by
  constructor
  case rejected =>
    intro e he
    rw [table.make_eq, he, Route.Table.error_of_route he]
    rfl
  case unheard =>
    intro route e s' hroute hlisten
    obtain ⟨rfl, rfl⟩ := Route.Table.ends_of_route hroute
    rw [Route.Table.make_of_route hroute, Route.build, Route.openFrontend_eq, hlisten]
  case unnamed =>
    intro route socket e s' s'' hroute hlisten haddress
    obtain ⟨rfl, rfl⟩ := Route.Table.ends_of_route hroute
    rw [Route.Table.make_of_route hroute, Route.build, Route.openFrontend_eq, hlisten]
    simp only [haddress]
  case named =>
    intro route socket bound s' s'' hroute hlisten haddress
    obtain ⟨rfl, rfl⟩ := Route.Table.ends_of_route hroute
    refine ⟨_, ?_, route.madeFor_service level (route.frontend.boundTo bound)⟩
    rw [Route.Table.make_of_route hroute, Route.build, Route.openFrontend_eq, hlisten]
    simp only [haddress]
  case nameless =>
    intro route s' hroute hlisten
    have hvsock := Binder.transport_of_listen hlisten
    obtain ⟨rfl, rfl⟩ := Route.Table.ends_of_route hroute
    refine ⟨_, ?_, route.madeFor_service level route.frontend, hvsock⟩
    rw [Route.Table.make_of_route hroute, Route.build, Route.openFrontend_eq, hlisten]
  case calls =>
    intro noted
    cases hroute : table.route frontend backend with
    | error e =>
      rw [table.make_eq, table.make_eq, hroute]
      rfl
    | ok route =>
      obtain ⟨rfl, rfl⟩ := Route.Table.ends_of_route hroute
      rw [Route.Table.make_of_route hroute, Route.Table.make_of_route hroute]
      exact route.build_noting b level s noted

/-- Every factory keeps to what its table, the listen call and the socket's address come to; and
on the host a vsock frontend is bound for every context, whatever its own context is. -/
theorem setUp_of_table (table : Route.Table) (b : Binder σ) (level : Level)
    (frontend backend : Address) (s : σ) :
    SetUp table b level frontend backend s ∧
      ∀ log k, ∀ e : VsockEndpoint, frontend = .vsock e →
        match table.make (.system log) level frontend backend k with
        | (.ok _, k') => k'.vsockBinds = k.vsockBinds ++ [⟨Cid.anyRaw, e.port⟩]
        | (.error _, k') => k'.vsockBinds = k.vsockBinds := by
  refine ⟨setUp_of_answers table b level frontend backend s, ?_⟩
  rintro log k e rfl
  have hsetUp := setUp_of_answers table (.system log) level (.vsock e) backend k
  cases hroute : table.route (.vsock e) backend with
  | error e => rw [hsetUp.rejected e hroute]
  | ok route =>
    rcases Binder.system_vsock_cases log e.port k with
      ⟨cause, k', hcall, hbinds⟩ | ⟨k', hcall, hbinds⟩
    · have hlisten :
          (Binder.system log).listen (Address.vsock e).bindCall k = (.error cause, k') := by
        simp only [Address.bindCall, Binder.listen, hcall, Except.map]
      rw [hsetUp.unheard route cause k' hroute hlisten]
      exact hbinds
    · have hlisten :
          (Binder.system log).listen (Address.vsock e).bindCall k = (.ok none, k') := by
        simp only [Address.bindCall, Binder.listen, hcall, Except.map]
      obtain ⟨p, hmade, -⟩ := hsetUp.nameless route k' hroute hlisten
      rw [hmade]
      exact hbinds

/-- A vsock frontend with a context of its own: without a route in one table, refused by the host
in the other, and bound when the host does not refuse. -/
theorem setUp_own_context :
    let frontend : Address := .vsock ⟨.id 3, 5000⟩
    let backend : Address := .datagram (.v4 .loopback 5353)
    let free := Kernel.fresh .isolated []
    let guarded := Kernel.fresh .isolated [⟨.bind, 13⟩]
    let host := Binder.system .info
    Route.Table.ip.make host .info frontend backend free =
        (.error (.unsupported .vsock .datagram), free) ∧
      (Route.Table.any.make host .info frontend backend guarded).1 =
        .error (.listen frontend (.os 13)) ∧
      ∃ p k, Route.Table.any.make host .info frontend backend free = (.ok p, k) ∧
        p.MadeFor frontend backend ∧ k.vsockBinds = [⟨4294967295, 5000⟩] ∧
        (Route.Table.any.make host.noting .info frontend backend (free, [])).2.2 =
          [.vsock 5000] := by
  intro frontend backend free guarded host
  obtain ⟨hnone, -⟩ := setUp_of_table .ip host .info frontend backend free
  obtain ⟨hguarded, -⟩ := setUp_of_table .any host .info frontend backend guarded
  obtain ⟨hfree, hbinds⟩ := setUp_of_table .any host .info frontend backend free
  refine ⟨hnone.rejected _ rfl, ?_, ?_⟩
  · rw [hguarded.unheard _ (.os 13) { guarded with faults := [] } rfl rfl]
  · obtain ⟨p, hmade, hp, -⟩ :=
      hfree.nameless _ { free with vsockBinds := [⟨4294967295, 5000⟩] } rfl rfl
    have hbound := hbinds .info free _ rfl
    rw [hmade] at hbound
    refine ⟨p, _, hmade, hp, hbound, ?_⟩
    rw [hfree.calls []]
    rfl

end PortForward
