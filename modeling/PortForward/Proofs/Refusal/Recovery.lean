import PortForward.Proofs.Refusal.Datagram
import PortForward.Proofs.Refusal.Framed

/-!
# Recovery from refusals

What holds of both kinds of datagram proxies, together with what the network does with what they
send: while the backend is up it is given every datagram, once.
-/

namespace PortForward

open DatagramRelay

/-- Whenever the backend goes down and comes up, and whoever is told of a refusal, none is fatal and
none costs a later datagram. -/
theorem withstands_refusals (frontend : Address) (backend : SocketAddress) (level : Level)
    (timeout : Nat) (up : Bool) (events : List Scene.Event) (scene : Scene) :
    let datagrams : Scene := ⟨.ofDatagrams frontend backend level timeout, .fresh up⟩
    let frames : Scene := ⟨.bound frontend (.framed (.idle backend)), .fresh up⟩
    (datagrams.runAll events = some scene →
      ∃ past r dispatches, History .datagram datagrams.proxy past scene.proxy r ∧
        past.map (·.event) = events.filterMap Scene.Event.proxy? ∧
        r.Withstands backend timeout past scene dispatches ∧ datagrams.Heard events scene) ∧
    (frames.runAll events = some scene →
      ∃ past s, History .framed frames.proxy past scene.proxy s ∧
        past.map (·.event) = events.filterMap Scene.Event.proxy? ∧
        s.Withstands past scene ∧ frames.Heard events scene) := by
  intro datagrams frames
  constructor
  · intro hrun
    obtain ⟨past, r, hist, hevents, hspared⟩ := DatagramRelay.spared_of_runAll hrun
    obtain ⟨dispatches, hwithstands⟩ := DatagramRelay.withstands_of_history hist hspared
    exact ⟨past, r, dispatches, hist, hevents, hwithstands, Scene.heard_of_runAll hrun⟩
  · intro hrun
    obtain ⟨past, s, hist, hevents, hspared⟩ := FramedService.spared_of_runAll hrun
    have hwithstands := FramedService.withstands_of_history hist hspared
    exact ⟨past, s, hist, hevents, hwithstands, Scene.heard_of_runAll hrun⟩

/-- The backend is down at first, comes up while the second datagram is being sent, and is down
again for the third one. Of the two refusals, one is reported to the send and one to the receive. -/
theorem withstands_refusals_reported_to_both :
    let frontend : Address := .datagram (.v4 .loopback 53)
    let backend : SocketAddress := .v4 .loopback 5353
    let client : SocketAddress := .v4 .loopback 5001
    let opening : Opening := ⟨.ok (), .ok (.v4 .loopback 6000)⟩
    let refused : IoError := .os 111
    let timeout : Nat := DatagramRelay.defaultTimeout
    let datagrams : Scene := ⟨.ofDatagrams frontend backend .info timeout, .fresh false⟩
    let frames : Scene := ⟨.bound frontend (.framed (.idle backend)), .fresh false⟩
    let run (events : List Proxy.Event) : List Scene.Event := events.map .proxy
    let relayed : List Scene.Event :=
      run (.run :: ofRelay [.sweep, .receive (.ok (client, [1])), .lookUp opening, .send (.ok ()),
        .receive (.ok (client, [2])), .lookUp opening, .send (.error refused)]) ++
      [.turn true] ++
      run (ofRelay [.send (.ok ()), .receive (.ok (client, [3])), .lookUp opening]) ++
      [.turn false] ++
      run (ofRelay [.send (.ok ()), .replyReceive 0 (.error refused)]) ++
      [.turn true] ++
      run (ofRelay [.receive (.ok (client, [4])), .lookUp opening, .send (.ok ())])
    let framed : List Scene.Event :=
      run ([.run, .service (.framed (.accept (.ok (.vsock ⟨.id 3, 1024⟩))))] ++
        ofConnection 0 [.announce, .opened (.ok ()),
          .read (.ok [1, 0, 1, 1, 0, 2, 1, 0, 3, 1, 0, 4]), .decode, .send (.ok ()), .decode,
          .send (.error refused)]) ++
      [.turn true] ++
      run (ofConnection 0 [.send (.ok ()), .decode]) ++
      [.turn false] ++
      run (ofConnection 0 [.send (.ok ()), .receive (.error refused)]) ++
      [.turn true] ++
      run (ofConnection 0 [.decode, .send (.ok ())])
    (∃ scene, datagrams.runAll relayed = some scene ∧
      scene.network.received = [(0, [2]), (0, [4])] ∧
      ∃ past r dispatches, History .datagram datagrams.proxy past scene.proxy r ∧
        past.map (·.event) = relayed.filterMap Scene.Event.proxy? ∧
        r.Withstands backend timeout past scene dispatches ∧ datagrams.Heard relayed scene) ∧
    (∃ scene, frames.runAll framed = some scene ∧
      scene.network.received = [(0, [2]), (0, [4])] ∧
      ∃ past s, History .framed frames.proxy past scene.proxy s ∧
        past.map (·.event) = framed.filterMap Scene.Event.proxy? ∧
        s.Withstands past scene ∧ frames.Heard framed scene) := by
  intro frontend backend client opening refused timeout datagrams frames run relayed framed
  constructor
  · have hfinal : (datagrams.runAll relayed).map (·.network.received) =
        some [(0, [2]), (0, [4])] := by decide +kernel
    obtain ⟨scene, hrun, hreceived⟩ := Option.map_eq_some_iff.mp hfinal
    exact ⟨scene, hrun, hreceived,
      (withstands_refusals frontend backend .info timeout false relayed scene).1 hrun⟩
  · have hfinal : (frames.runAll framed).map (·.network.received) =
        some [(0, [2]), (0, [4])] := by decide +kernel
    obtain ⟨scene, hrun, hreceived⟩ := Option.map_eq_some_iff.mp hfinal
    exact ⟨scene, hrun, hreceived,
      (withstands_refusals frontend backend .info timeout false framed scene).2 hrun⟩

end PortForward
