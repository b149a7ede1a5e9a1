import FISim.Multipath.HandshakeClient
import FISim.Multipath.HandshakeServer

/-!
What each action does to the invariant of the whole handshake, and the agreement
of client and server over whole runs.
-/

namespace FISim.Handshake

variable {Client : Type} [DecidableEq Client] {state next : State Client} {ghost : Ghost Client}

theorem clients_update (link : Link Client) {new : Stage} {host : ClientHost}
    (clients : ∀ client, ClientOk (fun index => ghost.stage (client, index))
      (ghost.founder client) (ghost.ident client) (state.client client))
    (ok : ClientOk (Function.update (fun index => ghost.stage (link.1, index)) link.2 new)
      (ghost.founder link.1) (ghost.ident link.1) host) :
    ∀ client, ClientOk (fun index => Function.update ghost.stage link new (client, index))
      (ghost.founder client) (ghost.ident client)
      (Function.update state.client link.1 host client) := by
  intro client
  by_cases same : client = link.1
  · subst same
    rw [stage_update_same, Function.update_self]
    exact ok
  · rw [stage_update_other _ _ _ same, Function.update_of_ne same]
    exact clients client

theorem settled_update {link : Link Client} {new : Stage}
    (settled : new.settled = (ghost.stage link).settled) (other : Link Client) :
    (Function.update ghost.stage link new other).settled = (ghost.stage other).settled := by
  by_cases same : other = link
  · subst same
    simp [settled]
  · simp [same]

theorem Inv.serverFrame {after : Ghost Client} (inv : Inv state ghost) {client : Client}
    {host : ClientHost} (key : host.conn.localKey = (state.client client).conn.localKey)
    (stage : ∀ link, (after.stage link).settled = (ghost.stage link).settled)
    (founder : ∀ client first, (ghost.stage (client, first)).settled = true →
      (after.founder client = some first ↔ ghost.founder client = some first))
    (ident : after.ident = ghost.ident) :
    ServerOk after (fun other => (Function.update state.client client host other).conn.localKey)
      state.server state.serverPath := by
  rw [localKey_update key]
  exact inv.server.frame stage founder ident

theorem Inv.report (inv : Inv state ghost) {link : Link Client} {path : SinglePath} {ready : Bool}
    (dialing : state.dialing link = true)
    (key : path.localKey = ((state.client link.1).paths link.2).localKey) :
    ∃ ghost, Inv { state with
      dialing := Function.update state.dialing link false
      client := Function.update state.client link.1
        (addRawPath (state.client link.1) link.2 path ready) } ghost := by
  have ok := inv.links link
  have stage : ghost.stage link = .dialing := ok.dialing.mp dialing
  obtain ⟨rawReadyPath, rawFailPath, conn⟩ :=
    addRawPath_conn (state.client link.1) link.2 path ready
  have localKey : (addRawPath (state.client link.1) link.2 path ready).conn.localKey =
      (state.client link.1).conn.localKey := by rw [conn]
  let new : Stage := if ready then .raw else .failed
  have early : new.begun = false ∧ new ≠ .dialing ∧ new.settled = false := by
    cases ready <;> decide
  refine ⟨{ ghost with stage := Function.update ghost.stage link new }, ?_, ?_, ?_⟩
  · intro other
    by_cases same : other = link
    · subst same
      refine linkOk_early (by simp [view, early]) ?_ (by simp [view, early])
        (ok.quietUp (by simp [view, stage])) (ok.quietDown (by simp [view, stage]))
        (ok.listening (by simp [view, stage, Stage.settled]))
      simp only [view, Function.update_self, localKey]
      simp only [addRawPath, Function.update_self]
      exact key.trans ok.key
    · exact (inv.links other).frame same rfl localKey
        (fun index distinct => by simp [addRawPath, distinct]) rfl (by simp [same]) rfl rfl
        (by simp [same]) rfl (Or.inl rfl)
  · exact clients_update link inv.clients ((inv.clients link.1).report stage)
  · exact inv.serverFrame localKey (settled_update (by rw [stage]; exact early.2.2))
      (fun _ _ _ => Iff.rfl) rfl

theorem Inv.accepted (inv : Inv state ghost) {link : Link Client} {path : SinglePath}
    (free : state.serverPath link = none) (listening : path.pathState = .listen)
    (nonzero : path.localKey ≠ 0)
    (distinct : ∀ other otherPath, state.serverPath other = some otherPath →
      otherPath.localKey ≠ path.localKey) :
    Inv { state with serverPath := Function.update state.serverPath link (some path) } ghost := by
  have unsettled : (ghost.stage link).settled = false := by
    cases settled : (ghost.stage link).settled with
    | false => rfl
    | true =>
        obtain ⟨path, found, _⟩ := (inv.links link).bound settled
        simp [view, free] at found
  have others : ∀ other, (ghost.stage other).settled = true →
      Function.update state.serverPath link (some path) other = state.serverPath other := by
    intro other settled
    have apart : other ≠ link := by
      rintro rfl
      rw [unsettled] at settled
      cases settled
    simp [apart]
  have owner : ∀ {client peer first}, Owner ghost state.serverPath client peer first →
      Owner ghost (Function.update state.serverPath link (some path)) client peer first := by
    intro client peer first owner
    refine { owner with localKey := ?_ }
    intro ending found
    rw [others _ owner.settled] at found
    exact owner.localKey ending found
  refine ⟨?_, inv.clients, ?_, ?_, ?_, ?_, ?_⟩
  · intro other
    have ok := inv.links other
    refine { ok with listening := ?_, bound := ?_ }
    · intro settled ending found
      by_cases same : other = link
      · subst same
        simp only [view, Function.update_self, Option.some.injEq] at found
        rw [← found]
        exact listening
      · simp only [view, Function.update_of_ne same] at found
        exact ok.listening settled ending found
    · intro settled
      obtain ⟨ending, found, same⟩ := ok.bound settled
      exact ⟨ending, (others other settled).trans found, same⟩
  · intro other ending found
    change Function.update state.serverPath link (some path) other = some ending at found
    by_cases same : other = link
    · subst same
      rw [Function.update_self, Option.some.injEq] at found
      rw [← found]
      exact nonzero
    · rw [Function.update_of_ne same] at found
      exact inv.server.keys other ending found
  · intro one ending two otherPath found otherFound same
    change Function.update state.serverPath link (some path) one = some ending at found
    change Function.update state.serverPath link (some path) two = some otherPath at otherFound
    by_cases here : one = link
    · by_cases there : two = link
      · rw [here, there]
      · subst here
        rw [Function.update_self, Option.some.injEq] at found
        rw [Function.update_of_ne there] at otherFound
        rw [← found] at same
        exact absurd same.symm (distinct two otherPath otherFound)
    · rw [Function.update_of_ne here] at found
      by_cases there : two = link
      · subst there
        rw [Function.update_self, Option.some.injEq] at otherFound
        rw [← otherFound] at same
        exact absurd same (distinct one ending found)
      · rw [Function.update_of_ne there] at otherFound
        exact inv.server.distinct one ending two otherPath found otherFound same
  · intro number peer found
    obtain ⟨client, first, owned, numbered⟩ := inv.server.owned number peer found
    exact ⟨client, first, owner owned, numbered⟩
  · intro client first founded settled
    obtain ⟨number, peer, numbered, found, owned⟩ :=
      inv.server.served client first founded settled
    exact ⟨number, peer, numbered, found, owner owned⟩
  · intro client first ending founded settled found
    change Function.update state.serverPath link (some path) (client, first) = some ending at found
    rw [others _ settled] at found
    exact inv.server.ident client first ending founded settled found

omit [DecidableEq Client] in
theorem LinkOk.answer {after : Ghost Client} {link : Link Client} {path : SinglePath}
    {reply : MultipathHeader} (ok : LinkOk (view state ghost link))
    (asking : ghost.stage link = .asking)
    (stage : after.stage link = .answered) (founder : after.founder = ghost.founder)
    (client : next.client = state.client) (dialing : next.dialing = state.dialing)
    (serverPath : next.serverPath link = some path) (connID : path.connID = after.ident link.1)
    (up : next.up link = []) (down : next.down link = [reply.serialize])
    (key : reply.senderKey ≠ 0) (connId : reply.connId = after.ident link.1)
    (ident : ghost.founder link.1 ≠ some link.2 → after.ident link.1 = ghost.ident link.1) :
    LinkOk (view next after link) := by
  have waiting := ok.waiting (Or.inl asking)
  have notDialing : state.dialing link = false := by
    cases dials : state.dialing link with
    | false => rfl
    | true =>
        have := ok.dialing.mp dials
        rw [show (view state ghost link).stage = .asking from asking] at this
        cases this
  constructor
  · simp only [view, client]
    exact ok.key
  · simp [view, stage, dialing, notDialing]
  · simp [view, stage]
  · exact fun _ => up
  · exact fun _ => ⟨reply, down, key, connId⟩
  · simp [view, stage]
  · intro _
    refine ⟨?_, ?_⟩
    · simp only [view, client, founder]
      exact waiting.1
    · simp only [view, client, founder]
      intro joins
      rw [ident joins]
      exact waiting.2 joins
  · simp [view, stage]
  · simp [view, stage, Stage.settled]
  · exact fun _ => ⟨path, serverPath, connID⟩

theorem Inv.founder_of_begun (inv : Inv state ghost) (link : Link Client)
    (begun : (ghost.stage link).begun = true) : ∃ first, ghost.founder link.1 = some first ∧
      (first = link.2 ∨ first ≠ link.2 ∧ ghost.stage (link.1, first) = .member) := by
  cases founder : ghost.founder link.1 with
  | none =>
      have early := (inv.clients link.1).unfounded founder link.2
      exact absurd (begun.symm.trans early) (by decide)
  | some first =>
      refine ⟨first, rfl, ?_⟩
      by_cases same : first = link.2
      · exact Or.inl same
      · refine Or.inr ⟨same, ?_⟩
        by_contra unfinished
        have early := (inv.clients link.1).alone first founder unfinished link.2 (Ne.symm same)
        exact absurd (begun.symm.trans early) (by decide)

theorem Inv.ident_ne_zero (inv : Inv state ghost) (link : Link Client)
    (settled : (ghost.stage link).settled = true) : ghost.ident link.1 ≠ 0 := by
  have begun : (ghost.stage link).begun = true := by
    revert settled
    cases ghost.stage link <;> decide
  obtain ⟨first, founder, place⟩ := inv.founder_of_begun link begun
  have founderSettled : (ghost.stage (link.1, first)).settled = true := by
    rcases place with same | ⟨_, member⟩
    · rw [same]
      exact settled
    · rw [member]
      rfl
  obtain ⟨path, found, _⟩ := (inv.links (link.1, first)).bound founderSettled
  rw [inv.server.ident link.1 first path founder founderSettled found]
  exact spKeysToConnId_ne_zero (inv.clients link.1).key

theorem Inv.answered (inv : Inv state ghost) {link : Link Client} {connID : MpConnId}
    {server : CybertwinDataTransferServer (Link Client)} {path ending : SinglePath}
    {reply : MultipathHeader} {pending : List (Link Client × PathEvent)}
    (asking : ghost.stage link = .asking)
    (kept : ghost.founder link.1 ≠ some link.2 → connID = ghost.ident link.1)
    (found : state.serverPath link = some path) (endID : ending.connID = connID)
    (key : reply.senderKey = path.localKey) (replyID : reply.connId = connID)
    (ok : ServerOk (ghost.answer link connID) (fun client => (state.client client).conn.localKey)
      server (Function.update state.serverPath link (some ending))) :
    Inv { state with
      server, serverPath := Function.update state.serverPath link (some ending),
      serverPending := pending, up := Function.update state.up link [],
      down := Function.update state.down link (state.down link ++ [reply.serialize]) }
      (ghost.answer link connID) := by
  have quiet : state.down link = [] := (inv.links link).quietDown (by
    change ghost.stage link ≠ .answered
    rw [asking]
    decide)
  have sent : Function.update state.down link (state.down link ++ [reply.serialize]) link =
      [reply.serialize] := by rw [Function.update_self, quiet, List.nil_append]
  refine ⟨?_, ?_, ok⟩
  · intro other
    by_cases same : other = link
    · subst same
      refine (inv.links other).answer asking (ghost.answer_stage other connID) rfl rfl rfl
        (Function.update_self _ _ _) ?_ (Function.update_self _ _ _) sent ?_ ?_ ?_
      · rw [ghost.answer_ident, endID]
      · rw [key]
        exact inv.server.keys other path found
      · rw [ghost.answer_ident, replyID]
      · rw [ghost.answer_ident]
        exact kept
    · refine (inv.links other).frame same (Function.update_eq_self _ _).symm rfl
        (fun _ _ => rfl) (by simp [same]) rfl (by simp [same]) (by simp [same])
        (ghost.answer_stage_of_ne connID same) rfl ?_
      by_cases sameClient : other.1 = link.1
      · by_cases founds : ghost.founder link.1 = some link.2
        · right
          have notMember : ghost.stage (link.1, link.2) ≠ .member := by
            rw [show ((link.1, link.2) : Link Client) = link from rfl, asking]
            decide
          have early := (inv.clients link.1).alone link.2 founds notMember other.2
            fun index => same (Prod.ext sameClient index)
          rw [← sameClient] at early
          exact early
        · left
          rw [sameClient, ghost.answer_ident, kept founds]
      · exact Or.inl (ghost.answer_ident_of_ne connID sameClient)
  · intro client
    by_cases same : client = link.1
    · subst same
      have answered := (inv.clients link.1).answer asking kept
      rw [← stage_update_same] at answered
      rw [ghost.answer_ident]
      exact answered
    · have untouched := inv.clients client
      rw [← stage_update_other ghost.stage link .answered same] at untouched
      rw [ghost.answer_ident_of_ne connID same]
      exact untouched

theorem Inv.serverReceives (inv : Inv state ghost) {link : Link Client}
    (happened : step state (.serverReceives link) = some next) : ∃ ghost, Inv next ghost := by
  have ok := inv.links link
  simp only [step] at happened
  split at happened
  · rename_i path message rest found waiting
    have asking : ghost.stage link = .asking := by
      by_contra other
      have quiet := ok.quietUp other
      rw [show (view state ghost link).up = state.up link from rfl, waiting] at quiet
      cases quiet
    have listening : path.pathState = .listen :=
      ok.listening (unsettled_of_asking asking) path found
    obtain ⟨request, sent, senderKey, firstID, joinID⟩ := ok.asked asking
    rw [show (view state ghost link).up = state.up link from rfl, waiting, List.cons.injEq] at sent
    obtain ⟨rfl, rfl⟩ := sent
    obtain ⟨first, founder, place⟩ := inv.founder_of_begun link (by rw [asking]; rfl)
    rcases place with rfl | ⟨distinct, member⟩
    · rw [SinglePath.stateProcesser_listenFirst listening (firstID founder)] at happened
      simp only [Option.bind_eq_bind, Option.bind_some, Option.some.injEq, Option.pure_def]
        at happened
      subst happened
      refine ⟨_, inv.answered asking (fun joins => absurd founder joins) found rfl rfl rfl ?_⟩
      refine inv.server.found founder asking ?_ ?_ found rfl ?_ ⟨rfl, rfl, rfl, rfl, rfl⟩
      · have notMember : ghost.stage (link.1, link.2) ≠ .member := by
          rw [show ((link.1, link.2) : Link Client) = link from rfl, asking]
          decide
        exact (inv.clients link.1).alone link.2 founder notMember
      · intro other settled
        obtain ⟨ending, otherFound, _⟩ := (inv.links other).bound settled
        exact ⟨ending, otherFound⟩
      · rw [senderKey]
        rfl
    · have settled : (ghost.stage (link.1, first)).settled = true := by rw [member]; rfl
      have joins : ghost.founder link.1 ≠ some link.2 := by
        rw [founder, ne_eq, Option.some.injEq]
        exact distinct
      obtain ⟨number, peer, known, numbered, owner⟩ :=
        inv.server.served link.1 first founder settled
      have named : request.connId = ghost.ident link.1 := joinID joins
      rw [SinglePath.stateProcesser_listenJoin listening
        (named ▸ inv.ident_ne_zero (link.1, first) settled)
        (named ▸ known) numbered (owner.connID.trans named.symm)] at happened
      simp only [Option.bind_eq_bind, Option.bind_some, Option.some.injEq, Option.pure_def]
        at happened
      subst happened
      refine ⟨_, inv.answered asking (fun _ => rfl) found named rfl named ?_⟩
      exact inv.server.join asking founder settled found rfl known numbered owner
  · cases happened

theorem Inv.answerDelivered (inv : Inv state ghost) {link : Link Client} {path : SinglePath}
    {event : ClientEvent} (answered : ghost.stage link = .answered)
    (key : path.localKey = ((state.client link.1).paths link.2).localKey)
    (connID : path.connID = ghost.ident link.1)
    (founds : ghost.founder link.1 = some link.2 → event = .addInitConnectPath link.2)
    (joins : ghost.founder link.1 ≠ some link.2 → event = .pathJoinResult link.2 true) :
    Inv { state with
      client := Function.update state.client link.1 { state.client link.1 with
        paths := Function.update (state.client link.1).paths link.2 path,
        pending := (state.client link.1).pending ++ [event] },
      down := Function.update state.down link [] }
      { ghost with stage := Function.update ghost.stage link .accepted } := by
  have ok := inv.links link
  have stage : (view state ghost link).stage = .answered := answered
  have notDialing : state.dialing link ≠ true := by
    intro dials
    have dialing := ok.dialing.mp dials
    rw [stage] at dialing
    cases dialing
  refine ⟨?_, clients_update link inv.clients ((inv.clients link.1).accept answered founds joins), ?_⟩
  · intro other
    by_cases same : other = link
    · subst same
      obtain ⟨ending, found, bound⟩ := ok.bound (by rw [stage]; rfl)
      have quiet := ok.quietUp (by rw [stage]; decide)
      constructor
      · simp only [view, Function.update_self]
        exact key.trans ok.key
      · simp [view, notDialing]
      · simp [view]
      · exact fun _ => quiet
      · simp [view]
      · simp [view]
      · simp [view]
      · simp [view, connID]
      · simp [view, Stage.settled]
      · exact fun _ => ⟨ending, found, bound⟩
    · exact (inv.links other).frame same rfl rfl (fun index distinct => by simp [distinct]) rfl rfl
        rfl (by simp [same]) (by simp [same]) rfl (Or.inl rfl)
  · exact inv.serverFrame rfl (settled_update (by rw [answered]; rfl)) (fun _ _ _ => Iff.rfl) rfl

theorem Inv.clientReceives (inv : Inv state ghost) {link : Link Client}
    (happened : step state (.clientReceives link) = some next) : ∃ ghost, Inv next ghost := by
  have ok := inv.links link
  simp only [step] at happened
  split at happened
  · rename_i message rest arriving
    have answered : ghost.stage link = .answered := by
      by_contra other
      have quiet := ok.quietDown other
      rw [show (view state ghost link).down = state.down link from rfl, arriving] at quiet
      cases quiet
    have quiet : state.up link = [] := ok.quietUp (by
      change ghost.stage link ≠ .asking
      rw [answered]
      decide)
    obtain ⟨reply, sent, senderKey, replyID⟩ := ok.answered answered
    rw [show (view state ghost link).down = state.down link from rfl, arriving, List.cons.injEq]
      at sent
    obtain ⟨rfl, rfl⟩ := sent
    have named : reply.connId = ghost.ident link.1 := replyID
    have waiting := ok.waiting (Or.inr answered)
    have unchanged : Function.update state.up link (state.up link ++ []) = state.up := by
      rw [List.append_nil, Function.update_eq_self]
    by_cases founds : ghost.founder link.1 = some link.2
    · have nonzero : ghost.ident link.1 ≠ 0 := inv.ident_ne_zero link (by
        rw [answered]
        rfl)
      have building : ((state.client link.1).paths link.2).pathState = .buildSent :=
        waiting.1 founds
      rw [SinglePath.stateProcesser_buildSent building (named ▸ nonzero) senderKey] at happened
      simp only [Option.bind_eq_bind, Option.bind_some, Option.some.injEq, Option.pure_def,
        unchanged] at happened
      subst happened
      exact ⟨_, inv.answerDelivered answered rfl named (fun _ => rfl) fun joins => absurd founds joins⟩
    · obtain ⟨joinSent, connID⟩ := waiting.2 founds
      change ((state.client link.1).paths link.2).pathState = .joinSent at joinSent
      change ((state.client link.1).paths link.2).connID = ghost.ident link.1 at connID
      rw [SinglePath.stateProcesser_joinSent joinSent (named.trans connID.symm)] at happened
      simp only [Option.bind_eq_bind, Option.bind_some, Option.some.injEq, Option.pure_def,
        unchanged] at happened
      subst happened
      exact ⟨_, inv.answerDelivered answered rfl connID (fun first => absurd first founds) fun _ => rfl⟩
  · cases happened

-- A host after one of its events, with the requests that the event sent.
def afterEvent (state : State Client) (client : Client) (host : ClientHost)
    (sent : List (ℕ × Packet)) : State Client :=
  { state with
    client := Function.update state.client client host
    up := fun link => state.up link ++
      if link.1 = client then (sent.filter fun item => item.1 = link.2).map Prod.snd else [] }

theorem step_event {client : Client} {event : ClientEvent}
    (happened : step state (.event client event) = some next) :
    event ∈ (state.client client).pending ∧ ∃ host sent,
      runEvent { state.client client with
        pending := (state.client client).pending.erase event } event = some (host, sent) ∧
        next = afterEvent state client host sent := by
  simp only [step] at happened
  split at happened
  · rename_i scheduled
    obtain ⟨⟨host, sent⟩, ran, result⟩ := Option.bind_eq_some_iff.mp happened
    exact ⟨scheduled, host, sent, ran, (Option.some.inj result).symm⟩
  · cases happened

theorem afterEvent_up_other {client : Client} {host : ClientHost} {sent : List (ℕ × Packet)}
    {link : Link Client} (elsewhere : link.1 = client → ∀ item ∈ sent, item.1 ≠ link.2) :
    (afterEvent state client host sent).up link = state.up link := by
  simp only [afterEvent]
  split
  · rename_i same
    rw [List.filter_eq_nil_iff.mpr, List.map_nil, List.append_nil]
    intro item inside
    simpa using elsewhere same item inside
  · exact List.append_nil _

theorem sent_once {paths : List ℕ} {request : ℕ → Packet} {index : ℕ} (nodup : paths.Nodup)
    (inside : index ∈ paths) :
    ((paths.map fun path => (path, request path)).filter fun item => item.1 = index).map Prod.snd =
      [request index] := by
  rw [List.filter_map, List.map_map]
  have alone : paths.filter ((fun item : ℕ × Packet => decide (item.1 = index)) ∘
      fun path => (path, request path)) = [index] := by
    have filtered := List.filter_eq (l := paths) index
    rw [List.count_eq_one_of_mem nodup inside] at filtered
    simpa [Function.comp_def, eq_comm] using filtered
  rw [alone]
  rfl

theorem view_afterEvent {client : Client} {host : ClientHost}
    (key : host.conn.localKey = (state.client client).conn.localKey)
    (paths : host.paths = (state.client client).paths) :
    view (afterEvent state client host []) ghost = view state ghost := by
  funext link
  have up : (afterEvent state client host []).up link = state.up link :=
    afterEvent_up_other (by simp)
  by_cases same : link.1 = client
  · subst same
    simp only [view, up]
    simp [afterEvent, key, paths]
  · simp only [view, up]
    simp [afterEvent, same]

theorem Inv.buildNothing (inv : Inv state ghost) {client : Client} {host : ClientHost}
    (key : host.conn.localKey = (state.client client).conn.localKey)
    (paths : host.paths = (state.client client).paths)
    (ok : ClientOk (fun index => ghost.stage (client, index)) (ghost.founder client)
      (ghost.ident client) host) : Inv (afterEvent state client host []) ghost := by
  refine ⟨?_, ?_, inv.serverFrame key (fun _ => rfl) (fun _ _ _ => Iff.rfl) rfl⟩
  · rw [view_afterEvent key paths]
    exact inv.links
  · intro other
    by_cases same : other = client
    · subst same
      simpa [afterEvent] using ok
    · simpa [afterEvent, same] using inv.clients other

theorem Inv.member (inv : Inv state ghost) {client : Client} {index : ℕ} {host : ClientHost}
    (accepted : ghost.stage (client, index) = .accepted)
    (key : host.conn.localKey = (state.client client).conn.localKey)
    (paths : host.paths = (state.client client).paths)
    (ok : ClientOk (Function.update (fun index => ghost.stage (client, index)) index .member)
      (ghost.founder client) (ghost.ident client) host) :
    Inv (afterEvent state client host [])
      { ghost with stage := Function.update ghost.stage (client, index) .member } := by
  refine ⟨?_, ?_, ?_⟩
  · rw [view_afterEvent key paths]
    intro other
    by_cases same : other = (client, index)
    · subst same
      have old := inv.links (client, index)
      have stage : (view state ghost (client, index)).stage = .accepted := accepted
      have dialing := old.dialing
      have held := old.held (Or.inl stage)
      have bound := old.bound (by rw [stage]; rfl)
      rw [stage] at dialing
      constructor
      · exact old.key
      · simpa [view] using dialing
      · simp [view]
      · exact fun _ => old.quietUp (by rw [stage]; decide)
      · simp [view]
      · exact fun _ => old.quietDown (by rw [stage]; decide)
      · simp [view]
      · exact fun _ => held
      · simp [view, Stage.settled]
      · exact fun _ => bound
    · simpa [view, same] using inv.links other
  · exact clients_update (client, index) inv.clients ok
  · exact inv.serverFrame key (settled_update (by rw [accepted]; rfl)) (fun _ _ _ => Iff.rfl) rfl

theorem Inv.buildFirst (inv : Inv state ghost) {client : Client} {index : ℕ} {host : ClientHost}
    {path : SinglePath} {request : MultipathHeader} (raw : ghost.stage (client, index) = .raw)
    (unfounded : ghost.founder client = none)
    (key : host.conn.localKey = (state.client client).conn.localKey)
    (paths : host.paths = Function.update (state.client client).paths index path)
    (pathKey : path.localKey = ((state.client client).paths index).localKey)
    (building : path.pathState = .buildSent)
    (senderKey : request.senderKey = path.localKey) (connId : request.connId = 0)
    (ok : ClientOk (Function.update (fun index => ghost.stage (client, index)) index .asking)
      (some index) (ghost.ident client) host) :
    Inv (afterEvent state client host [(index, request.serialize)])
      { ghost with
        stage := Function.update ghost.stage (client, index) .asking,
        founder := Function.update ghost.founder client (some index) } := by
  have others : ∀ {other}, other ≠ (client, index) →
      (afterEvent state client host [(index, request.serialize)]).up other = state.up other := by
    intro other distinct
    refine afterEvent_up_other ?_
    intro same item inside index
    rw [List.mem_singleton.mp inside] at index
    exact distinct (Prod.ext same index.symm)
  refine ⟨?_, ?_, ?_⟩
  · intro other
    by_cases same : other = (client, index)
    · subst same
      have old := inv.links (client, index)
      have stage : (view state ghost (client, index)).stage = .raw := raw
      have dialing := old.dialing
      have quiet : state.up (client, index) = [] := old.quietUp (by rw [stage]; decide)
      have listening := old.listening (by rw [stage]; rfl)
      rw [stage] at dialing
      constructor
      · simp only [view, afterEvent, Function.update_self, paths, key]
        exact pathKey.trans old.key
      · simpa [view, afterEvent] using dialing
      · refine fun _ => ⟨request, ?_, ?_, fun _ => connId, fun joins => ?_⟩
        · simp [view, afterEvent, quiet]
        · simp only [view, afterEvent, Function.update_self, key]
          exact senderKey.trans (pathKey.trans old.key)
        · simp [view] at joins
      · simp [view]
      · simp [view]
      · exact fun _ => old.quietDown (by rw [stage]; decide)
      · simp [view, Waiting, afterEvent, paths, building]
      · simp [view]
      · exact fun _ => listening
      · simp [view, Stage.settled]
    · refine (inv.links other).frame same rfl key (fun each distinct => ?_) rfl rfl (others same)
        rfl (by simp [same]) ?_ (Or.inl rfl)
      · rw [paths, Function.update_of_ne distinct]
      · by_cases sameClient : other.1 = client
        · have distinct : index ≠ other.2 := fun equal => same (Prod.ext sameClient equal.symm)
          simp [sameClient, unfounded, distinct]
        · simp [sameClient]
  · intro other
    by_cases same : other = client
    · subst same
      rw [stage_update_same]
      simpa [afterEvent] using ok
    · rw [stage_update_other _ _ _ same]
      simpa [afterEvent, same] using inv.clients other
  · refine inv.serverFrame key (settled_update (by rw [raw]; rfl)) ?_ rfl
    intro other first settled
    have distinct : other ≠ client := by
      rintro rfl
      have early := settled_begun ((inv.clients other).unfounded unfounded first)
      exact absurd (settled.symm.trans early) (by decide)
    simp [distinct]

def Ghost.join (ghost : Ghost Client) (client : Client) : Ghost Client :=
  { ghost with stage := fun link =>
      if link.1 = client then joining (fun index => ghost.stage (client, index)) link.2
      else ghost.stage link }

theorem Ghost.join_stage (ghost : Ghost Client) {client : Client} {link : Link Client}
    (raw : link.1 = client ∧ ghost.stage link = .raw) :
    (ghost.join client).stage link = .asking := by
  obtain ⟨rfl, raw⟩ := raw
  exact (if_pos rfl).trans (if_pos raw)

theorem Ghost.join_stage_of_not (ghost : Ghost Client) {client : Client} {link : Link Client}
    (other : ¬ (link.1 = client ∧ ghost.stage link = .raw)) :
    (ghost.join client).stage link = ghost.stage link := by
  simp only [Ghost.join]
  split
  · rename_i same
    subst same
    exact if_neg fun raw => other ⟨rfl, raw⟩
  · rfl

theorem Inv.connectOthers (inv : Inv state ghost) {client : Client} {host : ClientHost}
    {sent : List (ℕ × Packet)}
    (connected : (state.client client).conn.connState = .connect)
    (key : host.conn.localKey = (state.client client).conn.localKey)
    (paths : ∀ index, host.paths index =
      if index ∈ (state.client client).conn.rawReadyPath then
        ((state.client client).conn.joined ((state.client client).paths index)).1
      else (state.client client).paths index)
    (requests : sent = (state.client client).conn.rawReadyPath.map fun index =>
      (index, ((state.client client).conn.joined ((state.client client).paths index)).2))
    (ok : ClientOk (joining fun index => ghost.stage (client, index)) (ghost.founder client)
      (ghost.ident client) host) :
    Inv (afterEvent state client host sent) (ghost.join client) := by
  obtain ⟨nodup, rawStage⟩ := (inv.clients client).rawReady
  obtain ⟨first, founder, member⟩ := (inv.clients client).connect.mp connected
  have settledSame : ∀ link, ((ghost.join client).stage link).settled =
      (ghost.stage link).settled := by
    intro link
    by_cases raw : link.1 = client ∧ ghost.stage link = .raw
    · rw [ghost.join_stage raw, raw.2]
      rfl
    · rw [ghost.join_stage_of_not raw]
  refine ⟨?_, ?_, inv.serverFrame key settledSame (fun _ _ _ => Iff.rfl) rfl⟩
  · intro other
    by_cases raw : other.1 = client ∧ ghost.stage other = .raw
    · have asks := ghost.join_stage raw
      obtain ⟨rfl, raw⟩ := raw
      have old := inv.links other
      have stage : (view state ghost other).stage = .raw := raw
      have dialing := old.dialing
      have quiet : state.up other = [] := old.quietUp (by rw [stage]; decide)
      have listening := old.listening (by rw [stage]; rfl)
      have inside : other.2 ∈ (state.client other.1).conn.rawReadyPath := (rawStage _).mpr raw
      have connID : (state.client other.1).conn.connID = ghost.ident other.1 :=
        ((inv.clients other.1).numbers connected).1
      have joins : ghost.founder other.1 ≠ some other.2 := by
        rw [founder, ne_eq, Option.some.injEq]
        rintro rfl
        exact absurd (member.symm.trans raw) (by decide)
      rw [stage] at dialing
      constructor
      · simp only [view, afterEvent, Function.update_self, paths, key, if_pos inside]
        exact old.key
      · simpa [view, afterEvent, asks] using dialing
      · obtain ⟨request, sends, senderKey, connId⟩ :=
          (state.client other.1).conn.joined_request ((state.client other.1).paths other.2)
        refine fun _ => ⟨request, ?_, ?_, ?_, ?_⟩
        · simp only [view, afterEvent, if_true, quiet, List.nil_append, requests,
            sent_once nodup inside, sends]
        · simp only [view, afterEvent, Function.update_self, key]
          exact senderKey.trans old.key
        · exact fun founds => absurd founds joins
        · exact fun _ => connId.trans connID
      · simp [view, asks]
      · simp [view, asks]
      · exact fun _ => old.quietDown (by rw [stage]; decide)
      · refine fun _ => ⟨fun founds => absurd founds joins, fun _ => ?_⟩
        simp only [view, afterEvent, Function.update_self, paths, if_pos inside]
        exact ⟨rfl, connID⟩
      · simp [view, asks]
      · exact fun _ => listening
      · simp [view, asks, Stage.settled]
    · have untouched : other.1 = client → other.2 ∉ (state.client client).conn.rawReadyPath := by
        rintro rfl inside
        exact raw ⟨rfl, (rawStage _).mp inside⟩
      have up : (afterEvent state client host sent).up other = state.up other := by
        refine afterEvent_up_other fun same item inside index => untouched same ?_
        rw [requests] at inside
        obtain ⟨each, listed, equal⟩ := List.mem_map.mp inside
        rw [← index, ← equal]
        exact listed
      have same : view (afterEvent state client host sent) (ghost.join client) other =
          view state ghost other := by
        simp only [view, up, ghost.join_stage_of_not raw]
        by_cases same : other.1 = client
        · subst same
          simp [afterEvent, key, paths, untouched rfl, Ghost.join]
        · simp [afterEvent, same, Ghost.join]
      rw [same]
      exact inv.links other
  · intro other
    by_cases same : other = client
    · subst same
      simpa [afterEvent, Ghost.join] using ok
    · simpa [afterEvent, same, Ghost.join] using inv.clients other

theorem Inv.event (inv : Inv state ghost) {client : Client} {event : ClientEvent}
    (happened : step state (.event client event) = some next) : ∃ ghost, Inv next ghost := by
  obtain ⟨scheduled, host, sent, ran, rfl⟩ := step_event happened
  have ok := inv.clients client
  cases event with
  | buildConnection =>
      cases ready : (state.client client).conn.rawReadyPath with
      | nil =>
          simp only [runEvent, MultipathConnection.buildConnection, ready, Option.some.injEq,
            Prod.mk.injEq] at ran
          obtain ⟨rfl, rfl⟩ := ran
          exact ⟨ghost, inv.buildNothing rfl rfl ok.buildNothing⟩
      | cons index rest =>
          simp only [runEvent, MultipathConnection.buildConnection, ready, Option.some.injEq,
            Prod.mk.injEq] at ran
          obtain ⟨rfl, rfl⟩ := ran
          obtain ⟨raw, unfounded, built⟩ := ok.buildFirst scheduled ready
          exact ⟨_, inv.buildFirst raw unfounded rfl rfl rfl rfl rfl rfl built⟩
  | addInitConnectPath index =>
      obtain ⟨accepted, _, added⟩ := ok.init scheduled
      have held : ((state.client client).paths index).connID = ghost.ident client :=
        (inv.links (client, index)).held (Or.inl accepted)
      obtain ⟨conn, adds, result⟩ := Option.bind_eq_some_iff.mp ran
      simp only [MultipathConnection.addInitConnectPath, held] at adds
      split at adds
      · simp only [Option.some.injEq, Option.pure_def, Prod.mk.injEq] at adds result
        obtain ⟨rfl, rfl⟩ := result
        subst adds
        exact ⟨_, inv.member accepted rfl rfl added⟩
      · cases adds
  | connectOtherPath =>
      simp only [runEvent, MultipathConnection.connectOtherPath_eq _ _ ok.rawReady.1,
        Option.some.injEq, Prod.mk.injEq] at ran
      obtain ⟨rfl, rfl⟩ := ran
      exact ⟨_, inv.connectOthers (ok.other scheduled) rfl (fun _ => rfl) rfl
        (ok.connectOthers scheduled)⟩
  | pathJoinResult index success =>
      obtain ⟨rfl, accepted, joined⟩ := ok.joined scheduled
      obtain ⟨conn, joins, result⟩ := Option.bind_eq_some_iff.mp ran
      simp only [MultipathConnection.pathJoinResult, if_true] at joins
      split at joins
      · simp only [Option.some.injEq, Option.pure_def, Prod.mk.injEq] at joins result
        obtain ⟨rfl, rfl⟩ := result
        subst joins
        exact ⟨_, inv.member accepted rfl rfl joined⟩
      · cases joins
  | pathRecvedData index => exact absurd scheduled (ok.noData index)

theorem Inv.step {action : Action Client} (inv : Inv state ghost)
    (distinct : DistinctKeys state action) (happened : step state action = some next) :
    ∃ ghost, Inv next ghost := by
  cases action with
  | connected link =>
      simp only [Handshake.step] at happened
      split at happened
      · rename_i dialing
        obtain rfl := Option.some.inj happened
        exact inv.report dialing rfl
      · cases happened
  | failed link =>
      simp only [Handshake.step] at happened
      split at happened
      · rename_i dialing
        obtain rfl := Option.some.inj happened
        exact inv.report dialing rfl
      · cases happened
  | accepted link key =>
      simp only [Handshake.step] at happened
      split at happened
      · rename_i guard
        obtain rfl := Option.some.inj happened
        exact ⟨ghost, inv.accepted guard.1 rfl guard.2 distinct⟩
      · cases happened
  | serverReceives link => exact inv.serverReceives happened
  | clientReceives link => exact inv.clientReceives happened
  | event client event => exact inv.event happened

/-- Client and server agree throughout every run. -/
theorem agreement_throughout {start : State Client} (initial : Initial start)
    {actions : List (Action Client)}
    (distinct : Transition.Guarded Handshake.step DistinctKeys start actions) :
    Transition.Throughout Handshake.step Agreement start actions := by
  have kept : Transition.Throughout Handshake.step (fun state => ∃ ghost, Inv state ghost) start
      actions := by
    refine Transition.throughout_of_guarded ?_ (inv_initial initial) distinct
    rintro before action after ⟨ghost, inv⟩ guard happened
    exact inv.step guard happened
  intro first second middle split ran
  obtain ⟨ghost, inv⟩ := kept first second middle split ran
  exact inv.agreement

def twoPaths : State Unit where
  client := fun _ => {
    conn := { localKey := 3, pathNum := 2 }
    paths := fun _ => { hasSocket := true, localKey := 3 }
    pending := [] }
  server := {}
  serverPath := fun _ => none
  serverPending := []
  dialing := fun link => link.2 < 2
  up := fun _ => []
  down := fun _ => []

def twoPathsRun : List (Action Unit) :=
  [.accepted ((), 0) 7, .accepted ((), 1) 8, .connected ((), 1), .connected ((), 0),
    .event () .buildConnection, .serverReceives ((), 1), .clientReceives ((), 1),
    .event () (.addInitConnectPath 1), .event () .connectOtherPath, .serverReceives ((), 0),
    .clientReceives ((), 0), .event () (.pathJoinResult 0 true)]

theorem agreement_twoPaths :
    (Transition.run step twoPaths twoPathsRun).map
        (fun last => ((last.client ()).conn.connState, (last.client ()).conn.paths)) =
      some (.connect, [1, 0]) ∧
    Transition.Throughout step Agreement twoPaths twoPathsRun := by
  refine ⟨by decide +kernel, agreement_throughout ?_ ?_⟩
  · constructor <;> simp [twoPaths]
  · refine ⟨by simp [DistinctKeys, twoPaths], ?_⟩
    intro next happened
    refine ⟨?_, fun later _ => Transition.guarded_of_forall fun state action inside => ?_⟩
    · rw [← Option.some.inj happened]
      intro link path found
      by_cases same : link = ((), 0)
      · subst same
        simp [twoPaths, CybertwinDataTransferServer.pathCreatedCallback] at found
        simp [← found]
      · simp [twoPaths, same] at found
    · cases action with
      | accepted link key => simp at inside
      | _ => trivial

end FISim.Handshake
