import FISim.Multipath.HandshakeInvariant

/-!
What the answers of the server do to the invariant of its connections.
-/

namespace FISim.Handshake

variable {Client : Type} [DecidableEq Client] {state : State Client} {ghost : Ghost Client}

omit [DecidableEq Client] in
theorem unsettled_of_asking {link : Link Client} (asking : ghost.stage link = .asking) :
    (ghost.stage link).settled = false := by
  rw [asking]
  rfl

omit [DecidableEq Client] in
theorem settled_begun {stage : Stage} (early : stage.begun = false) : stage.settled = false := by
  revert early
  cases stage <;> decide

theorem ServerOk.serverKeys {key : Client → MpConnKey}
    {server : CybertwinDataTransferServer (Link Client)}
    {serverPath after : Link Client → Option SinglePath}
    (ok : ServerOk ghost key server serverPath)
    (kept : ∀ link path, after link = some path →
      ∃ old, serverPath link = some old ∧ old.localKey = path.localKey) :
    (∀ link path, after link = some path → path.localKey ≠ 0) ∧
      ∀ link path other otherPath, after link = some path → after other = some otherPath →
        path.localKey = otherPath.localKey → link = other := by
  constructor
  · intro link path found
    obtain ⟨old, oldFound, same⟩ := kept link path found
    rw [← same]
    exact ok.keys link old oldFound
  · intro link path other otherPath found otherFound equal
    obtain ⟨old, oldFound, same⟩ := kept link path found
    obtain ⟨otherOld, otherOldFound, otherSame⟩ := kept other otherPath otherFound
    exact ok.distinct link old other otherOld oldFound otherOldFound
      (same.trans (equal.trans otherSame.symm))

theorem update_serverKeys {serverPath : Link Client → Option SinglePath} {link : Link Client}
    {path after : SinglePath} (found : serverPath link = some path)
    (same : path.localKey = after.localKey) : ∀ other ending,
      Function.update serverPath link (some after) other = some ending →
        ∃ old, serverPath other = some old ∧ old.localKey = ending.localKey := by
  intro other ending updated
  by_cases here : other = link
  · subst here
    rw [Function.update_self, Option.some.injEq] at updated
    exact ⟨path, found, by rw [← updated, same]⟩
  · rw [Function.update_of_ne here] at updated
    exact ⟨ending, updated, rfl⟩

def Ghost.answer (ghost : Ghost Client) (link : Link Client) (connID : MpConnId) :
    Ghost Client where
  stage := Function.update ghost.stage link .answered
  founder := ghost.founder
  ident := Function.update ghost.ident link.1 connID

theorem Ghost.answer_stage (ghost : Ghost Client) (link : Link Client)
    (connID : MpConnId) : (ghost.answer link connID).stage link = .answered := by
  simp [answer]

theorem Ghost.answer_stage_of_ne (ghost : Ghost Client) {link other : Link Client}
    (connID : MpConnId) (distinct : other ≠ link) :
    (ghost.answer link connID).stage other = ghost.stage other := by
  simp [answer, distinct]

theorem Ghost.answer_founder (ghost : Ghost Client) (link : Link Client) (connID : MpConnId) :
    (ghost.answer link connID).founder = ghost.founder := rfl

theorem Ghost.answer_ident (ghost : Ghost Client) (link : Link Client) (connID : MpConnId) :
    (ghost.answer link connID).ident link.1 = connID := by
  simp [answer]

theorem Ghost.answer_ident_of_ne (ghost : Ghost Client) {link : Link Client} {client : Client}
    (connID : MpConnId) (distinct : client ≠ link.1) :
    (ghost.answer link connID).ident client = ghost.ident client := by
  simp [answer, distinct]

theorem Ghost.answer_stage_other (ghost : Ghost Client) {link other : Link Client}
    (connID : MpConnId) (apart : other.1 ≠ link.1) :
    (ghost.answer link connID).stage other = ghost.stage other :=
  ghost.answer_stage_of_ne connID fun equal => apart (congrArg Prod.fst equal)

theorem update_other {serverPath : Link Client → Option SinglePath} {link : Link Client}
    {client : Client} (ending : Option SinglePath) (index : ℕ) (apart : client ≠ link.1) :
    Function.update serverPath link ending (client, index) = serverPath (client, index) :=
  Function.update_of_ne (fun equal => apart (congrArg Prod.fst equal)) _ _

theorem Owner.answer_other {serverPath : Link Client → Option SinglePath} {link : Link Client}
    {client : Client} {peer : MultipathConnection (Link Client)} {first : ℕ} (connID : MpConnId)
    (ending : Option SinglePath) (owner : Owner ghost serverPath client peer first)
    (apart : client ≠ link.1) :
    Owner (ghost.answer link connID) (Function.update serverPath link ending) client peer first := by
  have ident := ghost.answer_ident_of_ne connID apart
  refine ⟨owner.founder, ?_, ?_, ?_, ?_, ?_, ?_⟩
  · rw [ghost.answer_stage_other connID apart]
    exact owner.settled
  · rw [ident]
    exact owner.connID
  · intro other otherFound
    rw [update_other ending first apart] at otherFound
    exact owner.localKey other otherFound
  · rw [ident]
    exact owner.sendSeqNum
  · rw [ident]
    exact owner.recvSeqNum
  · intro other
    rw [owner.paths]
    by_cases same : other.1 = client
    · rw [ghost.answer_stage_other connID (by rw [same]; exact apart)]
    · simp [same]

omit [DecidableEq Client] in
theorem ne_of_asking {link : Link Client} {client : Client} {first : ℕ}
    (founds : ghost.founder link.1 = some link.2) (asking : ghost.stage link = .asking)
    (founder : ghost.founder client = some first)
    (settled : (ghost.stage (client, first)).settled = true) : client ≠ link.1 := by
  rintro rfl
  rw [founds, Option.some.injEq] at founder
  subst founder
  rw [show ((link.1, link.2) : Link Client) = link from rfl, unsettled_of_asking asking] at settled
  cases settled

/-- The number of the connection that a first path founds is new. -/
theorem ServerOk.ident_ne {key : Client → MpConnKey}
    {server : CybertwinDataTransferServer (Link Client)}
    {serverPath : Link Client → Option SinglePath} {link : Link Client} {path : SinglePath}
    (ok : ServerOk ghost key server serverPath)
    (founds : ghost.founder link.1 = some link.2) (asking : ghost.stage link = .asking)
    (bound : ∀ other, (ghost.stage other).settled = true → ∃ path, serverPath other = some path)
    (found : serverPath link = some path) {client : Client} {first : ℕ}
    (founder : ghost.founder client = some first)
    (settled : (ghost.stage (client, first)).settled = true) :
    ghost.ident client ≠ spKeysToConnId (key link.1) path.localKey := by
  intro same
  obtain ⟨other, otherFound⟩ := bound (client, first) settled
  rw [ok.ident client first other founder settled otherFound, spKeysToConnId_inj] at same
  exact ne_of_asking founds asking founder settled
    (congrArg Prod.fst (ok.distinct _ _ _ _ otherFound found same.2))

/-- A connection as the server makes it for the first path of a client. -/
structure Founded (number : MpConnId) (link : Link Client) (key : MpConnKey)
    (peer : MultipathConnection (Link Client)) : Prop where
  connID : peer.connID = number
  localKey : peer.localKey = key
  sendSeqNum : peer.sendSeqNum = number
  recvSeqNum : peer.recvSeqNum = number
  paths : peer.paths = [link]

theorem Founded.owner (serverPath : Link Client → Option SinglePath) {link : Link Client}
    {ending : SinglePath} {peer : MultipathConnection (Link Client)} {connID : MpConnId}
    (founded : Founded connID link ending.localKey peer)
    (founds : ghost.founder link.1 = some link.2)
    (alone : ∀ index, index ≠ link.2 → (ghost.stage (link.1, index)).begun = false) :
    Owner (ghost.answer link connID) (Function.update serverPath link (some ending)) link.1 peer
      link.2 := by
  refine ⟨founds, by rw [ghost.answer_stage]; rfl, ?_, ?_, ?_, ?_, ?_⟩
  · rw [ghost.answer_ident, founded.connID]
  · intro other otherFound
    rw [show ((link.1, link.2) : Link Client) = link from rfl, Function.update_self,
      Option.some.injEq] at otherFound
    rw [founded.localKey, otherFound]
  · rw [ghost.answer_ident, founded.sendSeqNum]
  · rw [ghost.answer_ident, founded.recvSeqNum]
  · intro other
    rw [founded.paths]
    by_cases same : other = link
    · rw [same, ghost.answer_stage]
      simp [Stage.settled]
    · rw [List.count_singleton, if_neg (by simpa using Ne.symm same), if_neg]
      rintro ⟨client, settled⟩
      rw [ghost.answer_stage_of_ne connID same] at settled
      have apart : other.2 ≠ link.2 := fun index => same (Prod.ext client index)
      have early := settled_begun (alone other.2 apart)
      rw [← client] at early
      exact absurd (settled.symm.trans early) (by decide)

theorem ServerOk.found {key : Client → MpConnKey}
    {server : CybertwinDataTransferServer (Link Client)}
    {serverPath : Link Client → Option SinglePath} {link : Link Client}
    {path ending : SinglePath} {founded : MultipathConnection (Link Client)}
    {connID : MpConnId} (ok : ServerOk ghost key server serverPath)
    (founds : ghost.founder link.1 = some link.2) (asking : ghost.stage link = .asking)
    (alone : ∀ index, index ≠ link.2 → (ghost.stage (link.1, index)).begun = false)
    (bound : ∀ other, (ghost.stage other).settled = true → ∃ path, serverPath other = some path)
    (found : serverPath link = some path) (sameKey : path.localKey = ending.localKey)
    (spelled : connID = spKeysToConnId (key link.1) path.localKey)
    (conn : Founded connID link path.localKey founded) :
    ServerOk (ghost.answer link connID) key
      { server with
        connections := server.connections ++ [founded],
        connectionIDs :=
          Function.update server.connectionIDs connID (some server.connections.length) }
      (Function.update serverPath link (some ending)) := by
  obtain ⟨keys, distinct⟩ := ok.serverKeys (update_serverKeys found sameKey)
  have newIdent : ∀ {client first}, ghost.founder client = some first →
      (ghost.stage (client, first)).settled = true → ghost.ident client ≠ connID := by
    intro client first founder settled
    rw [spelled]
    exact ok.ident_ne founds asking bound found founder settled
  rw [sameKey] at conn
  have ownerNew := Founded.owner serverPath conn founds alone
  refine ⟨keys, distinct, ?_, ?_, ?_⟩
  · intro number peer numbered
    change (server.connections ++ [founded])[number]? = some peer at numbered
    rw [List.getElem?_append] at numbered
    split at numbered
    · obtain ⟨client, first, owner, known⟩ := ok.owned number peer numbered
      have apart := ne_of_asking founds asking owner.founder owner.settled
      refine ⟨client, first, owner.answer_other connID (some ending) apart, ?_⟩
      rw [ghost.answer_ident_of_ne connID apart]
      simpa [newIdent owner.founder owner.settled] using known
    · rename_i beyond
      have last : number = server.connections.length := by
        by_contra other
        rw [List.getElem?_eq_none (by simp; omega)] at numbered
        cases numbered
      subst last
      simp only [Nat.sub_self, List.getElem?_cons_zero, Option.some.injEq] at numbered
      subst numbered
      exact ⟨link.1, link.2, ownerNew, by simp [Ghost.answer]⟩
  · intro client first founder settled
    by_cases same : client = link.1
    · subst same
      rw [ghost.answer_founder, founds, Option.some.injEq] at founder
      subst founder
      exact ⟨server.connections.length, founded, by simp [Ghost.answer], by simp, ownerNew⟩
    · rw [ghost.answer_stage_other connID same] at settled
      obtain ⟨number, peer, known, numbered, owner⟩ := ok.served client first founder settled
      refine ⟨number, peer, ?_, ?_, owner.answer_other connID (some ending) same⟩
      · rw [ghost.answer_ident_of_ne connID same]
        simpa [newIdent founder settled] using known
      · have bound : number < server.connections.length := by
          by_contra beyond
          rw [List.getElem?_eq_none (by omega)] at numbered
          cases numbered
        rw [List.getElem?_append_left bound]
        exact numbered
  · intro client first other founder settled otherFound
    by_cases same : client = link.1
    · subst same
      rw [ghost.answer_founder, founds, Option.some.injEq] at founder
      subst founder
      change Function.update serverPath link (some ending) link = some other at otherFound
      rw [Function.update_self, Option.some.injEq] at otherFound
      rw [ghost.answer_ident, spelled, sameKey, otherFound]
    · rw [ghost.answer_stage_other connID same] at settled
      rw [update_other (some ending) first same] at otherFound
      rw [ghost.answer_ident_of_ne connID same]
      exact ok.ident client first other founder settled otherFound

theorem Owner.client_inj {serverPath : Link Client → Option SinglePath} {client other : Client}
    {peer : MultipathConnection (Link Client)} {first second : ℕ}
    (owner : Owner ghost serverPath client peer first)
    (otherOwner : Owner ghost serverPath other peer second) : client = other := by
  by_contra distinct
  have once := owner.paths (client, first)
  rw [if_pos ⟨rfl, owner.settled⟩, otherOwner.paths, if_neg fun both => distinct both.1] at once
  cases once

theorem ServerOk.join {key : Client → MpConnKey}
    {server : CybertwinDataTransferServer (Link Client)}
    {serverPath : Link Client → Option SinglePath} {link : Link Client} {first : ℕ}
    {path ending : SinglePath} {number : ℕ} {peer : MultipathConnection (Link Client)}
    (ok : ServerOk ghost key server serverPath) (asking : ghost.stage link = .asking)
    (founder : ghost.founder link.1 = some first)
    (settled : (ghost.stage (link.1, first)).settled = true)
    (found : serverPath link = some path) (sameKey : path.localKey = ending.localKey)
    (known : server.connectionIDs (ghost.ident link.1) = some number)
    (numbered : server.connections[number]? = some peer)
    (owner : Owner ghost serverPath link.1 peer first) :
    ServerOk (ghost.answer link (ghost.ident link.1)) key
      { server with
        connections := server.connections.set number
          { peer with paths := peer.paths ++ [link], connState := .connect } }
      (Function.update serverPath link (some ending)) := by
  have unsettled := unsettled_of_asking asking
  obtain ⟨keys, distinct⟩ := ok.serverKeys (update_serverKeys found sameKey)
  have ident : (ghost.answer link (ghost.ident link.1)).ident = ghost.ident :=
    Function.update_eq_self _ _
  have bound : number < server.connections.length := by
    by_contra beyond
    rw [List.getElem?_eq_none (by omega)] at numbered
    cases numbered
  have apart : ∀ {other}, (ghost.stage other).settled = true → other ≠ link := by
    rintro other reached rfl
    rw [unsettled] at reached
    cases reached
  have settledOld : ∀ {other}, other ≠ link →
      ((ghost.answer link (ghost.ident link.1)).stage other).settled =
        (ghost.stage other).settled := fun distinct => by
    rw [ghost.answer_stage_of_ne _ distinct]
  have localKey : ∀ {client first}, (ghost.stage (client, first)).settled = true →
      Function.update serverPath link (some ending) (client, first) =
        serverPath (client, first) := fun settled => Function.update_of_ne (apart settled) _ _
  have ownerJoined : Owner (ghost.answer link (ghost.ident link.1))
      (Function.update serverPath link (some ending)) link.1
      { peer with paths := peer.paths ++ [link], connState := .connect } first := by
    refine ⟨owner.founder, ?_, by rw [ident]; exact owner.connID, ?_,
      by rw [ident]; exact owner.sendSeqNum, by rw [ident]; exact owner.recvSeqNum, ?_⟩
    · rw [settledOld (apart owner.settled)]
      exact owner.settled
    · rw [localKey owner.settled]
      exact owner.localKey
    · intro each
      rw [List.count_append, owner.paths]
      by_cases same : each = link
      · rw [same, ghost.answer_stage, unsettled]
        simp [Stage.settled]
      · rw [settledOld same, List.count_eq_zero_of_not_mem (by simpa using same), Nat.add_zero]
  refine ⟨keys, distinct, ?_, ?_, ?_⟩
  · intro other otherPeer otherNumbered
    rw [ident]
    change (server.connections.set number _)[other]? = some otherPeer at otherNumbered
    by_cases same : other = number
    · rw [same, List.getElem?_set_self bound, Option.some.injEq] at otherNumbered
      subst otherNumbered
      exact ⟨link.1, first, ownerJoined, by rw [same]; exact known⟩
    · rw [List.getElem?_set_ne (Ne.symm same)] at otherNumbered
      obtain ⟨client, second, otherOwner, otherKnown⟩ := ok.owned other otherPeer otherNumbered
      refine ⟨client, second, otherOwner.answer_other _ (some ending) ?_, otherKnown⟩
      rintro rfl
      rw [known, Option.some.injEq] at otherKnown
      exact same otherKnown.symm
  · intro client second otherFounder otherSettled
    rw [ident]
    by_cases same : client = link.1
    · subst same
      rw [ghost.answer_founder, founder, Option.some.injEq] at otherFounder
      subst otherFounder
      exact ⟨number, _, known, List.getElem?_set_self bound, ownerJoined⟩
    · rw [settledOld fun equal => same (congrArg Prod.fst equal)] at otherSettled
      obtain ⟨other, otherPeer, otherKnown, otherNumbered, otherOwner⟩ :=
        ok.served client second otherFounder otherSettled
      refine ⟨other, otherPeer, otherKnown, ?_, otherOwner.answer_other _ (some ending) same⟩
      have elsewhere : number ≠ other := by
        rintro rfl
        rw [numbered, Option.some.injEq] at otherNumbered
        subst otherNumbered
        exact same (otherOwner.client_inj owner)
      exact (List.getElem?_set_ne elsewhere).trans otherNumbered
  · intro client second other otherFounder otherSettled otherFound
    rw [ident]
    by_cases same : client = link.1
    · subst same
      rw [ghost.answer_founder, founder, Option.some.injEq] at otherFounder
      subst otherFounder
      rw [localKey settled] at otherFound
      exact ok.ident link.1 first other founder settled otherFound
    · have old : (client, second) ≠ link := fun equal => same (congrArg Prod.fst equal)
      rw [settledOld old] at otherSettled
      rw [localKey otherSettled] at otherFound
      exact ok.ident client second other otherFounder otherSettled otherFound

end FISim.Handshake
