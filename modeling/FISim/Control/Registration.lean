import FISim.Control.EndHostDaemon
import FISim.Lib.Transition

/-!
The replies of the manager to a daemon: what makes it registered, and to which cybertwin.
-/

namespace FISim.Control

open Transition

abbrev Reply := CybertwinManagerHeader

def Reply.isAck (reply : Reply) : Prop :=
  reply.command = CybertwinProxyCommand.registrationAck.code

instance (reply : Reply) : Decidable reply.isAck := inferInstanceAs (Decidable (_ = _))

def Reply.isOwnAck (name : List UInt8) (reply : Reply) : Prop := reply.isAck ∧ reply.cname = name

instance (name : List UInt8) (reply : Reply) : Decidable (reply.isOwnAck name) :=
  inferInstanceAs (Decidable (_ ∧ _))

def readReplies (packets : List Packet) : Option (List Reply) :=
  packets.mapM fun packet => (CybertwinManagerHeader.deserialize packet).map Prod.fst

namespace CybertwinEndHostDaemon

theorem handle_name (daemon : CybertwinEndHostDaemon) (reply : Reply) :
    (daemon.handle reply).endHost.name = daemon.endHost.name := by
  unfold handle registerSuccessHandler
  split
  · split <;> rfl
  · rfl

theorem handles_name (replies : List Reply) (daemon : CybertwinEndHostDaemon) :
    (replies.foldl handle daemon).endHost.name = daemon.endHost.name := by
  induction replies generalizing daemon with
  | nil => rfl
  | cons reply rest ih =>
      rw [List.foldl_cons, ih, handle_name]

theorem handle_registered (daemon : CybertwinEndHostDaemon) (reply : Reply) :
    (daemon.handle reply).isRegisteredToCybertwin = true ↔
      daemon.isRegisteredToCybertwin = true ∨ reply.isAck := by
  unfold handle registerSuccessHandler Reply.isAck
  split
  · rename_i ack
    split <;> simp [ack]
  · rename_i other
    simp [other]

theorem handles_registered (replies : List Reply) (daemon : CybertwinEndHostDaemon) :
    (replies.foldl handle daemon).isRegisteredToCybertwin = true ↔
      daemon.isRegisteredToCybertwin = true ∨ ∃ reply ∈ replies, reply.isAck := by
  induction replies generalizing daemon with
  | nil => simp
  | cons reply rest ih =>
      rw [List.foldl_cons, ih, handle_registered, or_assoc]
      simp

/-- The daemon and its end host know the cybertwin of a reply. -/
structure Knows (daemon : CybertwinEndHostDaemon) (reply : Reply) : Prop where
  id : daemon.cybertwinId = reply.cuid
  port : daemon.cybertwinPort = reply.port
  endHostId : daemon.endHost.cybertwinId = reply.cuid
  endHostPort : daemon.endHost.cybertwinPort = reply.port

theorem knows_handle {daemon : CybertwinEndHostDaemon} {reply : Reply}
    (own : reply.isOwnAck daemon.endHost.name) : (daemon.handle reply).Knows reply := by
  obtain ⟨ack, name⟩ := own
  rw [Reply.isAck] at ack
  unfold handle registerSuccessHandler
  rw [if_pos ack, if_neg (by simp [name])]
  exact ⟨rfl, rfl, rfl, rfl⟩

theorem Knows.handle {daemon : CybertwinEndHostDaemon} {reply earlier : Reply}
    (knows : daemon.Knows earlier) (other : ¬ reply.isOwnAck daemon.endHost.name) :
    (daemon.handle reply).Knows earlier := by
  unfold CybertwinEndHostDaemon.handle registerSuccessHandler
  split
  · rename_i ack
    rw [if_pos]
    · exact ⟨knows.id, knows.port, knows.endHostId, knows.endHostPort⟩
    · intro same
      exact other ⟨ack, same.symm⟩
  · exact knows

theorem knows_last (replies : List Reply) (daemon : CybertwinEndHostDaemon)
    (earlier : Option Reply) (known : ∀ reply ∈ earlier, daemon.Knows reply) :
    ∀ reply ∈ (replies.filter (Reply.isOwnAck daemon.endHost.name)).getLast?.or earlier,
      (replies.foldl handle daemon).Knows reply := by
  induction replies generalizing daemon earlier with
  | nil => exact known
  | cons reply rest ih =>
      rw [List.foldl_cons]
      by_cases own : reply.isOwnAck daemon.endHost.name
      · have later := ih (daemon.handle reply) (some reply) (by
          rintro other ⟨⟩
          exact knows_handle own)
        rw [handle_name] at later
        intro last isLast
        apply later
        rw [List.filter_cons_of_pos (by simpa using own)] at isLast
        cases filtered : rest.filter (Reply.isOwnAck daemon.endHost.name) with
        | nil => simpa [filtered] using isLast
        | cons first others => simpa [filtered, List.getLast?_cons] using isLast
      · have later := ih (daemon.handle reply) earlier
          fun other member => (known other member).handle own
        rw [handle_name] at later
        rw [List.filter_cons_of_neg (by simpa using own)]
        exact later

theorem recvFromCybertwinManangerCallback_eq (packets : List Packet)
    (daemon : CybertwinEndHostDaemon) :
    daemon.recvFromCybertwinManangerCallback packets =
      (readReplies packets).map fun replies => replies.foldl handle daemon := by
  induction packets generalizing daemon with
  | nil => rfl
  | cons packet rest ih =>
      rw [recvFromCybertwinManangerCallback, readReplies, List.mapM_cons]
      cases CybertwinManagerHeader.deserialize packet with
      | none => rfl
      | some read =>
          have later := ih (daemon.handle read.1)
          rw [readReplies] at later
          simp only [Option.map_some, Option.bind_eq_bind, Option.bind_some, later]
          cases rest.mapM fun packet => (CybertwinManagerHeader.deserialize packet).map Prod.fst <;> rfl

end CybertwinEndHostDaemon

structure Registration where
  daemon : CybertwinEndHostDaemon
  received : List Reply := []

namespace Registration

def ownAcks (state : Registration) : List Reply :=
  state.received.filter (Reply.isOwnAck state.daemon.endHost.name)

def step (before : Registration) (packets : List Packet) : Option Registration := do
  let daemon ← before.daemon.recvFromCybertwinManangerCallback packets
  let replies ← readReplies packets
  return { daemon, received := before.received ++ replies }

/-- The daemon is registered if it has received an acknowledgement for its own name, and then to
the cybertwin of the last one. -/
structure Truthful (state : Registration) : Prop where
  flag : state.daemon.isRegisteredToCybertwin = true ↔ state.ownAcks ≠ []
  last : ∀ reply ∈ state.ownAcks.getLast?, state.daemon.Knows reply

/-- No acknowledgement for another name reaches a daemon that is not registered, unless one for its
own name is read together with it. -/
def NotForeign (before : Registration) (packets : List Packet) : Prop :=
  ∀ replies ∈ readReplies packets, (∃ reply ∈ replies, reply.isAck) →
    before.daemon.isRegisteredToCybertwin = true ∨
      ∃ reply ∈ replies, reply.isOwnAck before.daemon.endHost.name

instance (before : Registration) (packets : List Packet) :
    Decidable (before.NotForeign packets) :=
  inferInstanceAs (Decidable (∀ replies ∈ readReplies packets, (∃ reply ∈ replies, reply.isAck) →
    before.daemon.isRegisteredToCybertwin = true ∨
      ∃ reply ∈ replies, reply.isOwnAck before.daemon.endHost.name))

def start (endHost : CybertwinEndHost) (cybertwinId : CybertwinId) (cybertwinPort : UInt16) :
    Registration where
  daemon := { endHost, cybertwinId, cybertwinPort }

theorem step_truthful_iff {before after : Registration} {packets : List Packet}
    (truthful : before.Truthful) (stepped : step before packets = some after) :
    after.Truthful ↔ before.NotForeign packets := by
  rw [step, CybertwinEndHostDaemon.recvFromCybertwinManangerCallback_eq] at stepped
  cases read : readReplies packets with
  | none => simp [read] at stepped
  | some replies =>
      simp only [read, Option.map_some, Option.bind_eq_bind, Option.bind_some, Option.pure_def,
        Option.some.injEq] at stepped
      subst stepped
      have own : ownAcks ⟨replies.foldl CybertwinEndHostDaemon.handle before.daemon,
          before.received ++ replies⟩ = before.ownAcks ++ replies.filter (Reply.isOwnAck before.daemon.endHost.name) := by
        rw [ownAcks, ownAcks, CybertwinEndHostDaemon.handles_name, List.filter_append]
      have last := CybertwinEndHostDaemon.knows_last replies _ _ truthful.last
      have some_own : replies.filter (Reply.isOwnAck before.daemon.endHost.name) ≠ [] ↔
          ∃ reply ∈ replies, reply.isOwnAck before.daemon.endHost.name := by
        simp [List.filter_eq_nil_iff]
      have flag := CybertwinEndHostDaemon.handles_registered replies before.daemon
      constructor
      · intro now others member ack
        obtain rfl := Option.some.inj (read.symm.trans member)
        have registered := now.flag.mp (flag.mpr (Or.inr ack))
        rw [own] at registered
        by_cases known : before.ownAcks = []
        · rw [known, List.nil_append] at registered
          exact Or.inr (some_own.mp registered)
        · exact Or.inl (truthful.flag.mpr known)
      · intro notForeign
        constructor
        · rw [flag, own, ne_eq, List.append_eq_nil_iff, not_and_or, ← ne_eq, ← ne_eq, ← truthful.flag,
            some_own]
          constructor
          · rintro (registered | ack)
            · exact Or.inl registered
            · exact notForeign replies read ack
          · rintro (registered | ⟨reply, member, ack, -⟩)
            · exact Or.inl registered
            · exact Or.inr ⟨reply, member, ack⟩
        · rw [own, List.getLast?_append]
          exact last

/-- In every run the daemon's registration is truthful throughout exactly if no foreign
acknowledgement registers it. -/
theorem truthful_iff_notForeign (endHost : CybertwinEndHost) (cybertwinId : CybertwinId)
    (cybertwinPort : UInt16) (batches : List (List Packet))
    (ran : (run step (start endHost cybertwinId cybertwinPort) batches).isSome) :
    Throughout step Truthful (start endHost cybertwinId cybertwinPort) batches ↔
      Guarded step NotForeign (start endHost cybertwinId cybertwinPort) batches := by
  refine throughout_iff_guarded (fun _ _ _ => step_truthful_iff) ?_ ran
  constructor
  · simp [start, ownAcks]
  · simp [start, ownAcks]

def ackFor (name : List UInt8) (cuid : CybertwinId) (port : UInt16) : Packet :=
  CybertwinManagerHeader.serialize
    { command := CybertwinProxyCommand.registrationAck.code, cname := name, cuid, port }

def errorFor (name : List UInt8) : Packet :=
  CybertwinManagerHeader.serialize
    { command := CybertwinProxyCommand.registrationError.code, cname := name }

/-- A foreign acknowledgement after the own one, and errors before and after it. -/
def replies : List (List Packet) :=
  [[errorFor [104]], [ackFor [104] 7 80], [ackFor [105] 8 81, errorFor [104]], [ackFor [104] 9 82]]

theorem truthful_replies :
    Throughout step Truthful (start { name := [104] } 0 0) replies := by
  refine (truthful_iff_notForeign { name := [104] } 0 0 replies (by decide +kernel)).mpr ?_
  decide +kernel

theorem foreign_registers :
    ¬ Throughout step Truthful (start { name := [104] } 0 0) [[ackFor [105] 8 81]] := by
  intro truthful
  have last := truthful [[ackFor [105] 8 81]] [] _ (List.append_nil _).symm rfl
  exact absurd last.flag (by decide +kernel)

end Registration

end FISim.Control
