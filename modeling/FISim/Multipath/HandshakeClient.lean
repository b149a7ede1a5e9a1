import FISim.Multipath.HandshakeInvariant

/-!
What each action of the handshake does to the invariant of one client's host.
-/

namespace FISim.Handshake

theorem covered_of_length {ready failed : List ℕ} {count : ℕ}
    (readyNodup : ready.Nodup) (failedNodup : failed.Nodup)
    (disjoint : ∀ index ∈ ready, index ∉ failed)
    (bounded : ∀ index, index ∈ ready ∨ index ∈ failed → index < count)
    (total : ready.length + failed.length = count) :
    ∀ index < count, index ∈ ready ∨ index ∈ failed := by
  have nodup : (ready ++ failed).Nodup := by
    rw [List.nodup_append]
    refine ⟨readyNodup, failedNodup, ?_⟩
    rintro index inReady other inFailed rfl
    exact disjoint index inReady inFailed
  have inside : ready ++ failed ⊆ List.range count := by
    intro index member
    exact List.mem_range.mpr (bounded index (List.mem_append.mp member))
  have perm := (nodup.subperm inside).perm_of_length_le (by simp [total])
  intro index bound
  exact List.mem_append.mp (perm.mem_iff.mpr (List.mem_range.mpr bound))

variable {stage : ℕ → Stage} {founder : Option ℕ} {ident : MpConnId} {host : ClientHost}

theorem addRawPath_conn (host : ClientHost) (index : ℕ) (path : SinglePath) (ready : Bool) :
    ∃ rawReadyPath rawFailPath, (addRawPath host index path ready).conn =
      { host.conn with rawReadyPath, rawFailPath } := by
  cases ready with
  | true => exact ⟨_, _, rfl⟩
  | false => exact ⟨_, _, rfl⟩

theorem addRawPath_pending (host : ClientHost) (index : ℕ) (path : SinglePath) (ready : Bool) :
    (addRawPath host index path ready).pending = host.pending ∨
      (addRawPath host index path ready).pending = host.pending ++ [.buildConnection] ∧
        (addRawPath host index path ready).conn.rawReadyPath.length +
          (addRawPath host index path ready).conn.rawFailPath.length = host.conn.pathNum := by
  cases ready with
  | true =>
      simp only [addRawPath, MultipathConnection.addRawPath, if_true, decide_eq_true_eq]
      split
      · exact Or.inr ⟨rfl, by assumption⟩
      · exact Or.inl (List.append_nil _)
  | false =>
      simp only [addRawPath, MultipathConnection.addRawPath, Bool.false_eq_true, if_false,
        decide_eq_true_eq]
      split
      · exact Or.inr ⟨rfl, by assumption⟩
      · exact Or.inl (List.append_nil _)

theorem report_list {index : ℕ} (new : Stage) {target : Stage} {list : List ℕ}
    (old : list.Nodup ∧ ∀ other, other ∈ list ↔ stage other = target)
    (unlisted : index ∉ list) :
    (if new = target then list ++ [index] else list).Nodup ∧
      ∀ other, other ∈ (if new = target then list ++ [index] else list) ↔
        Function.update stage index new other = target := by
  obtain ⟨nodup, members⟩ := old
  by_cases reached : new = target
  · rw [if_pos reached]
    constructor
    · simpa [List.nodup_append] using
        ⟨nodup, fun other member same => unlisted (same ▸ member)⟩
    · intro other
      by_cases same : other = index
      · simp [same, reached]
      · simp [same, members]
  · rw [if_neg reached]
    refine ⟨nodup, fun other => ?_⟩
    by_cases same : other = index
    · simp [same, reached, unlisted]
    · simp [same, members]

theorem update_stage_iff {index : ℕ} {new target : Stage} (old : stage index ≠ target)
    (fresh : new ≠ target) (other : ℕ) :
    Function.update stage index new other = target ↔ stage other = target := by
  by_cases same : other = index
  · simp [same, old, fresh]
  · simp [same]

theorem update_begun {index : ℕ} {new : Stage} (begun : new.begun = (stage index).begun)
    (other : ℕ) : (Function.update stage index new other).begun = (stage other).begun := by
  by_cases same : other = index
  · simp [same, begun]
  · simp [same]

theorem reported_all {ready failed : List ℕ} {count : ℕ}
    (isReady : ready.Nodup ∧ ∀ other, other ∈ ready ↔ stage other = .raw)
    (isFailed : failed.Nodup ∧ ∀ other, other ∈ failed ↔ stage other = .failed)
    (used : ∀ other, stage other = .unused ↔ count ≤ other)
    (total : ready.length + failed.length = count) (index : ℕ) : stage index ≠ .dialing := by
  intro dialing
  have within : ∀ other, stage other ≠ .unused → other < count := by
    intro other inUse
    by_contra beyond
    exact inUse ((used other).mpr (Nat.le_of_not_lt beyond))
  have covered := covered_of_length isReady.1 isFailed.1
    (fun other inReady inFailed => by
      rw [isReady.2] at inReady
      rw [isFailed.2, inReady] at inFailed
      cases inFailed)
    (fun other listed => within other fun unused => by
      rw [isReady.2, isFailed.2, unused] at listed
      simp at listed) total
  have reported := covered index (within index (by rw [dialing]; decide))
  rw [isReady.2, isFailed.2, dialing] at reported
  simp at reported

theorem mem_addRawPath_pending {index : ℕ} {path : SinglePath} {ready : Bool} {event : ClientEvent}
    (other : event ≠ .buildConnection) :
    event ∈ (addRawPath host index path ready).pending ↔ event ∈ host.pending := by
  rcases addRawPath_pending host index path ready with same | ⟨more, _⟩
  · rw [same]
  · simp [more, other]

theorem addRawPath_pending_nodup {index : ℕ} {path : SinglePath} {ready : Bool}
    (nodup : host.pending.Nodup) (unbuilt : .buildConnection ∉ host.pending) :
    (addRawPath host index path ready).pending.Nodup := by
  rcases addRawPath_pending host index path ready with same | ⟨more, _⟩
  · rw [same]
    exact nodup
  · rw [more, List.nodup_append]
    refine ⟨nodup, List.nodup_singleton _, ?_⟩
    intro event member other isBuild
    rw [List.mem_singleton.mp isBuild]
    rintro rfl
    exact unbuilt member

/-- The stage of a path that has reported. -/
def reported (ready : Bool) : Stage := if ready then .raw else .failed

theorem addRawPath_listed {index : ℕ} (path : SinglePath) (ready : Bool)
    (ok : ClientOk stage founder ident host) (dialing : stage index = .dialing) :
    ((addRawPath host index path ready).conn.rawReadyPath.Nodup ∧
      ∀ other, other ∈ (addRawPath host index path ready).conn.rawReadyPath ↔
        Function.update stage index (reported ready) other = .raw) ∧
    ((addRawPath host index path ready).conn.rawFailPath.Nodup ∧
      ∀ other, other ∈ (addRawPath host index path ready).conn.rawFailPath ↔
        Function.update stage index (reported ready) other = .failed) := by
  have notReady : index ∉ host.conn.rawReadyPath := by
    rw [ok.rawReady.2, dialing]
    simp
  have notFailed : index ∉ host.conn.rawFailPath := by
    rw [ok.rawFail.2, dialing]
    simp
  have readyList := report_list (reported ready) ok.rawReady notReady
  have failList := report_list (reported ready) ok.rawFail notFailed
  cases ready with
  | true => exact ⟨readyList, failList⟩
  | false => exact ⟨readyList, failList⟩

theorem not_accepted (early : ∀ index, (stage index).begun = false) (index : ℕ) :
    stage index ≠ .accepted := by
  intro accepted
  have := early index
  rw [accepted] at this
  cases this

theorem ClientOk.report {index : ℕ} {path : SinglePath} {ready : Bool}
    (ok : ClientOk stage founder ident host) (dialing : stage index = .dialing) :
    ClientOk (Function.update stage index (if ready then .raw else .failed)) founder ident
      (addRawPath host index path ready) := by
  change ClientOk (Function.update stage index (reported ready)) founder ident _
  have unfounded : founder = none := by
    cases founder with
    | none => rfl
    | some first => exact absurd dialing ((ok.founded first rfl).2 index)
  subst unfounded
  have early := ok.unfounded rfl
  have notBuild : .buildConnection ∉ host.pending := fun built =>
    (ok.build built).2 index dialing
  obtain ⟨readyList, failList⟩ := addRawPath_listed path ready ok dialing
  obtain ⟨rawReadyPath, rawFailPath, conn⟩ := addRawPath_conn host index path ready
  have newBegun : (reported ready).begun = false := by cases ready <;> rfl
  have begun := update_begun (newBegun.trans (early index).symm)
  have stillEarly : ∀ other, (Function.update stage index (reported ready) other).begun = false :=
    fun other => (begun other).trans (early other)
  have used : ∀ other, Function.update stage index (reported ready) other = .unused ↔
      host.conn.pathNum ≤ other := fun other =>
    (update_stage_iff (by rw [dialing]; decide) (by cases ready <;> decide) other).trans
      (ok.used other)
  have members : ∀ other, Function.update stage index (reported ready) other = .member ↔
      stage other = .member :=
    update_stage_iff (by rw [dialing]; decide) (by cases ready <;> decide)
  constructor
  · rw [conn]
    exact ok.key
  · rw [conn]
    exact used
  · exact readyList
  · exact failList
  · rw [conn]
    exact ⟨ok.members.1, fun other => (ok.members.2 other).trans (members other).symm⟩
  · exact addRawPath_pending_nodup ok.pending notBuild
  · intro build
    refine ⟨rfl, ?_⟩
    rcases addRawPath_pending host index path ready with same | ⟨_, total⟩
    · rw [same] at build
      exact absurd build notBuild
    · exact reported_all readyList failList used total
  · intro other
    rw [mem_addRawPath_pending (by simp), ok.addInit]
    simp
  · intro other success
    rw [mem_addRawPath_pending (by simp), ok.join]
    simp [not_accepted early, not_accepted stillEarly]
  · intro other
    rw [mem_addRawPath_pending (by simp)] at other
    rw [conn]
    exact ok.other other
  · intro other
    rw [mem_addRawPath_pending (by simp)]
    exact ok.noData other
  · exact fun _ => stillEarly
  · simp
  · simp
  · rw [conn]
    have notConnected := ok.connect
    simpa using notConnected
  · intro connected
    rw [conn] at connected ⊢
    exact ok.numbers connected

theorem ClientOk.answer {index : ℕ} {newIdent : MpConnId}
    (ok : ClientOk stage founder ident host) (asking : stage index = .asking)
    (kept : founder ≠ some index → newIdent = ident) :
    ClientOk (Function.update stage index .answered) founder newIdent host := by
  have begun := update_begun (show Stage.answered.begun = (stage index).begun by rw [asking]; rfl)
  have same : ∀ {target : Stage}, target ≠ .asking → target ≠ .answered → ∀ other,
      Function.update stage index .answered other = target ↔ stage other = target := by
    intro target notAsking notAnswered
    exact update_stage_iff (by rw [asking]; exact notAsking.symm) notAnswered.symm
  constructor
  · exact ok.key
  · intro other
    rw [same (by decide) (by decide), ok.used]
  · exact ⟨ok.rawReady.1, fun other => by rw [same (by decide) (by decide), ok.rawReady.2]⟩
  · exact ⟨ok.rawFail.1, fun other => by rw [same (by decide) (by decide), ok.rawFail.2]⟩
  · exact ⟨ok.members.1, fun other => by rw [same (by decide) (by decide), ok.members.2]⟩
  · exact ok.pending
  · intro build
    obtain ⟨none, settledDown⟩ := ok.build build
    exact ⟨none, fun other => by rw [ne_eq, same (by decide) (by decide)]; exact settledDown other⟩
  · intro other
    rw [same (by decide) (by decide), ok.addInit]
  · intro other success
    rw [same (by decide) (by decide), ok.join]
  · exact ok.other
  · exact ok.noData
  · intro none other
    rw [begun]
    exact ok.unfounded none other
  · intro first founded
    obtain ⟨started, settledDown⟩ := ok.founded first founded
    rw [begun]
    exact ⟨started, fun other => by
      rw [ne_eq, same (by decide) (by decide)]
      exact settledDown other⟩
  · intro first founded notMember other distinct
    rw [ne_eq, same (by decide) (by decide)] at notMember
    rw [begun]
    exact ok.alone first founded notMember other distinct
  · rw [ok.connect]
    refine exists_congr fun first => ?_
    rw [same (by decide) (by decide)]
  · intro connected
    obtain ⟨first, founded, member⟩ := ok.connect.mp connected
    have distinct : founder ≠ some index := by
      intro founds
      rw [founds, Option.some.injEq] at founded
      rw [← founded, asking] at member
      cases member
    rw [kept distinct]
    exact ok.numbers connected

theorem ClientOk.accept {index : ℕ} {event : ClientEvent} {paths : ℕ → SinglePath}
    (ok : ClientOk stage founder ident host) (answered : stage index = .answered)
    (founds : founder = some index → event = .addInitConnectPath index)
    (joins : founder ≠ some index → event = .pathJoinResult index true) :
    ClientOk (Function.update stage index .accepted) founder ident
      { host with paths, pending := host.pending ++ [event] } := by
  have begun := update_begun (show Stage.accepted.begun = (stage index).begun by
    rw [answered]; rfl)
  have same : ∀ {target : Stage}, target ≠ .answered → target ≠ .accepted → ∀ other,
      Function.update stage index .accepted other = target ↔ stage other = target := by
    intro target notAnswered notAccepted
    exact update_stage_iff (by rw [answered]; exact notAnswered.symm) notAccepted.symm
  have accepts : ∀ other, Function.update stage index .accepted other = .accepted ↔
      other = index ∨ stage other = .accepted := by
    intro other
    by_cases equal : other = index
    · simp [equal]
    · simp [equal]
  have notPending : event ∉ host.pending := by
    by_cases first : founder = some index
    · rw [founds first, ok.addInit, answered]
      simp
    · rw [joins first, ok.join, answered]
      simp
  have isEvent : event = .addInitConnectPath index ∨ event = .pathJoinResult index true := by
    by_cases first : founder = some index
    · exact Or.inl (founds first)
    · exact Or.inr (joins first)
  constructor
  · exact ok.key
  · intro other
    rw [same (by decide) (by decide)]
    exact ok.used other
  · exact ⟨ok.rawReady.1, fun other => by
      rw [same (by decide) (by decide)]; exact ok.rawReady.2 other⟩
  · exact ⟨ok.rawFail.1, fun other => by
      rw [same (by decide) (by decide)]; exact ok.rawFail.2 other⟩
  · exact ⟨ok.members.1, fun other => by
      rw [same (by decide) (by decide)]; exact ok.members.2 other⟩
  · rw [List.nodup_append]
    refine ⟨ok.pending, List.nodup_singleton event, ?_⟩
    rintro old member _ new rfl
    rw [List.mem_singleton.mp new] at member
    exact notPending member
  · intro build
    rcases List.mem_append.mp build with old | new
    · obtain ⟨none, settledDown⟩ := ok.build old
      exact ⟨none, fun other => by
        rw [ne_eq, same (by decide) (by decide)]; exact settledDown other⟩
    · rcases isEvent with rfl | rfl <;> simp at new
  · intro other
    rw [List.mem_append, ok.addInit, accepts, List.mem_singleton]
    by_cases first : founder = some index
    · rw [founds first, first]
      simp only [Option.some.injEq, ClientEvent.addInitConnectPath.injEq]
      grind
    · rw [joins first]
      grind
  · intro other success
    rw [List.mem_append, ok.join, accepts, List.mem_singleton]
    by_cases first : founder = some index
    · rw [founds first]
      grind
    · rw [joins first]
      grind
  · intro other
    rcases List.mem_append.mp other with old | new
    · exact ok.other old
    · rcases isEvent with rfl | rfl <;> simp at new
  · intro other data
    rcases List.mem_append.mp data with old | new
    · exact ok.noData other old
    · rcases isEvent with rfl | rfl <;> simp at new
  · intro none other
    rw [begun]
    exact ok.unfounded none other
  · intro first founded
    obtain ⟨started, settledDown⟩ := ok.founded first founded
    rw [begun]
    exact ⟨started, fun other => by
      rw [ne_eq, same (by decide) (by decide)]
      exact settledDown other⟩
  · intro first founded notMember other distinct
    rw [ne_eq, same (by decide) (by decide)] at notMember
    rw [begun]
    exact ok.alone first founded notMember other distinct
  · refine ok.connect.trans (exists_congr fun first => ?_)
    rw [same (by decide) (by decide)]
  · exact ok.numbers

theorem ClientOk.buildNothing (ok : ClientOk stage founder ident host) :
    ClientOk stage founder ident
      { host with pending := host.pending.erase .buildConnection } := by
  have erased : ∀ event, event ∈ host.pending.erase .buildConnection ↔
      event ≠ .buildConnection ∧ event ∈ host.pending := fun event => ok.pending.mem_erase_iff
  refine ⟨ok.key, ok.used, ok.rawReady, ok.rawFail, ok.members, ok.pending.erase _, ?_, ?_, ?_, ?_,
    ?_, ok.unfounded, ok.founded, ok.alone, ok.connect, ok.numbers⟩
  · intro build
    exact absurd rfl ((erased _).mp build).1
  · intro index
    rw [← ok.addInit, erased]
    simp
  · intro index success
    rw [← ok.join, erased]
    simp
  · exact fun other => ok.other ((erased _).mp other).2
  · exact fun index data => ok.noData index ((erased _).mp data).2

theorem ClientOk.buildFirst {index : ℕ} {rest : List ℕ} {paths : ℕ → SinglePath}
    (ok : ClientOk stage founder ident host) (scheduled : .buildConnection ∈ host.pending)
    (ready : host.conn.rawReadyPath = index :: rest) :
    stage index = .raw ∧ founder = none ∧
      ClientOk (Function.update stage index .asking) (some index) ident
        { conn := { host.conn with rawReadyPath := rest }, paths,
          pending := host.pending.erase .buildConnection } := by
  obtain ⟨none, notDialing⟩ := ok.build scheduled
  have raw : stage index = .raw := (ok.rawReady.2 index).mp (by rw [ready]; simp)
  refine ⟨raw, none, ?_⟩
  subst none
  have early := ok.unfounded rfl
  have same : ∀ {target : Stage}, target ≠ .raw → target ≠ .asking → ∀ other,
      Function.update stage index .asking other = target ↔ stage other = target := by
    intro target notRaw notAsking
    exact update_stage_iff (by rw [raw]; exact notRaw.symm) notAsking.symm
  have never : ∀ {target : Stage}, target.begun = true → ∀ other, stage other ≠ target := by
    intro target begun other reached
    have := early other
    rw [reached, begun] at this
    cases this
  have erased : ∀ event, event ∈ host.pending.erase .buildConnection ↔
      event ≠ .buildConnection ∧ event ∈ host.pending := fun event => ok.pending.mem_erase_iff
  obtain ⟨fresh, restNodup⟩ := List.nodup_cons.mp (ready ▸ ok.rawReady.1)
  constructor
  · exact ok.key
  · intro other
    rw [same (by decide) (by decide)]
    exact ok.used other
  · refine ⟨restNodup, fun other => ?_⟩
    have listed := ok.rawReady.2 other
    rw [ready, List.mem_cons] at listed
    by_cases equal : other = index
    · subst equal
      simp [fresh]
    · simpa [equal] using listed
  · exact ⟨ok.rawFail.1, fun other => by
      rw [same (by decide) (by decide)]; exact ok.rawFail.2 other⟩
  · exact ⟨ok.members.1, fun other => by
      rw [same (by decide) (by decide)]; exact ok.members.2 other⟩
  · exact ok.pending.erase _
  · intro build
    exact absurd rfl ((erased _).mp build).1
  · intro other
    rw [erased, ok.addInit]
    have unreached := never (show Stage.accepted.begun = true from rfl) other
    by_cases equal : other = index
    · simp [equal]
    · simp [equal, unreached]
  · intro other success
    rw [erased, ok.join]
    have unreached := never (show Stage.accepted.begun = true from rfl) other
    by_cases equal : other = index
    · simp [equal, never (show Stage.accepted.begun = true from rfl) index]
    · simp [equal, unreached]
  · exact fun other => ok.other ((erased _).mp other).2
  · exact fun other data => ok.noData other ((erased _).mp data).2
  · simp
  · intro first founds
    rw [Option.some.injEq] at founds
    subst founds
    refine ⟨by simp [Stage.begun], fun other => ?_⟩
    rw [ne_eq, same (by decide) (by decide)]
    exact notDialing other
  · intro first founds _ other distinct
    rw [Option.some.injEq] at founds
    subst founds
    simpa [distinct] using early other
  · have notConnected := ok.connect
    simp only [reduceCtorEq, false_and, exists_false, iff_false] at notConnected
    simp [notConnected]
  · intro connected
    exact ok.numbers connected

theorem ClientOk.init {index : ℕ} {remoteKey : MpConnKey} {readyPath : List ℕ}
    (ok : ClientOk stage founder ident host)
    (scheduled : .addInitConnectPath index ∈ host.pending) :
    stage index = .accepted ∧ founder = some index ∧
      ClientOk (Function.update stage index .member) founder ident
        { conn := { host.conn with
            connID := ident, sendSeqNum := ident, recvSeqNum := ident, remoteKey, readyPath,
            paths := host.conn.paths ++ [index], connState := .connect },
          paths := host.paths,
          pending := host.pending.erase (.addInitConnectPath index) ++ [.connectOtherPath] } := by
  obtain ⟨founds, accepted⟩ := (ok.addInit index).mp scheduled
  refine ⟨accepted, founds, ?_⟩
  have begun := update_begun (show Stage.member.begun = (stage index).begun by rw [accepted]; rfl)
  have same : ∀ {target : Stage}, target ≠ .accepted → target ≠ .member → ∀ other,
      Function.update stage index .member other = target ↔ stage other = target := by
    intro target notAccepted notMember
    exact update_stage_iff (by rw [accepted]; exact notAccepted.symm) notMember.symm
  have erased : ∀ event, event ∈ host.pending.erase (.addInitConnectPath index) ↔
      event ≠ .addInitConnectPath index ∧ event ∈ host.pending :=
    fun event => ok.pending.mem_erase_iff
  have notConnected : host.conn.connState ≠ .connect := by
    intro connected
    obtain ⟨first, founded, member⟩ := ok.connect.mp connected
    rw [founds, Option.some.injEq] at founded
    rw [← founded, accepted] at member
    cases member
  have notOther : ClientEvent.connectOtherPath ∉ host.pending := fun other =>
    notConnected (ok.other other)
  have notMember : index ∉ host.conn.paths := by
    rw [ok.members.2, accepted]
    simp
  constructor
  · exact ok.key
  · intro other
    rw [same (by decide) (by decide)]
    exact ok.used other
  · exact ⟨ok.rawReady.1, fun other => by
      rw [same (by decide) (by decide)]; exact ok.rawReady.2 other⟩
  · exact ⟨ok.rawFail.1, fun other => by
      rw [same (by decide) (by decide)]; exact ok.rawFail.2 other⟩
  · constructor
    · simpa [List.nodup_append] using
        ⟨ok.members.1, fun other inside equal => notMember (equal ▸ inside)⟩
    · intro other
      by_cases equal : other = index
      · simp [equal]
      · simp [equal, ok.members.2]
  · rw [List.nodup_append]
    refine ⟨ok.pending.erase _, List.nodup_singleton _, ?_⟩
    rintro old member _ new rfl
    rw [List.mem_singleton.mp new, erased] at member
    exact notOther member.2
  · intro build
    rw [List.mem_append, erased] at build
    obtain ⟨_, old⟩ | new := build
    · obtain ⟨none, _⟩ := ok.build old
      rw [founds] at none
      cases none
    · simp at new
  · intro other
    rw [List.mem_append, erased, ok.addInit, founds]
    by_cases equal : other = index
    · simp [equal]
    · simp [equal, Ne.symm equal]
  · intro other success
    rw [List.mem_append, erased, ok.join, founds]
    by_cases equal : other = index
    · simp [equal]
    · simp [equal]
  · exact fun _ => rfl
  · intro other data
    rw [List.mem_append, erased] at data
    obtain ⟨_, old⟩ | new := data
    · exact ok.noData other old
    · simp at new
  · intro none
    rw [founds] at none
    cases none
  · intro first founded
    obtain ⟨started, settledDown⟩ := ok.founded first founded
    rw [begun]
    exact ⟨started, fun other => by
      rw [ne_eq, same (by decide) (by decide)]
      exact settledDown other⟩
  · intro first founded notMember
    rw [founds, Option.some.injEq] at founded
    subst founded
    simp at notMember
  · simp [founds]
  · exact fun _ => ⟨rfl, rfl, rfl⟩

def joining (stage : ℕ → Stage) (index : ℕ) : Stage :=
  if stage index = .raw then .asking else stage index

theorem joining_iff {target : Stage} (notRaw : target ≠ .raw) (notAsking : target ≠ .asking)
    (index : ℕ) : joining stage index = target ↔ stage index = target := by
  unfold joining
  split
  · rename_i raw
    simp [raw, notRaw.symm, notAsking.symm]
  · rfl

theorem ClientOk.connectOthers {paths : ℕ → SinglePath} (ok : ClientOk stage founder ident host)
    (scheduled : .connectOtherPath ∈ host.pending) :
    ClientOk (joining stage) founder ident
      { conn := { host.conn with rawReadyPath := [] }, paths,
        pending := host.pending.erase .connectOtherPath } := by
  obtain ⟨first, founds, member⟩ := ok.connect.mp (ok.other scheduled)
  have erased : ∀ event, event ∈ host.pending.erase .connectOtherPath ↔
      event ≠ .connectOtherPath ∧ event ∈ host.pending := fun event => ok.pending.mem_erase_iff
  constructor
  · exact ok.key
  · intro index
    rw [joining_iff (by decide) (by decide)]
    exact ok.used index
  · refine ⟨List.nodup_nil, fun index => ?_⟩
    simp only [List.not_mem_nil, false_iff, joining]
    split
    · decide
    · assumption
  · exact ⟨ok.rawFail.1, fun index => by
      rw [joining_iff (by decide) (by decide)]; exact ok.rawFail.2 index⟩
  · exact ⟨ok.members.1, fun index => by
      rw [joining_iff (by decide) (by decide)]; exact ok.members.2 index⟩
  · exact ok.pending.erase _
  · intro build
    obtain ⟨none, _⟩ := ok.build ((erased _).mp build).2
    rw [founds] at none
    cases none
  · intro index
    rw [joining_iff (by decide) (by decide), erased, ok.addInit]
    simp
  · intro index success
    rw [joining_iff (by decide) (by decide), erased, ok.join]
    simp
  · exact fun other => ok.other ((erased _).mp other).2
  · exact fun index data => ok.noData index ((erased _).mp data).2
  · intro none
    rw [founds] at none
    cases none
  · intro other founded
    obtain ⟨started, settledDown⟩ := ok.founded other founded
    constructor
    · unfold joining
      split
      · rfl
      · exact started
    · intro index
      rw [ne_eq, joining_iff (by decide) (by decide)]
      exact settledDown index
  · intro other founded notMember
    rw [founds, Option.some.injEq] at founded
    subst founded
    rw [ne_eq, joining_iff (by decide) (by decide)] at notMember
    exact absurd member notMember
  · refine ok.connect.trans (exists_congr fun other => ?_)
    rw [joining_iff (by decide) (by decide)]
  · exact ok.numbers

theorem ClientOk.joined {index : ℕ} {success : Bool} {readyPath : List ℕ}
    (ok : ClientOk stage founder ident host)
    (scheduled : .pathJoinResult index success ∈ host.pending) :
    success = true ∧ stage index = .accepted ∧
      ClientOk (Function.update stage index .member) founder ident
        { conn := { host.conn with readyPath, paths := host.conn.paths ++ [index] },
          paths := host.paths,
          pending := host.pending.erase (.pathJoinResult index success) } := by
  obtain ⟨success, joins, accepted⟩ := (ok.join index success).mp scheduled
  refine ⟨success, accepted, ?_⟩
  subst success
  have begun := update_begun (show Stage.member.begun = (stage index).begun by rw [accepted]; rfl)
  have same : ∀ {target : Stage}, target ≠ .accepted → target ≠ .member → ∀ other,
      Function.update stage index .member other = target ↔ stage other = target := by
    intro target notAccepted notMember
    exact update_stage_iff (by rw [accepted]; exact notAccepted.symm) notMember.symm
  have erased : ∀ event, event ∈ host.pending.erase (.pathJoinResult index true) ↔
      event ≠ .pathJoinResult index true ∧ event ∈ host.pending :=
    fun event => ok.pending.mem_erase_iff
  have notMember : index ∉ host.conn.paths := by
    rw [ok.members.2, accepted]
    simp
  have founderStage : ∀ first, founder = some first →
      (Function.update stage index .member first = .member ↔ stage first = .member) := by
    intro first founds
    have distinct : first ≠ index := by
      rintro rfl
      exact joins founds
    simp [distinct]
  constructor
  · exact ok.key
  · intro other
    rw [same (by decide) (by decide)]
    exact ok.used other
  · exact ⟨ok.rawReady.1, fun other => by
      rw [same (by decide) (by decide)]; exact ok.rawReady.2 other⟩
  · exact ⟨ok.rawFail.1, fun other => by
      rw [same (by decide) (by decide)]; exact ok.rawFail.2 other⟩
  · constructor
    · simpa [List.nodup_append] using
        ⟨ok.members.1, fun other inside equal => notMember (equal ▸ inside)⟩
    · intro other
      by_cases equal : other = index
      · simp [equal]
      · simp [equal, ok.members.2]
  · exact ok.pending.erase _
  · intro build
    obtain ⟨none, settledDown⟩ := ok.build ((erased _).mp build).2
    exact ⟨none, fun other => by
      rw [ne_eq, same (by decide) (by decide)]; exact settledDown other⟩
  · intro other
    rw [erased, ok.addInit]
    by_cases equal : other = index
    · simp [equal, joins]
    · simp [equal]
  · intro other success
    rw [erased, ok.join]
    by_cases equal : other = index
    · cases success <;> simp [equal]
    · simp [equal]
  · exact fun other => ok.other ((erased _).mp other).2
  · exact fun other data => ok.noData other ((erased _).mp data).2
  · intro none other
    rw [begun]
    exact ok.unfounded none other
  · intro first founded
    obtain ⟨started, settledDown⟩ := ok.founded first founded
    rw [begun]
    exact ⟨started, fun other => by
      rw [ne_eq, same (by decide) (by decide)]
      exact settledDown other⟩
  · intro first founded unfinished other distinct
    rw [ne_eq, founderStage first founded] at unfinished
    rw [begun]
    exact ok.alone first founded unfinished other distinct
  · refine ok.connect.trans (exists_congr fun first => and_congr_right fun founded => ?_)
    exact (founderStage first founded).symm
  · exact ok.numbers

end FISim.Handshake
