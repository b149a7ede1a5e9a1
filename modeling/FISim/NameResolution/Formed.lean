import FISim.NameResolution.Outstanding

/-!
The lists that travel: each of them fits a header, and each response carries a
list that some node held.
-/

namespace FISim.NameResolution

open Transition

variable {Node : Type} [DecidableEq Node]

/-- Some node held the list for the name at some moment of the run. -/
def Held (hierarchy : Hierarchy Node) (past : List (Action Node)) (name : Name)
    (interfaces : CybertwinInterfaceList) : Prop :=
  ∃ first second net node, past = first ++ second ∧ run (step hierarchy) {} first = some net ∧
    (net.service node).itemCache name = some interfaces

/-- Every list fits a header, and every response carries a list that some node held. -/
structure Formed (hierarchy : Hierarchy Node) (past : List (Action Node)) (net : Network Node) :
    Prop where
  items : ∀ node name interfaces, (net.service node).itemCache name = some interfaces →
    interfaces.length ≤ 255
  reports : ∀ node, ∀ report ∈ net.reports node, report.2.length ≤ 255
  up : ∀ node, ∀ header ∈ net.up node, header.interfaceList.length ≤ 255
  down : ∀ node, ∀ header ∈ net.down node,
    (answer header).length ≤ 255 ∧ Held hierarchy past header.cuid (answer header)

variable {hierarchy : Hierarchy Node} {before after : Network Node}
  {past : List (Action Node)} {action : Action Node}

theorem Held.later {name : Name} {interfaces : CybertwinInterfaceList}
    (held : Held hierarchy past name interfaces) (action : Action Node) :
    Held hierarchy (past ++ [action]) name interfaces := by
  obtain ⟨first, second, net, node, rfl, ran, entry⟩ := held
  exact ⟨first, second ++ [action], net, node, List.append_assoc _ _ _, ran, entry⟩

theorem held_now {name : Name} {interfaces : CybertwinInterfaceList} {node : Node}
    (ran : run (step hierarchy) {} past = some before)
    (entry : (before.service node).itemCache name = some interfaces) :
    Held hierarchy past name interfaces :=
  ⟨past, [], before, node, (List.append_nil _).symm, ran, entry⟩

theorem Formed.learned (formed : Formed hierarchy past before) {node other : Node}
    {index : ℕ} {header : CNRSHeader} (found : (before.down node)[index]? = some header)
    {name : Name} {interfaces : CybertwinInterfaceList}
    (entry : (((before.takeDown node index).learned node header).service other).itemCache name =
      some interfaces) : interfaces.length ≤ 255 := by
  rw [Network.learned_itemCache] at entry
  split at entry
  · rename_i ok
    rw [← Option.some.inj entry]
    have fits := (formed.down node header (List.mem_of_getElem? found)).1
    rwa [answer, if_pos ok.1] at fits
  · exact formed.items other name interfaces entry

theorem Formed.items_step (formed : Formed hierarchy past before)
    (answerable : Answerable hierarchy before action)
    (happened : step hierarchy before action = some after) (other : Node) (asks : Name)
    (held : CybertwinInterfaceList)
    (entry : (after.service other).itemCache asks = some held) : held.length ≤ 255 := by
  cases step_move happened with
  | insert node name interfaces =>
      rw [Network.stored_itemCache] at entry
      split at entry
      · rw [← Option.some.inj entry]
        exact answerable
      · exact formed.items other asks held entry
  | insertArrived node superior index header above found insert =>
      rw [Network.stored_itemCache] at entry
      split at entry
      · rw [← Option.some.inj entry]
        exact formed.up node header (List.mem_of_getElem? found)
      · exact formed.items other asks held entry
  | relayed node peer index header found response client fits =>
      rw [Network.sendDown_service, Network.setClient_itemCache] at entry
      exact formed.learned found entry
  | called node index header lookup found response noClient known =>
      rw [Network.call_service, Network.setQuery_itemCache] at entry
      exact formed.learned found entry
  | unknown node index header found response noClient known => exact formed.learned found entry
  | lookupSent node name qId superior miss fresh above =>
      rw [Network.sendUp_service, Network.setQuery_itemCache] at entry
      exact formed.items other asks held entry
  | lookupFailed node name qId miss fresh top =>
      rw [Network.call_service, Network.setQuery_itemCache] at entry
      exact formed.items other asks held entry
  | queryForwarded node superior further index header above found query miss beyond =>
      rw [Network.sendUp_service, Network.recorded_itemCache] at entry
      exact formed.items other asks held entry
  | lookupHit | reported | unreported | queryHit | otherUp | otherDown | lostUp | lostDown =>
      exact formed.items other asks held entry

theorem Formed.reports_stored (formed : Formed hierarchy past before) {node other : Node}
    {name : Name} {interfaces : CybertwinInterfaceList} (fits : interfaces.length ≤ 255) :
    ∀ report ∈ (before.stored hierarchy node name interfaces).reports other,
      report.2.length ≤ 255 := by
  intro report inside
  rw [Network.stored_reports] at inside
  rcases List.mem_append.mp inside with old | new
  · exact formed.reports other report old
  · split at new
    · rw [List.mem_singleton.mp new]
      exact fits
    · cases new

theorem Formed.setReports (formed : Formed hierarchy past before) {node other : Node}
    {entry : Name × CybertwinInterfaceList} {rest : List (Name × CybertwinInterfaceList)}
    (pending : before.reports node = entry :: rest) :
    ∀ report ∈ (before.setReports node rest).reports other, report.2.length ≤ 255 := by
  intro report inside
  by_cases same : other = node
  · subst same
    simp only [Network.setReports, Function.update_self] at inside
    exact formed.reports other report (by rw [pending]; exact List.mem_cons_of_mem _ inside)
  · simp only [Network.setReports, Function.update_of_ne same] at inside
    exact formed.reports other report inside

theorem Formed.takeUp (formed : Formed hierarchy past before) (node : Node) (index : ℕ) :
    Formed hierarchy past (before.takeUp node index) := by
  refine { formed with up := fun other message inside => ?_ }
  by_cases same : other = node
  · subst same
    simp only [Network.takeUp, Function.update_self] at inside
    exact formed.up other message (List.mem_of_mem_eraseIdx inside)
  · simp only [Network.takeUp, Function.update_of_ne same] at inside
    exact formed.up other message inside

theorem Formed.takeDown (formed : Formed hierarchy past before) (node : Node) (index : ℕ) :
    Formed hierarchy past (before.takeDown node index) := by
  refine { formed with down := fun other message inside => ?_ }
  by_cases same : other = node
  · subst same
    simp only [Network.takeDown, Function.update_self] at inside
    exact formed.down other message (List.mem_of_mem_eraseIdx inside)
  · simp only [Network.takeDown, Function.update_of_ne same] at inside
    exact formed.down other message inside

theorem Formed.sendUp (formed : Formed hierarchy past before) (node : Node)
    (header : CNRSHeader) (fits : header.interfaceList.length ≤ 255) (other : Node) :
    ∀ message ∈ (before.sendUp node header).up other, message.interfaceList.length ≤ 255 := by
  intro message inside
  by_cases same : other = node
  · subst same
    simp only [Network.sendUp, Function.update_self] at inside
    rcases List.mem_append.mp inside with old | new
    · exact formed.up other message old
    · rw [List.mem_singleton.mp new]
      exact fits
  · simp only [Network.sendUp, Function.update_of_ne same] at inside
    exact formed.up other message inside

theorem Formed.sendDown (formed : Formed hierarchy past before) (node : Node)
    (header : CNRSHeader) (fits : (answer header).length ≤ 255)
    (held : Held hierarchy past header.cuid (answer header)) (other : Node) :
    ∀ message ∈ (before.sendDown node header).down other,
      (answer message).length ≤ 255 ∧ Held hierarchy past message.cuid (answer message) := by
  intro message inside
  by_cases same : other = node
  · subst same
    simp only [Network.sendDown, Function.update_self] at inside
    rcases List.mem_append.mp inside with old | new
    · exact formed.down other message old
    · rw [List.mem_singleton.mp new]
      exact ⟨fits, held⟩
  · simp only [Network.sendDown, Function.update_of_ne same] at inside
    exact formed.down other message inside

theorem Formed.reports_step (formed : Formed hierarchy past before)
    (answerable : Answerable hierarchy before action)
    (happened : step hierarchy before action = some after) (other : Node) :
    ∀ report ∈ after.reports other, report.2.length ≤ 255 := by
  cases step_move happened with
  | insert node name interfaces => exact formed.reports_stored answerable
  | insertArrived node superior index header above found insert =>
      exact (formed.takeUp node index).reports_stored
        (formed.up node header (List.mem_of_getElem? found))
  | reported node superior name interfaces rest pending above fits =>
      exact formed.setReports pending
  | unreported node name interfaces rest pending top => exact formed.setReports pending
  | relayed | called | unknown =>
      intro report inside
      refine formed.reports other report ?_
      simpa [Network.sendDown, Network.setClient, Network.setQuery, Network.setService,
        Network.call, Network.takeDown] using inside
  | lookupSent | lookupFailed | queryForwarded | lookupHit | queryHit | otherUp | otherDown
  | lostUp | lostDown => exact formed.reports other

theorem Formed.up_step (formed : Formed hierarchy past before)
    (happened : step hierarchy before action = some after) (other : Node) :
    ∀ header ∈ after.up other, header.interfaceList.length ≤ 255 := by
  cases step_move happened with
  | lookupSent node name qId superior miss fresh above =>
      exact formed.sendUp node (queryHeader name qId) (Nat.zero_le _) other
  | reported node superior name interfaces rest pending above fits =>
      exact formed.sendUp node (insertHeader name interfaces) fits other
  | queryForwarded node superior further index header above found query miss beyond =>
      exact (formed.takeUp node index).sendUp superior
        (queryHeader header.cuid header.queryId) (Nat.zero_le _) other
  | insert node name interfaces =>
      rw [Network.stored_up]
      exact formed.up other
  | insertArrived node superior index header above found insert =>
      rw [Network.stored_up]
      exact (formed.takeUp node index).up other
  | queryHit node superior index | otherUp node superior index | lostUp node index =>
      exact (formed.takeUp node index).up other
  | relayed | called | unknown =>
      intro message inside
      refine formed.up other message ?_
      simpa [Network.sendDown, Network.setClient, Network.setQuery, Network.setService,
        Network.call, Network.takeDown] using inside
  | lookupHit | lookupFailed | unreported | otherDown | lostDown => exact formed.up other

theorem Formed.down_step (formed : Formed hierarchy past before)
    (ran : run (step hierarchy) {} past = some before)
    (happened : step hierarchy before action = some after) (other : Node) :
    ∀ header ∈ after.down other,
      (answer header).length ≤ 255 ∧ Held hierarchy past header.cuid (answer header) := by
  cases step_move happened with
  | queryHit node superior index header interfaces above found query hit fits =>
      exact (formed.takeUp node index).sendDown node
        (okHeader header.cuid header.queryId interfaces) fits (held_now ran hit) other
  | relayed node peer index header found response client fits =>
      have taken := formed.takeDown node index
      obtain ⟨_, named, _, same⟩ :=
        responseHeader_spec header.cuid header.queryId (answer header)
      have held := (formed.down node header (List.mem_of_getElem? found)).2
      intro message inside
      refine taken.sendDown peer _ (by rwa [same]) (by rwa [named, same]) other message ?_
      simpa [Network.sendDown, Network.setClient, Network.setService] using inside
  | insert node name interfaces =>
      rw [Network.stored_down]
      exact formed.down other
  | insertArrived node superior index header above found insert =>
      rw [Network.stored_down]
      exact formed.down other
  | called node index | unknown node index =>
      intro message inside
      refine (formed.takeDown node index).down other message ?_
      simpa [Network.call, Network.setQuery, Network.setService] using inside
  | otherDown node index | lostDown node index => exact (formed.takeDown node index).down other
  | lookupHit | lookupSent | lookupFailed | reported | unreported | queryForwarded | otherUp
  | lostUp => exact formed.down other

theorem Formed.step (formed : Formed hierarchy past before)
    (ran : run (step hierarchy) {} past = some before)
    (answerable : Answerable hierarchy before action)
    (happened : step hierarchy before action = some after) :
    Formed hierarchy (past ++ [action]) after where
  items := formed.items_step answerable happened
  reports := formed.reports_step answerable happened
  up := formed.up_step happened
  down node header inside := by
    obtain ⟨fits, held⟩ := formed.down_step ran happened node header inside
    exact ⟨fits, held.later action⟩

end FISim.NameResolution
