import FISim.Routing.Arcs

/-!
The loop over the link records that lead from one vertex to another: which records
`SPFGetNextLink` hands out when it is fed with its own results.
-/

namespace FISim.Routing

/-- The records that the calls return one after the other, up to the call that returns none. -/
inductive Visits (v w : SPFVertex) :
    Option GlobalRoutingLinkRecord → List GlobalRoutingLinkRecord → Prop
  | done {prevLink} : spfGetNextLink v w prevLink = none → Visits v w prevLink []
  | next {prevLink l links} : spfGetNextLink v w prevLink = some l → Visits v w (some l) links →
      Visits v w prevLink (l :: links)

def linksTo (v w : SPFVertex) : List GlobalRoutingLinkRecord :=
  v.lsa.linkRecords.filter fun l => l.linkId = w.vertexId

variable {v w : SPFVertex}

/-- The loop of `SPFNexthopCalculation` sets an exit for each record that is visited. -/
theorem setNextHops_visits {prevLink : Option GlobalRoutingLinkRecord}
    {links : List GlobalRoutingLinkRecord} (visits : Visits w v prevLink links) {exit : NodeExit}
    (first : v.getRootExitDirection = some exit) {fuel : ℕ} (enough : links.length < fuel)
    {vertex : SPFVertex} (same : vertex.lsa = w.lsa) :
    setNextHops v fuel prevLink vertex =
      some (links.foldl (fun vertex l => vertex.setRootExitDirection (l.linkData, exit.2)) vertex) := by
  have step : ∀ prevLink, spfGetNextLink vertex v prevLink = spfGetNextLink w v prevLink := by
    intro prevLink
    rw [spfGetNextLink, spfGetNextLink, same]
  induction visits generalizing fuel vertex with
  | done ends =>
      obtain ⟨fuel, rfl⟩ := Nat.exists_eq_add_of_le' enough
      rw [Nat.add_succ, setNextHops, step, ends]
      rfl
  | @next prevLink l links found rest ih =>
      obtain ⟨fuel, rfl⟩ := Nat.exists_eq_add_of_le' enough
      rw [Nat.add_succ, setNextHops, step, found, first]
      exact ih (by rw [List.length_cons]; omega) same step

theorem Visits.behind {l : GlobalRoutingLinkRecord} {links : List GlobalRoutingLinkRecord}
    (visits : Visits v w (some l) links) : (linksTo v w)[2]? = none ∧ links = [] := by
  generalize start : some l = prevLink at visits
  induction visits generalizing l with
  | done ends =>
      subst start
      rw [spfGetNextLink_eq] at ends
      exact ⟨ends, rfl⟩
  | next found rest ih =>
      subst start
      rw [spfGetNextLink_eq] at found
      obtain ⟨ends, -⟩ := ih rfl
      exact absurd (found.symm.trans ends) (Option.some_ne_none _)

/-- Each record is visited once exactly where there is at most one. -/
theorem visits_linksTo_iff (v w : SPFVertex) :
    Visits v w none (linksTo v w) ↔ (linksTo v w).length ≤ 1 := by
  have call : ∀ prevLink : Option GlobalRoutingLinkRecord,
      spfGetNextLink v w prevLink = (linksTo v w)[2 * prevLink.isSome.toNat]? :=
    spfGetNextLink_eq v w
  constructor
  · intro visits
    generalize linksTo v w = links at visits
    cases visits with
    | done ends => exact Nat.zero_le 1
    | next found rest =>
        rw [rest.behind.2]
        exact Nat.le_refl 1
  · intro few
    match links : linksTo v w, few with
    | [], _ => exact .done (by rw [call, links]; rfl)
    | [l], _ => exact .next (by rw [call, links]; rfl) (.done (by rw [call, links]; rfl))

/-- With three records or more the loop never ends: it gets the third one again and again. -/
theorem setNextHops_endless (many : 3 ≤ (linksTo w v).length) {exit : NodeExit}
    (first : v.getRootExitDirection = some exit) (fuel : ℕ)
    (prevLink : Option GlobalRoutingLinkRecord) {vertex : SPFVertex} (same : vertex.lsa = w.lsa) :
    setNextHops v fuel prevLink vertex = none := by
  induction fuel generalizing prevLink vertex with
  | zero => rfl
  | succ fuel ih =>
      have place : 2 * prevLink.isSome.toNat < (linksTo w v).length := by
        have flag := prevLink.isSome.toNat_le
        omega
      have found : spfGetNextLink vertex v prevLink =
          some (linksTo w v)[2 * prevLink.isSome.toNat] := by
        rw [spfGetNextLink, same]
        exact (spfGetNextLink_eq w v prevLink).trans (List.getElem?_eq_getElem place)
      rw [setNextHops, found, first]
      exact ih (some _) same

/-- A router that is attached to one network by two interfaces. -/
def attachedTwice : SPFVertex where
  lsa := {
    lsType := .routerLSA, linkStateId := 2
    linkRecords := [⟨.transitNetwork, 0x0a010101, 0x0a010101, 1⟩,
      ⟨.transitNetwork, 0x0a010101, 0x0a010102, 1⟩] }

def sharedNetwork : SPFVertex where
  lsa := {
    lsType := .networkLSA, linkStateId := 0x0a010101, networkLSANetworkMask := 0xffffff00
    attachedRouters := [0x0a010101, 0x0a010102] }

theorem second_record_not_visited :
    ¬ Visits attachedTwice sharedNetwork none (linksTo attachedTwice sharedNetwork) := by
  have links : linksTo attachedTwice sharedNetwork =
      [⟨.transitNetwork, 0x0a010101, 0x0a010101, 1⟩, ⟨.transitNetwork, 0x0a010101, 0x0a010102, 1⟩] :=
    rfl
  rw [links]
  intro visits
  cases visits with
  | next _ rest =>
      cases rest with
      | next found _ => exact absurd found (by decide)

end FISim.Routing
