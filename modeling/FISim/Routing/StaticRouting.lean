import FISim.Common

/-!
`Ipv4StaticRouting`: the table of network routes with their metrics, how routes
get into it, and the scan that looks a destination up.
-/

namespace FISim.Routing

abbrev Ipv4Address := UInt32
abbrev Ipv4Mask := UInt32

/-- A device is known by its address. -/
abbrev NetDevice := ℕ

namespace Ipv4Mask

def getOnes : Ipv4Mask := 0xffffffff
def getZero : Ipv4Mask := 0

def isMatch (mask : Ipv4Mask) (a b : Ipv4Address) : Bool := a &&& mask = b &&& mask

def getPrefixLengthFrom : ℕ → Ipv4Mask → UInt16 → UInt16
  | 0, _, tmp => tmp
  | fuel + 1, mask, tmp =>
      if mask ≠ 0 then getPrefixLengthFrom fuel (mask <<< 1) (tmp + 1) else tmp

/-- The loop shifts until nothing is left, which takes at most 32 turns. -/
def getPrefixLength (mask : Ipv4Mask) : UInt16 := getPrefixLengthFrom 32 mask 0

theorem getPrefixLengthFrom_succ {fuel : ℕ} {mask : Ipv4Mask} {tmp : UInt16} (bound : fuel ≤ 32)
    (shifted : 2 ^ (32 - fuel) ∣ mask.toNat) :
    getPrefixLengthFrom (fuel + 1) mask tmp = getPrefixLengthFrom fuel mask tmp := by
  induction fuel generalizing mask tmp with
  | zero =>
      have zero : mask = 0 := by
        refine UInt32.toNat_inj.mp (Nat.eq_zero_of_dvd_of_lt shifted ?_)
        exact mask.toNat_lt
      simp [getPrefixLengthFrom, zero]
  | succ fuel ih =>
      rw [getPrefixLengthFrom]
      split
      · rw [ih (by omega), getPrefixLengthFrom, if_pos (by assumption)]
        have doubled : (mask <<< 1).toNat = mask.toNat * 2 % 2 ^ 32 := by
          simp [UInt32.toNat_shiftLeft, Nat.shiftLeft_eq]
        rw [doubled, Nat.dvd_mod_iff (pow_dvd_pow 2 (by omega)),
          show 32 - fuel = 32 - (fuel + 1) + 1 by omega, pow_succ]
        exact Nat.mul_dvd_mul_right shifted 2
      · rename_i zero
        rw [getPrefixLengthFrom, if_neg zero]

/-- The source's loop has no bound of its own: more turns change nothing. -/
theorem getPrefixLengthFrom_more (mask : Ipv4Mask) (extra : ℕ) :
    getPrefixLengthFrom (32 + extra) mask 0 = getPrefixLength mask := by
  have settled : ∀ extra mask tmp, getPrefixLengthFrom (32 + extra) mask tmp =
      getPrefixLengthFrom 32 mask tmp := by
    intro extra
    induction extra with
    | zero => intro mask tmp; rfl
    | succ extra ih =>
        intro mask tmp
        rw [← getPrefixLengthFrom_succ (le_refl 32) (by simp), ← Nat.add_assoc,
          getPrefixLengthFrom, getPrefixLengthFrom, ih]
  exact settled extra mask 0

theorem getPrefixLengthFrom_le {fuel : ℕ} {mask : Ipv4Mask} {tmp : UInt16}
    (bound : tmp.toNat + fuel < 2 ^ 16) :
    (getPrefixLengthFrom fuel mask tmp).toNat ≤ tmp.toNat + fuel := by
  induction fuel generalizing mask tmp with
  | zero => exact le_refl _
  | succ fuel ih =>
      rw [getPrefixLengthFrom]
      have next : (tmp + 1).toNat = tmp.toNat + 1 := by
        rw [UInt16.toNat_add, UInt16.toNat_one, Nat.mod_eq_of_lt (by omega)]
      split
      · have later : (getPrefixLengthFrom fuel (mask <<< 1) (tmp + 1)).toNat ≤ (tmp + 1).toNat + fuel :=
          ih (by omega)
        omega
      · omega

theorem getPrefixLength_le (mask : Ipv4Mask) : (getPrefixLength mask).toNat ≤ 32 :=
  getPrefixLengthFrom_le (show (0 : UInt16).toNat + 32 < 2 ^ 16 by decide)

end Ipv4Mask

def Ipv4Address.getZero : Ipv4Address := 0
def Ipv4Address.isLocalMulticast (address : Ipv4Address) : Bool :=
  address &&& 0xffffff00 = 0xe0000000

structure Ipv4RoutingTableEntry where
  dest : Ipv4Address
  destNetworkMask : Ipv4Mask
  gateway : Ipv4Address
  interface : UInt32
  deriving DecidableEq

structure Ipv4Route where
  dest : Ipv4Address
  source : Ipv4Address
  gateway : Ipv4Address
  outputDevice : NetDevice
  deriving DecidableEq

structure Ipv4InterfaceAddress where
  getLocal : Ipv4Address

/-- The methods of the abstract class `Ipv4` that a lookup calls. -/
structure Ipv4 where
  getNetDevice : UInt32 → NetDevice
  getInterfaceForDevice : NetDevice → Int32
  getAddress : UInt32 → UInt32 → Ipv4InterfaceAddress
  sourceAddressSelection : UInt32 → Ipv4Address → Ipv4Address

abbrev NetworkRoute := Ipv4RoutingTableEntry × UInt32

structure Ipv4StaticRouting where
  ipv4 : Ipv4
  networkRoutes : List NetworkRoute

namespace Ipv4StaticRouting

def lookupRoute (routing : Ipv4StaticRouting) (route : Ipv4RoutingTableEntry) (metric : UInt32) :
    Bool :=
  routing.networkRoutes.any fun j =>
    j.1.dest = route.dest ∧ j.1.destNetworkMask = route.destNetworkMask ∧
      j.1.gateway = route.gateway ∧ j.1.interface = route.interface ∧ j.2 = metric

def addNetworkRouteTo (routing : Ipv4StaticRouting) (network : Ipv4Address)
    (networkMask : Ipv4Mask) (nextHop : Ipv4Address) (interface metric : UInt32) :
    Ipv4StaticRouting :=
  let route : Ipv4RoutingTableEntry := ⟨network, networkMask, nextHop, interface⟩
  if routing.lookupRoute route metric then routing
  else { routing with networkRoutes := routing.networkRoutes ++ [(route, metric)] }

def addHostRouteTo (routing : Ipv4StaticRouting) (dest nextHop : Ipv4Address)
    (interface metric : UInt32) : Ipv4StaticRouting :=
  routing.addNetworkRouteTo dest Ipv4Mask.getOnes nextHop interface metric

/-- What the scan of `LookupStatic` carries from one entry to the next. -/
structure Search where
  rtentry : Option Ipv4Route
  longestMask : UInt16
  shortestMetric : UInt32

def Search.start : Search := ⟨none, 0, 0xffffffff⟩

def makeRoute (routing : Ipv4StaticRouting) (route : Ipv4RoutingTableEntry) : Ipv4Route :=
  { dest := route.dest
    source := routing.ipv4.sourceAddressSelection route.interface route.dest
    gateway := route.gateway
    outputDevice := routing.ipv4.getNetDevice route.interface }

def onDevice (routing : Ipv4StaticRouting) (oif : Option NetDevice)
    (route : Ipv4RoutingTableEntry) : Bool :=
  match oif with
  | none => true
  | some device => device = routing.ipv4.getNetDevice route.interface

/-- One turn of the scan, and whether it breaks off. -/
def visit (routing : Ipv4StaticRouting) (dest : Ipv4Address) (oif : Option NetDevice)
    (i : NetworkRoute) (search : Search) : Search × Bool :=
  let metric := i.2
  let mask := i.1.destNetworkMask
  let masklen := mask.getPrefixLength
  if mask.isMatch dest i.1.dest then
    if routing.onDevice oif i.1 then
      if masklen < search.longestMask then (search, false)
      else
        let shortestMetric :=
          if search.longestMask < masklen then 0xffffffff else search.shortestMetric
        if shortestMetric < metric then
          (⟨search.rtentry, masklen, shortestMetric⟩, false)
        else (⟨some (routing.makeRoute i.1), masklen, metric⟩, masklen = 32)
    else (search, false)
  else (search, false)

def scan (routing : Ipv4StaticRouting) (dest : Ipv4Address) (oif : Option NetDevice) :
    List NetworkRoute → Search → Search
  | [], search => search
  | i :: rest, search =>
      let turn := routing.visit dest oif i search
      if turn.2 then turn.1 else scan routing dest oif rest turn.1

/-- `LookupStatic`, without a result where its assertion fails. -/
def lookupStatic (routing : Ipv4StaticRouting) (dest : Ipv4Address) (oif : Option NetDevice) :
    Option (Option Ipv4Route) :=
  if dest.isLocalMulticast then do
    let device ← oif
    let interface := (routing.ipv4.getInterfaceForDevice device).toUInt32
    return some
      { dest := dest
        source := (routing.ipv4.getAddress interface 0).getLocal
        gateway := Ipv4Address.getZero
        outputDevice := device }
  else return (scan routing dest oif routing.networkRoutes Search.start).rtentry

/-! What a lookup is for. -/

def length (entry : NetworkRoute) : ℕ := entry.1.destNetworkMask.getPrefixLength.toNat

def Hits (routing : Ipv4StaticRouting) (dest : Ipv4Address) (oif : Option NetDevice)
    (entry : NetworkRoute) : Prop :=
  entry.1.destNetworkMask.isMatch dest entry.1.dest = true ∧ routing.onDevice oif entry.1 = true

instance (routing : Ipv4StaticRouting) (dest : Ipv4Address) (oif : Option NetDevice)
    (entry : NetworkRoute) : Decidable (Hits routing dest oif entry) :=
  inferInstanceAs (Decidable (_ ∧ _))

/-- An entry with the longest mask among the hits, and the lowest metric of that length. -/
structure Best (routing : Ipv4StaticRouting) (dest : Ipv4Address) (oif : Option NetDevice)
    (table : List NetworkRoute) (best : NetworkRoute) : Prop where
  member : best ∈ table
  hits : Hits routing dest oif best
  longest : ∀ other ∈ table, Hits routing dest oif other → length other ≤ length best
  lowest : ∀ other ∈ table, Hits routing dest oif other → length other = length best →
    best.2 ≤ other.2

structure Answers (routing : Ipv4StaticRouting) (dest : Ipv4Address) (oif : Option NetDevice)
    (answer : Option Ipv4Route) : Prop where
  found : ∀ route, answer = some route →
    ∃ entry, Best routing dest oif routing.networkRoutes entry ∧ routing.makeRoute entry.1 = route
  none_iff : answer = none ↔ ∀ entry ∈ routing.networkRoutes, ¬ Hits routing dest oif entry

def hostHit (routing : Ipv4StaticRouting) (dest : Ipv4Address) (oif : Option NetDevice)
    (entry : NetworkRoute) : Bool :=
  Hits routing dest oif entry ∧ length entry = 32

/-- The first host route that hits is as good as any: one that makes the same route has the
lowest metric of the host routes that hit. -/
def FirstHostLowest (routing : Ipv4StaticRouting) (dest : Ipv4Address) (oif : Option NetDevice) :
    Prop :=
  ∀ first, routing.networkRoutes.find? (hostHit routing dest oif) = some first →
    ∃ best ∈ routing.networkRoutes, hostHit routing dest oif best = true ∧
      routing.makeRoute best.1 = routing.makeRoute first.1 ∧
      ∀ other ∈ routing.networkRoutes, hostHit routing dest oif other = true → best.2 ≤ other.2

/-! The scan. -/

section Scan

variable {routing : Ipv4StaticRouting} {dest : Ipv4Address} {oif : Option NetDevice}

def Search.found (routing : Ipv4StaticRouting) (best : NetworkRoute) : Search :=
  ⟨some (routing.makeRoute best.1), best.1.destNetworkMask.getPrefixLength, best.2⟩

/-- The search after the entries seen is that of their best hit. -/
def Summary (routing : Ipv4StaticRouting) (dest : Ipv4Address) (oif : Option NetDevice)
    (seen : List NetworkRoute) (search : Search) : Prop :=
  (search = Search.start ∧ ∀ entry ∈ seen, ¬ Hits routing dest oif entry) ∨
    ∃ best, Best routing dest oif seen best ∧ search = Search.found routing best

@[simp] theorem Search.longestMask_start : Search.start.longestMask.toNat = 0 := rfl

@[simp] theorem Search.longestMask_found (best : NetworkRoute) :
    (Search.found routing best).longestMask.toNat = length best := rfl

@[simp] theorem Search.shortestMetric_found (best : NetworkRoute) :
    (Search.found routing best).shortestMetric = best.2 := rfl

theorem length_le (entry : NetworkRoute) : length entry ≤ 32 :=
  Ipv4Mask.getPrefixLength_le entry.1.destNetworkMask

theorem hostHit_iff {entry : NetworkRoute} :
    hostHit routing dest oif entry = true ↔ Hits routing dest oif entry ∧ length entry = 32 := by
  simp [hostHit]

theorem Best.of_hit {seen : List NetworkRoute} {entry : NetworkRoute}
    (hit : Hits routing dest oif entry)
    (better : ∀ other ∈ seen, Hits routing dest oif other →
      length other < length entry ∨ length other = length entry ∧ entry.2 ≤ other.2) :
    Best routing dest oif (seen ++ [entry]) entry := by
  refine ⟨by simp, hit, ?_, ?_⟩
  · intro other member hits
    rcases List.mem_append.mp member with earlier | last
    · rcases better other earlier hits with shorter | ⟨same, -⟩ <;> omega
    · rw [List.mem_singleton.mp last]
  · intro other member hits same
    rcases List.mem_append.mp member with earlier | last
    · rcases better other earlier hits with shorter | ⟨-, lower⟩
      · omega
      · exact lower
    · rw [List.mem_singleton.mp last]
      exact UInt32.le_refl _

theorem Best.keep {seen : List NetworkRoute} {best entry : NetworkRoute}
    (leads : Best routing dest oif seen best)
    (worse : Hits routing dest oif entry →
      length entry < length best ∨ length entry = length best ∧ best.2 ≤ entry.2) :
    Best routing dest oif (seen ++ [entry]) best := by
  refine ⟨List.mem_append_left _ leads.member, leads.hits, ?_, ?_⟩
  · intro other member hits
    rcases List.mem_append.mp member with earlier | last
    · exact leads.longest other earlier hits
    · rw [List.mem_singleton.mp last] at hits ⊢
      rcases worse hits with shorter | ⟨same, -⟩ <;> omega
  · intro other member hits same
    rcases List.mem_append.mp member with earlier | last
    · exact leads.lowest other earlier hits same
    · rw [List.mem_singleton.mp last] at hits same ⊢
      rcases worse hits with shorter | ⟨-, lower⟩
      · omega
      · exact lower

theorem visit_miss {entry : NetworkRoute} {search : Search}
    (misses : ¬ Hits routing dest oif entry) :
    routing.visit dest oif entry search = (search, false) := by
  unfold visit
  by_cases matched : entry.1.destNetworkMask.isMatch dest entry.1.dest = true
  · have elsewhere : ¬ routing.onDevice oif entry.1 = true := fun device =>
      misses ⟨matched, device⟩
    simp [matched, elsewhere]
  · simp [matched]

theorem visit_shorter {entry : NetworkRoute} {search : Search}
    (hit : Hits routing dest oif entry) (shorter : length entry < search.longestMask.toNat) :
    routing.visit dest oif entry search = (search, false) := by
  unfold visit
  have less : entry.1.destNetworkMask.getPrefixLength < search.longestMask :=
    UInt16.lt_iff_toNat_lt.mpr shorter
  simp [hit.1, hit.2, less]

theorem visit_longer {entry : NetworkRoute} {search : Search}
    (hit : Hits routing dest oif entry) (longer : search.longestMask.toNat < length entry) :
    routing.visit dest oif entry search = (Search.found routing entry, decide (length entry = 32)) := by
  unfold visit Search.found
  have less : search.longestMask < entry.1.destNetworkMask.getPrefixLength :=
    UInt16.lt_iff_toNat_lt.mpr longer
  have kept : ¬ entry.1.destNetworkMask.getPrefixLength < search.longestMask :=
    UInt16.lt_asymm less
  have lowest : ¬ (0xffffffff : UInt32) < entry.2 := by
    rw [UInt32.lt_iff_toNat_lt]
    have := entry.2.toNat_lt
    simp only [UInt32.reduceToNat]
    omega
  simp only [hit.1, hit.2, kept, less, lowest, length, ← UInt16.toNat_inj, if_true, if_false]
  rfl

theorem visit_same {entry : NetworkRoute} {search : Search}
    (hit : Hits routing dest oif entry) (same : length entry = search.longestMask.toNat) :
    routing.visit dest oif entry search =
      if search.shortestMetric < entry.2 then (search, false)
      else (Search.found routing entry, decide (length entry = 32)) := by
  unfold visit Search.found
  have equal : entry.1.destNetworkMask.getPrefixLength = search.longestMask :=
    UInt16.toNat_inj.mp same
  have irrefl : ¬ search.longestMask < search.longestMask := UInt16.lt_irrefl _
  simp only [hit.1, hit.2, equal, irrefl, length, ← UInt16.toNat_inj, if_true, if_false]
  rfl

theorem Summary.longestMask_le {seen : List NetworkRoute} {search : Search}
    (summary : Summary routing dest oif seen search)
    (noHost : ∀ entry ∈ seen, hostHit routing dest oif entry = false) :
    search.longestMask.toNat < 32 := by
  rcases summary with ⟨rfl, -⟩ | ⟨best, leads, rfl⟩
  · decide
  · have short := noHost best leads.member
    have bound := length_le best
    have notHost : length best ≠ 32 := fun host => by
      rw [hostHit_iff.mpr ⟨leads.hits, host⟩] at short
      contradiction
    change length best < 32
    omega

theorem visit_summary {seen : List NetworkRoute} {search : Search} (entry : NetworkRoute)
    (summary : Summary routing dest oif seen search) :
    Summary routing dest oif (seen ++ [entry]) (routing.visit dest oif entry search).1 := by
  by_cases hit : Hits routing dest oif entry
  · rcases summary with ⟨rfl, none⟩ | ⟨best, leads, rfl⟩
    · have first : Best routing dest oif (seen ++ [entry]) entry :=
        Best.of_hit hit fun other member hits => absurd hits (none other member)
      refine .inr ⟨entry, first, ?_⟩
      rcases Nat.eq_zero_or_pos (length entry) with zero | positive
      · rw [visit_same hit (by simpa using zero), if_neg]
        rw [UInt32.lt_iff_toNat_lt]
        have := entry.2.toNat_lt
        simp only [Search.start, UInt32.reduceToNat]
        omega
      · rw [visit_longer hit (by simpa using positive)]
    · rcases Nat.lt_trichotomy (length entry) (length best) with shorter | same | longer
      · rw [visit_shorter hit (by simpa using shorter)]
        exact .inr ⟨best, leads.keep fun _ => .inl shorter, rfl⟩
      · rw [visit_same hit (by simpa using same), Search.shortestMetric_found]
        by_cases higher : best.2 < entry.2
        · rw [if_pos higher]
          exact .inr ⟨best, leads.keep fun _ => .inr ⟨same, UInt32.le_of_lt higher⟩, rfl⟩
        · rw [if_neg higher]
          have lower : entry.2 ≤ best.2 := UInt32.not_lt.mp higher
          refine .inr ⟨entry, Best.of_hit hit ?_, rfl⟩
          intro other member hits
          rcases Nat.lt_or_eq_of_le (leads.longest other member hits) with less | equal
          · exact .inl (same ▸ less)
          · exact .inr ⟨equal.trans same.symm,
              UInt32.le_trans lower (leads.lowest other member hits equal)⟩
      · rw [visit_longer hit (by simpa using longer)]
        refine .inr ⟨entry, Best.of_hit hit ?_, rfl⟩
        intro other member hits
        exact .inl (lt_of_le_of_lt (leads.longest other member hits) longer)
  · rw [visit_miss hit]
    rcases summary with ⟨rfl, none⟩ | ⟨best, leads, rfl⟩
    · refine .inl ⟨rfl, ?_⟩
      intro other member
      rcases List.mem_append.mp member with earlier | last
      · exact none other earlier
      · rwa [List.mem_singleton.mp last]
    · exact .inr ⟨best, leads.keep fun hits => absurd hits hit, rfl⟩

theorem visit_breaks {search : Search} (entry : NetworkRoute)
    (short : search.longestMask.toNat < 32) :
    (routing.visit dest oif entry search).2 = hostHit routing dest oif entry := by
  by_cases hit : Hits routing dest oif entry
  · have host : hostHit routing dest oif entry = decide (length entry = 32) := by
      simp [hostHit, hit]
    rcases Nat.lt_trichotomy (length entry) search.longestMask.toNat with shorter | same | longer
    · rw [visit_shorter hit shorter, host, decide_eq_false (by omega)]
    · rw [visit_same hit same, host, decide_eq_false (by omega)]
      split <;> rfl
    · rw [visit_longer hit longer, host]
  · rw [visit_miss hit]
    simp [hostHit, hit]

theorem visit_host {search : Search} {entry : NetworkRoute} (short : search.longestMask.toNat < 32)
    (host : hostHit routing dest oif entry = true) :
    (routing.visit dest oif entry search).1 = Search.found routing entry := by
  obtain ⟨hit, long⟩ := hostHit_iff.mp host
  rw [visit_longer hit (by omega)]

theorem scan_spec {seen rest : List NetworkRoute} {search : Search}
    (summary : Summary routing dest oif seen search)
    (noHost : ∀ entry ∈ seen, hostHit routing dest oif entry = false) :
    match rest.find? (hostHit routing dest oif) with
    | some first => routing.scan dest oif rest search = Search.found routing first
    | none => Summary routing dest oif (seen ++ rest) (routing.scan dest oif rest search) := by
  induction rest generalizing seen search with
  | nil => simpa [scan] using summary
  | cons entry rest ih =>
      have short := summary.longestMask_le noHost
      rw [scan, List.find?_cons]
      rw [visit_breaks entry short]
      cases host : hostHit routing dest oif entry with
      | true => simpa using visit_host short host
      | false =>
          have later := ih (visit_summary entry summary) (by
            intro other member
            rcases List.mem_append.mp member with earlier | last
            · exact noHost other earlier
            · rwa [List.mem_singleton.mp last])
          simpa [List.append_assoc] using later

theorem scan_all (routing : Ipv4StaticRouting) (dest : Ipv4Address) (oif : Option NetDevice) :
    match routing.networkRoutes.find? (hostHit routing dest oif) with
    | some first => routing.scan dest oif routing.networkRoutes Search.start =
        Search.found routing first
    | none => Summary routing dest oif routing.networkRoutes
        (routing.scan dest oif routing.networkRoutes Search.start) := by
  have begun : Summary routing dest oif [] Search.start := .inl ⟨rfl, by simp⟩
  exact scan_spec begun (by simp)

theorem lookupStatic_unicast (unicast : dest.isLocalMulticast = false) :
    routing.lookupStatic dest oif =
      some (routing.scan dest oif routing.networkRoutes Search.start).rtentry := by
  simp [lookupStatic, unicast]

theorem Summary.answers {search : Search}
    (summary : Summary routing dest oif routing.networkRoutes search) :
    Answers routing dest oif search.rtentry := by
  rcases summary with ⟨rfl, none⟩ | ⟨best, leads, rfl⟩
  · exact ⟨by simp [Search.start], by simpa [Search.start] using none⟩
  · refine ⟨?_, ?_⟩
    · intro route made
      exact ⟨best, leads, Option.some.inj made⟩
    · refine iff_of_false (by simp [Search.found]) ?_
      intro none
      exact none best leads.member leads.hits

/-- Among the hits of a table with a host route among them, the best are the host routes of
the lowest metric. -/
theorem best_iff_of_host {first best : NetworkRoute}
    (member : first ∈ routing.networkRoutes) (host : hostHit routing dest oif first = true) :
    Best routing dest oif routing.networkRoutes best ↔
      best ∈ routing.networkRoutes ∧ hostHit routing dest oif best = true ∧
        ∀ other ∈ routing.networkRoutes, hostHit routing dest oif other = true →
          best.2 ≤ other.2 := by
  obtain ⟨hit, long⟩ := hostHit_iff.mp host
  constructor
  · intro leads
    have bound := length_le best
    have longest := leads.longest first member hit
    have same : length best = 32 := by omega
    refine ⟨leads.member, hostHit_iff.mpr ⟨leads.hits, same⟩, ?_⟩
    intro other present otherHost
    obtain ⟨otherHit, otherLong⟩ := hostHit_iff.mp otherHost
    exact leads.lowest other present otherHit (by omega)
  · rintro ⟨present, bestHost, lowest⟩
    obtain ⟨bestHit, bestLong⟩ := hostHit_iff.mp bestHost
    refine ⟨present, bestHit, ?_, ?_⟩
    · intro other _ _
      rw [bestLong]
      exact length_le other
    · intro other otherMember otherHit same
      exact lowest other otherMember (hostHit_iff.mpr ⟨otherHit, by omega⟩)

/-- The lookup gives the best hit, and none when there is none, for exactly the tables
whose first matching host route no later one undercuts. -/
theorem lookupStatic_answers_iff (unicast : dest.isLocalMulticast = false) :
    (∃ answer, routing.lookupStatic dest oif = some answer ∧ Answers routing dest oif answer) ↔
      FirstHostLowest routing dest oif := by
  have ended := scan_all routing dest oif
  rw [lookupStatic_unicast unicast]
  cases located : routing.networkRoutes.find? (hostHit routing dest oif) with
  | none =>
      rw [located] at ended
      refine iff_of_true ⟨_, rfl, ended.answers⟩ ?_
      intro first found
      rw [located] at found
      contradiction
  | some first =>
      rw [located] at ended
      have host := List.find?_some located
      have member := List.mem_of_find?_eq_some located
      constructor
      · rintro ⟨answer, given, answers⟩ other found
        rw [located] at found
        rw [← Option.some.inj found]
        rw [ended] at given
        obtain ⟨best, leads, made⟩ := answers.found _ (Option.some.inj given).symm
        obtain ⟨present, bestHost, lowest⟩ := (best_iff_of_host member host).mp leads
        exact ⟨best, present, bestHost, made, lowest⟩
      · intro lowestFirst
        obtain ⟨best, present, bestHost, made, lowest⟩ := lowestFirst first located
        refine ⟨_, rfl, ?_⟩
        rw [ended]
        refine ⟨?_, ?_⟩
        · intro route same
          refine ⟨best, (best_iff_of_host member host).mpr ⟨present, bestHost, lowest⟩, ?_⟩
          rw [made]
          exact Option.some.inj same
        · refine iff_of_false (by simp [Search.found]) ?_
          intro none
          exact none first member (hostHit_iff.mp host).1

end Scan

/-! Two routes to one host, the second with the lower metric. -/

def twoDevices : Ipv4 :=
  { getNetDevice := UInt32.toNat
    getInterfaceForDevice := fun device => Int32.ofNat device
    getAddress := fun interface _ => ⟨0x0a000000 + interface⟩
    sourceAddressSelection := fun interface _ => 0x0a000000 + interface }

def undercut : Ipv4StaticRouting :=
  ((⟨twoDevices, []⟩ : Ipv4StaticRouting).addHostRouteTo 0x0a000063 0x0a000101 1 10).addHostRouteTo
    0x0a000063 0x0a000202 2 1

theorem undercut_not_answered :
    ¬ ∃ answer, undercut.lookupStatic 0x0a000063 none = some answer ∧
      Answers undercut 0x0a000063 none answer := by
  rintro ⟨answer, given, answers⟩
  have first : undercut.lookupStatic 0x0a000063 none =
      some (some ⟨0x0a000063, 0x0a000001, 0x0a000101, 1⟩) := by decide
  rw [first] at given
  obtain ⟨entry, best, made⟩ := answers.found _ (Option.some.inj given).symm
  have table : undercut.networkRoutes =
      [(⟨0x0a000063, Ipv4Mask.getOnes, 0x0a000101, 1⟩, 10),
        (⟨0x0a000063, Ipv4Mask.getOnes, 0x0a000202, 2⟩, 1)] := by decide
  have member := best.member
  rw [table] at member
  rcases List.mem_cons.mp member with rfl | later
  · have cheaper := best.lowest (⟨0x0a000063, Ipv4Mask.getOnes, 0x0a000202, 2⟩, 1)
      (by rw [table]; simp) (by decide) rfl
    exact absurd cheaper (by decide)
  · rw [List.mem_singleton.mp later] at made
    exact absurd made (by decide)

theorem undercut_iff :
    Ipv4Address.isLocalMulticast 0x0a000063 = false ∧
      ((∃ answer, undercut.lookupStatic 0x0a000063 none = some answer ∧
        Answers undercut 0x0a000063 none answer) ↔ FirstHostLowest undercut 0x0a000063 none) :=
  ⟨by decide, lookupStatic_answers_iff (by decide)⟩

end Ipv4StaticRouting

end FISim.Routing
