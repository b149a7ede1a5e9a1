import FISim.Control.Manager
import FISim.Lib.BigEndian
import FISim.Lib.Transition
import Mathlib.Data.List.Nodup

/-!
The ports of the cybertwins in a manager's table.  The counter hands out fresh
ports until it wraps, which the test for its end can miss.
-/

namespace FISim.Control

open Transition

def Cybertwin.ports (cybertwin : Cybertwin) : List UInt16 :=
  cybertwin.localInterface.2 :: cybertwin.globalInterfaces.map Prod.snd

namespace CybertwinManager

structure PortsDistinct (manager : CybertwinManager) : Prop where
  own : ∀ id cybertwin, manager.cybertwinTable id = some cybertwin → cybertwin.ports.Nodup
  apart : ∀ id other first second, manager.cybertwinTable id = some first →
    manager.cybertwinTable other = some second → id ≠ other → first.ports.Disjoint second.ports
  valid : ∀ id cybertwin, manager.cybertwinTable id = some cybertwin →
    0 ∉ cybertwin.ports ∧ manager.proxyPort ∉ cybertwin.ports

-- The local address of a connection and a request on it.
abbrev Request := UInt32 × CybertwinManagerHeader

def step (stringToUint64 : List UInt8 → CybertwinId) (manager : CybertwinManager)
    (request : Request) : Option CybertwinManager :=
  (manager.handle stringToUint64 request.1 request.2).map Prod.fst

/-- A new cybertwin takes its ports from the counter up to 65535 at most, and the proxy port is
not among them. -/
def InRange (stringToUint64 : List UInt8 → CybertwinId) (manager : CybertwinManager)
    (request : Request) : Prop :=
  request.2.command = CybertwinProxyCommand.registration.code →
    manager.cybertwinTable (stringToUint64 request.2.cname) = none →
      1000 ≤ manager.lastAssignedPort.toNat ∧
      manager.lastAssignedPort.toNat + manager.globalIpv4AddrList.length ≤ 65535 ∧
      ¬ (manager.lastAssignedPort.toNat ≤ manager.proxyPort.toNat ∧ manager.proxyPort.toNat ≤
        manager.lastAssignedPort.toNat + manager.globalIpv4AddrList.length)

/-- Everything handed out lies below the counter; a counter of 65536 has wrapped to zero. -/
structure Counted (manager : CybertwinManager) (counter : ℕ) : Prop where
  last : manager.lastAssignedPort = UInt16.ofNat counter
  range : 1000 ≤ counter ∧ counter ≤ 65536
  assigned : ∀ port, manager.assignedPorts port = true →
    1000 ≤ port.toNat ∧ port.toNat < counter
  used : ∀ id cybertwin, manager.cybertwinTable id = some cybertwin →
    ∀ port ∈ cybertwin.ports, 1000 ≤ port.toNat ∧ port.toNat < counter

theorem nextPort_free {assignedPorts : UInt16 → Bool} {last : UInt16}
    (free : assignedPorts last = false) : nextPort assignedPorts last = (last, last + 1) := by
  rw [nextPort, if_neg]
  simp [free]

theorem assignInterface_free {manager after : CybertwinManager}
    {ifs result : CybertwinInterfaceList} {addr : UInt32}
    (free : manager.assignedPorts manager.lastAssignedPort = false)
    (ran : assignInterface (manager, ifs) addr = some (after, result)) :
    result = ifs ++ [(addr, manager.lastAssignedPort)] ∧
      after = { manager with
        lastAssignedPort := manager.lastAssignedPort + 1
        assignedPorts := Function.update manager.assignedPorts manager.lastAssignedPort true } := by
  simp only [assignInterface, nextPort_free free] at ran
  split at ran
  · obtain ⟨rfl, rfl⟩ := Prod.mk.inj (Option.some.inj ran)
    exact ⟨rfl, rfl⟩
  · rename_i low
    split at ran
    · cases ran
    · rename_i high
      have bound := (manager.lastAssignedPort + 1).toNat_lt
      have small : ¬ (manager.lastAssignedPort + 1).toNat < 65535 := low
      have large : (manager.lastAssignedPort + 1).toNat ≠ 65535 := fun same =>
        high (UInt16.toNat_inj.mp same)
      omega

theorem assignInterfaces_extends {addrs : List UInt32} {manager after : CybertwinManager}
    {ifs result : CybertwinInterfaceList}
    (ran : addrs.foldlM assignInterface (manager, ifs) = some (after, result)) :
    ifs <+: result := by
  induction addrs generalizing manager ifs with
  | nil =>
      obtain ⟨_, rfl⟩ := Prod.mk.inj (Option.some.inj ran)
      exact List.prefix_rfl
  | cons addr rest ih =>
      rw [List.foldlM_cons] at ran
      obtain ⟨⟨middle, more⟩, first, later⟩ := Option.bind_eq_some_iff.mp ran
      refine List.IsPrefix.trans ?_ (ih later)
      simp only [assignInterface] at first
      split at first
      · obtain ⟨_, rfl⟩ := Prod.mk.inj (Option.some.inj first)
        exact List.prefix_append _ _
      · split at first
        · cases first
        · obtain ⟨_, rfl⟩ := Prod.mk.inj (Option.some.inj first)
          exact List.prefix_rfl

theorem toNat_ofNat {counter : ℕ} (small : counter ≤ 65535) :
    (UInt16.ofNat counter).toNat = counter := by
  rw [UInt16.toNat_ofNat']
  omega

theorem ofNat_succ (counter : ℕ) : UInt16.ofNat counter + 1 = UInt16.ofNat (counter + 1) := by
  rw [UInt16.ofNat_add]
  rfl

theorem Counted.unassigned {manager : CybertwinManager} {counter : ℕ}
    (counted : manager.Counted counter) : manager.assignedPorts manager.lastAssignedPort = false := by
  rw [Bool.eq_false_iff]
  intro assigned
  have bounds := counted.assigned _ assigned
  rw [counted.last, UInt16.toNat_ofNat'] at bounds
  have := counted.range
  omega

theorem Counted.assign {manager after : CybertwinManager} {counter : ℕ}
    {ifs result : CybertwinInterfaceList} {addr : UInt32} (counted : manager.Counted counter)
    (room : counter ≤ 65535) (ran : assignInterface (manager, ifs) addr = some (after, result)) :
    result = ifs ++ [(addr, UInt16.ofNat counter)] ∧ after.Counted (counter + 1) ∧
      after = { manager with
        lastAssignedPort := after.lastAssignedPort, assignedPorts := after.assignedPorts } := by
  obtain ⟨rfl, rfl⟩ := assignInterface_free counted.unassigned ran
  refine ⟨by rw [counted.last], ⟨?_, ?_, ?_, ?_⟩, rfl⟩
  · change manager.lastAssignedPort + 1 = _
    rw [counted.last, ofNat_succ]
  · have := counted.range
    omega
  · intro port assigned
    by_cases same : port = manager.lastAssignedPort
    · subst same
      rw [counted.last, toNat_ofNat room]
      have := counted.range
      omega
    · simp only [Function.update_of_ne same] at assigned
      have := counted.assigned port assigned
      omega
  · intro id cybertwin held port member
    have := counted.used id cybertwin held port member
    omega

/-- As long as the counter does not wrap, the ports are taken from it one after another. -/
theorem Counted.assign_run {addrs : List UInt32} {manager after : CybertwinManager} {counter : ℕ}
    {ifs result : CybertwinInterfaceList} (counted : manager.Counted counter)
    (room : counter + addrs.length ≤ 65536)
    (ran : addrs.foldlM assignInterface (manager, ifs) = some (after, result)) :
    result.map Prod.snd =
        ifs.map Prod.snd ++ (List.range' counter addrs.length).map UInt16.ofNat ∧
      after.Counted (counter + addrs.length) ∧
      after = { manager with
        lastAssignedPort := after.lastAssignedPort, assignedPorts := after.assignedPorts } := by
  induction addrs generalizing manager ifs counter with
  | nil =>
      obtain ⟨rfl, rfl⟩ := Prod.mk.inj (Option.some.inj ran)
      exact ⟨by simp, counted, rfl⟩
  | cons addr rest ih =>
      rw [List.length_cons] at room
      rw [List.foldlM_cons] at ran
      obtain ⟨⟨middle, more⟩, first, later⟩ := Option.bind_eq_some_iff.mp ran
      obtain ⟨rfl, counted, frame⟩ := counted.assign (by omega) first
      obtain ⟨ports, reached, final⟩ := ih counted (by omega) later
      refine ⟨?_, ?_, ?_⟩
      · rw [ports, List.length_cons, List.range'_succ]
        simp
      · rw [List.length_cons, Nat.add_comm rest.length 1, ← Nat.add_assoc]
        exact reached
      · rw [final, frame]

theorem Counted.assign_wrap {addrs : List UInt32} {manager after : CybertwinManager} {counter : ℕ}
    {ifs result : CybertwinInterfaceList} (counted : manager.Counted counter)
    (short : 65536 < counter + addrs.length)
    (ran : addrs.foldlM assignInterface (manager, ifs) = some (after, result)) :
    0 ∈ result.map Prod.snd := by
  have range := counted.range
  obtain ⟨addr, rest, split⟩ : ∃ addr rest, addrs.drop (65536 - counter) = addr :: rest := by
    refine List.exists_cons_of_ne_nil fun empty => ?_
    have := List.drop_eq_nil_iff.mp empty
    omega
  rw [← List.take_append_drop (65536 - counter) addrs, split, List.foldlM_append] at ran
  obtain ⟨⟨middle, more⟩, first, later⟩ := Option.bind_eq_some_iff.mp ran
  have taken : (addrs.take (65536 - counter)).length = 65536 - counter := by
    rw [List.length_take]
    omega
  obtain ⟨-, reached, -⟩ := counted.assign_run (by omega) first
  rw [List.foldlM_cons] at later
  obtain ⟨⟨wrapped, longer⟩, second, later⟩ := Option.bind_eq_some_iff.mp later
  obtain ⟨rfl, -⟩ := assignInterface_free reached.unassigned second
  have zero : middle.lastAssignedPort = 0 := by
    rw [reached.last, taken, show counter + (65536 - counter) = 65536 by omega]
    rfl
  have member : (addr, (0 : UInt16)) ∈ result :=
    (assignInterfaces_extends later).subset (by simp [zero])
  exact List.mem_map_of_mem (f := Prod.snd) member

theorem handleCybertwinDestruction_fst (stringToUint64 : List UInt8 → CybertwinId)
    (manager : CybertwinManager) (header : CybertwinManagerHeader) :
    (manager.handleCybertwinDestruction stringToUint64 header).1 = manager ∨
      (manager.handleCybertwinDestruction stringToUint64 header).1 = { manager with
        cybertwinTable :=
          Function.update manager.cybertwinTable (stringToUint64 header.cname) none } := by
  simp only [handleCybertwinDestruction]
  split
  · exact .inl rfl
  · exact .inr rfl

theorem handleCybertwinReconnect_fst (stringToUint64 : List UInt8 → CybertwinId)
    (manager : CybertwinManager) (header : CybertwinManagerHeader) :
    (manager.handleCybertwinReconnect stringToUint64 header).1 = manager := by
  simp only [handleCybertwinReconnect]
  split
  · rfl
  · rfl

theorem step_cases {stringToUint64 : List UInt8 → CybertwinId} {manager next : CybertwinManager}
    {request : Request} (stepped : step stringToUint64 manager request = some next) :
    (request.2.command = CybertwinProxyCommand.registration.code ∧
      manager.cybertwinTable (stringToUint64 request.2.cname) = none ∧
      ∃ after interfaces,
        assignInterfaces { manager with lastAssignedPort := manager.lastAssignedPort + 1 } =
          some (after, interfaces) ∧
        next = { after with
          cybertwinTable := Function.update after.cybertwinTable (stringToUint64 request.2.cname)
            (some ⟨stringToUint64 request.2.cname, (request.1, manager.lastAssignedPort),
              interfaces⟩) }) ∨
    (¬ (request.2.command = CybertwinProxyCommand.registration.code ∧
        manager.cybertwinTable (stringToUint64 request.2.cname) = none) ∧
      ∃ id, next = manager ∨
        next = { manager with cybertwinTable := Function.update manager.cybertwinTable id none }) := by
  obtain ⟨⟨after, replies⟩, handled, rfl⟩ := Option.map_eq_some_iff.mp stepped
  unfold handle at handled
  split at handled
  · rename_i registers
    obtain ⟨⟨manager', reply⟩, registered, made⟩ := Option.bind_eq_some_iff.mp handled
    obtain ⟨rfl, -⟩ := Prod.mk.inj (Option.some.inj made)
    unfold handleCybertwinRegistration at registered
    cases held : manager.cybertwinTable (stringToUint64 request.2.cname) with
    | some cybertwin =>
        simp only [held, Option.some.injEq, Prod.mk.injEq] at registered
        exact .inr ⟨by simp, 0, .inl registered.1.symm⟩
    | none =>
        simp only [held] at registered
        obtain ⟨⟨middle, interfaces⟩, assigned, made⟩ := Option.bind_eq_some_iff.mp registered
        obtain ⟨rfl, -⟩ := Prod.mk.inj (Option.some.inj made)
        exact .inl ⟨registers, rfl, middle, interfaces, assigned, rfl⟩
  · rename_i other
    refine .inr ⟨fun both => other both.1, stringToUint64 request.2.cname, ?_⟩
    split at handled
    · rw [← (Prod.mk.inj (Option.some.inj handled)).1]
      exact handleCybertwinDestruction_fst stringToUint64 manager request.2
    · split at handled
      · rw [← (Prod.mk.inj (Option.some.inj handled)).1]
        exact .inl (handleCybertwinReconnect_fst stringToUint64 manager request.2)
      · obtain ⟨rfl, -⟩ := Prod.mk.inj (Option.some.inj handled)
        exact .inl rfl

theorem update_cases {table : CybertwinId → Option Cybertwin} {id other : CybertwinId}
    {entry : Option Cybertwin} {cybertwin : Cybertwin}
    (held : Function.update table id entry other = some cybertwin) :
    (other = id ∧ entry = some cybertwin) ∨ (other ≠ id ∧ table other = some cybertwin) := by
  by_cases same : other = id
  · subst same
    rw [Function.update_self] at held
    exact .inl ⟨rfl, held⟩
  · rw [Function.update_of_ne same] at held
    exact .inr ⟨same, held⟩

theorem PortsDistinct.insert {manager : CybertwinManager} (distinct : manager.PortsDistinct)
    {id : CybertwinId} {made : Cybertwin} (own : made.ports.Nodup)
    (fresh : ∀ other cybertwin, manager.cybertwinTable other = some cybertwin →
      cybertwin.ports.Disjoint made.ports)
    (valid : 0 ∉ made.ports ∧ manager.proxyPort ∉ made.ports) : PortsDistinct
      { manager with cybertwinTable := Function.update manager.cybertwinTable id (some made) } := by
  refine ⟨?_, ?_, ?_⟩
  · intro other cybertwin held
    rcases update_cases held with ⟨-, same⟩ | ⟨-, held⟩
    · cases same
      exact own
    · exact distinct.own other cybertwin held
  · intro first second one two heldOne heldTwo different
    rcases update_cases heldOne with ⟨rfl, same⟩ | ⟨-, heldOne⟩
    · cases same
      rcases update_cases heldTwo with ⟨rfl, -⟩ | ⟨-, heldTwo⟩
      · exact absurd rfl different
      · exact (fresh second two heldTwo).symm
    · rcases update_cases heldTwo with ⟨-, same⟩ | ⟨-, heldTwo⟩
      · cases same
        exact fresh first one heldOne
      · exact distinct.apart first second one two heldOne heldTwo different
  · intro other cybertwin held
    rcases update_cases held with ⟨-, same⟩ | ⟨-, held⟩
    · cases same
      exact valid
    · exact distinct.valid other cybertwin held

theorem PortsDistinct.remove {manager : CybertwinManager} (distinct : manager.PortsDistinct)
    (id : CybertwinId) : PortsDistinct
      { manager with cybertwinTable := Function.update manager.cybertwinTable id none } := by
  have kept : ∀ other cybertwin,
      Function.update manager.cybertwinTable id none other = some cybertwin →
        manager.cybertwinTable other = some cybertwin := by
    intro other cybertwin held
    rcases update_cases held with ⟨-, gone⟩ | ⟨-, held⟩
    · cases gone
    · exact held
  refine ⟨?_, ?_, ?_⟩
  · exact fun other cybertwin held => distinct.own other cybertwin (kept other cybertwin held)
  · exact fun first second one two heldOne heldTwo =>
      distinct.apart first second one two (kept first one heldOne) (kept second two heldTwo)
  · exact fun other cybertwin held => distinct.valid other cybertwin (kept other cybertwin held)

theorem Counted.insert {manager : CybertwinManager} {counter : ℕ}
    (counted : manager.Counted counter) {id : CybertwinId} {made : Cybertwin}
    (used : ∀ port ∈ made.ports, 1000 ≤ port.toNat ∧ port.toNat < counter) : Counted
      { manager with cybertwinTable := Function.update manager.cybertwinTable id (some made) }
      counter := by
  refine ⟨counted.last, counted.range, counted.assigned, ?_⟩
  intro other cybertwin held
  rcases update_cases held with ⟨-, same⟩ | ⟨-, held⟩
  · cases same
    exact used
  · exact counted.used other cybertwin held

theorem Counted.remove {manager : CybertwinManager} {counter : ℕ}
    (counted : manager.Counted counter) (id : CybertwinId) : Counted
      { manager with cybertwinTable := Function.update manager.cybertwinTable id none } counter := by
  refine ⟨counted.last, counted.range, counted.assigned, ?_⟩
  intro other cybertwin held
  rcases update_cases held with ⟨-, gone⟩ | ⟨-, held⟩
  · cases gone
  · exact counted.used other cybertwin held

theorem Counted.advance {manager : CybertwinManager} {counter : ℕ}
    (counted : manager.Counted counter) (room : counter ≤ 65535) : Counted
      { manager with lastAssignedPort := manager.lastAssignedPort + 1 } (counter + 1) := by
  refine ⟨?_, ?_, ?_, ?_⟩
  · change manager.lastAssignedPort + 1 = _
    rw [counted.last, ofNat_succ]
  · have := counted.range
    omega
  · intro port assigned
    have := counted.assigned port assigned
    omega
  · intro id cybertwin held port member
    have := counted.used id cybertwin held port member
    omega

theorem Counted.register {manager after : CybertwinManager} {counter : ℕ}
    {interfaces : CybertwinInterfaceList} (counted : manager.Counted counter)
    (room : counter + manager.globalIpv4AddrList.length ≤ 65535)
    (assigned : assignInterfaces { manager with lastAssignedPort := manager.lastAssignedPort + 1 } =
      some (after, interfaces)) :
    manager.lastAssignedPort :: interfaces.map Prod.snd =
        (List.range' counter (manager.globalIpv4AddrList.length + 1)).map UInt16.ofNat ∧
      after.Counted (counter + (manager.globalIpv4AddrList.length + 1)) ∧
      after = { manager with
        lastAssignedPort := after.lastAssignedPort, assignedPorts := after.assignedPorts } := by
  obtain ⟨ports, reached, frame⟩ :=
    (counted.advance (by omega)).assign_run (by simp only []; omega) assigned
  refine ⟨?_, ?_, frame⟩
  · rw [ports, counted.last, List.range'_succ]
    simp
  · rw [Nat.add_comm _ 1, ← Nat.add_assoc]
    exact reached

theorem mem_ports {counter size : ℕ} (room : counter + size ≤ 65536) {port : UInt16} :
    port ∈ (List.range' counter size).map UInt16.ofNat ↔
      counter ≤ port.toNat ∧ port.toNat < counter + size := by
  rw [List.mem_map]
  constructor
  · rintro ⟨number, inside, rfl⟩
    rw [List.mem_range'_1] at inside
    rw [toNat_ofNat (by omega)]
    exact inside
  · intro inside
    exact ⟨port.toNat, List.mem_range'_1.mpr inside, UInt16.ofNat_toNat⟩

theorem nodup_ports {counter size : ℕ} (room : counter + size ≤ 65536) :
    ((List.range' counter size).map UInt16.ofNat).Nodup := by
  refine List.Nodup.map_on ?_ List.nodup_range'
  intro first one second two same
  rw [List.mem_range'_1] at one two
  rw [← toNat_ofNat (show first ≤ 65535 by omega), same, toNat_ofNat (by omega)]

def Kept (manager : CybertwinManager) : Prop :=
  manager.PortsDistinct ∧ ∃ counter, manager.Counted counter

theorem Kept.step {stringToUint64 : List UInt8 → CybertwinId} {manager next : CybertwinManager}
    {request : Request} (kept : manager.Kept) (inRange : manager.InRange stringToUint64 request)
    (stepped : step stringToUint64 manager request = some next) : next.Kept := by
  obtain ⟨distinct, counter, counted⟩ := kept
  rcases step_cases stepped with ⟨registers, free, after, interfaces, assigned, rfl⟩ |
    ⟨-, id, rfl | rfl⟩
  · obtain ⟨low, high, proxy⟩ := inRange registers free
    have small : counter ≤ 65535 := by
      by_contra large
      have wrapped : counter = 65536 := by have := counted.range; omega
      rw [counted.last, wrapped] at low
      exact absurd low (by decide)
    rw [counted.last, toNat_ofNat small] at high proxy
    obtain ⟨ports, reached, frame⟩ := counted.register high assigned
    have room : counter + (manager.globalIpv4AddrList.length + 1) ≤ 65536 := by omega
    have range := counted.range
    have table : after.cybertwinTable = manager.cybertwinTable := by rw [frame]
    have proxied : after.proxyPort = manager.proxyPort := by rw [frame]
    have before : after.PortsDistinct := by
      rw [frame]
      exact ⟨distinct.own, distinct.apart, distinct.valid⟩
    have inside : ∀ port ∈ manager.lastAssignedPort :: interfaces.map Prod.snd,
        counter ≤ port.toNat ∧
          port.toNat < counter + (manager.globalIpv4AddrList.length + 1) := by
      intro port member
      rwa [ports, mem_ports room] at member
    refine ⟨before.insert ?_ ?_ ⟨?_, ?_⟩, _, reached.insert ?_⟩
    · change (manager.lastAssignedPort :: interfaces.map Prod.snd).Nodup
      rw [ports]
      exact nodup_ports room
    · intro other cybertwin held port used member
      rw [table] at held
      have := counted.used other cybertwin held port used
      have := inside port member
      omega
    · intro member
      have := inside 0 member
      rw [UInt16.toNat_zero] at this
      omega
    · intro member
      have := inside after.proxyPort member
      rw [proxied] at this
      omega
    · intro port member
      have := inside port member
      omega
  · exact ⟨distinct, counter, counted⟩
  · exact ⟨distinct.remove id, counter, counted.remove id⟩

theorem Kept.shows {stringToUint64 : List UInt8 → CybertwinId} {manager next : CybertwinManager}
    {request : Request} (kept : manager.Kept)
    (stepped : CybertwinManager.step stringToUint64 manager request = some next)
    (distinct : next.PortsDistinct) :
    manager.InRange stringToUint64 request := by
  obtain ⟨-, counter, counted⟩ := kept
  intro registers free
  rcases step_cases stepped with ⟨-, -, after, interfaces, assigned, rfl⟩ | ⟨other, -⟩
  · have valid := distinct.valid (stringToUint64 request.2.cname) _ (Function.update_self ..)
    have nonzero : 0 ∉ manager.lastAssignedPort :: interfaces.map Prod.snd := valid.1
    have apart : after.proxyPort ∉ manager.lastAssignedPort :: interfaces.map Prod.snd := valid.2
    have range := counted.range
    have small : counter ≤ 65535 := by
      by_contra large
      have wrapped : manager.lastAssignedPort = 0 := by
        rw [counted.last, show counter = 65536 by omega]
        rfl
      exact nonzero (by simp [wrapped])
    have high : counter + manager.globalIpv4AddrList.length ≤ 65535 := by
      by_contra large
      have zero := (counted.advance small).assign_wrap (by simp only []; omega) assigned
      exact nonzero (List.mem_cons_of_mem _ zero)
    obtain ⟨ports, -, frame⟩ := counted.register high assigned
    have proxied : after.proxyPort = manager.proxyPort := by rw [frame]
    rw [ports, proxied, mem_ports (by omega)] at apart
    rw [counted.last, toNat_ofNat small]
    omega
  · exact absurd ⟨registers, free⟩ other

theorem Kept.initial (globalIpv4AddrList : List UInt32) (proxyPort : UInt16) :
    Kept { globalIpv4AddrList, proxyPort } := by
  refine ⟨⟨?_, ?_, ?_⟩, 1000, rfl, by omega, ?_, ?_⟩
  · intro id cybertwin held
    cases held
  · intro id other first second held
    cases held
  · intro id cybertwin held
    cases held
  · intro port assigned
    cases assigned
  · intro id cybertwin held
    cases held

theorem ports_distinct_iff (stringToUint64 : List UInt8 → CybertwinId)
    (globalIpv4AddrList : List UInt32) (proxyPort : UInt16) (requests : List Request)
    (ran : (run (step stringToUint64) { globalIpv4AddrList, proxyPort } requests).isSome) :
    Throughout (step stringToUint64) PortsDistinct { globalIpv4AddrList, proxyPort } requests ↔
      Guarded (step stringToUint64) (InRange stringToUint64) { globalIpv4AddrList, proxyPort }
        requests := by
  have keeps : ∀ manager request next, Kept manager → manager.InRange stringToUint64 request →
      step stringToUint64 manager request = some next → Kept next :=
    fun _ _ _ kept inRange stepped => kept.step inRange stepped
  refine throughout_iff_guarded_of ?_ keeps ?_ (Kept.initial globalIpv4AddrList proxyPort) ran
  · exact fun _ kept => kept.1
  · exact fun _ _ _ kept stepped distinct => kept.shows stepped distinct

def registration (cname : List UInt8) : Request :=
  (0, { command := CybertwinProxyCommand.registration.code, cname })

def destruction (cname : List UInt8) : Request :=
  (0, { command := CybertwinProxyCommand.destruction.code, cname })

theorem ports_distinct_pair :
    Throughout (step fun name => UInt64.ofNat (BigEndian.ofBytes name)) PortsDistinct
        { globalIpv4AddrList := [10, 11] } [registration [65], registration [66]] ↔
      Guarded (step fun name => UInt64.ofNat (BigEndian.ofBytes name))
        (InRange fun name => UInt64.ofNat (BigEndian.ofBytes name))
        { globalIpv4AddrList := [10, 11] } [registration [65], registration [66]] :=
  ports_distinct_iff (fun name => UInt64.ofNat (BigEndian.ofBytes name)) [10, 11] 17
    [registration [65], registration [66]] (by
      simp [step, handle, handleCybertwinRegistration, registration, assignInterfaces,
        assignInterface, nextPort_free, BigEndian.ofBytes])

def comeAndGo (cname : List UInt8) (count : ℕ) : List Request :=
  (List.replicate count [registration cname, destruction cname]).flatten

theorem step_registration {stringToUint64 : List UInt8 → CybertwinId} {manager : CybertwinManager}
    {cname : List UInt8} (bare : manager.globalIpv4AddrList = [])
    (free : manager.cybertwinTable (stringToUint64 cname) = none) :
    step stringToUint64 manager (registration cname) = some { manager with
      lastAssignedPort := manager.lastAssignedPort + 1
      cybertwinTable := Function.update manager.cybertwinTable (stringToUint64 cname)
        (some ⟨stringToUint64 cname, (0, manager.lastAssignedPort), []⟩) } := by
  simp [step, handle, handleCybertwinRegistration, registration, assignInterfaces, bare, free]

theorem step_destruction {stringToUint64 : List UInt8 → CybertwinId} {manager : CybertwinManager}
    {cname : List UInt8} {cybertwin : Cybertwin}
    (held : manager.cybertwinTable (stringToUint64 cname) = some cybertwin) :
    step stringToUint64 manager (destruction cname) = some { manager with
      cybertwinTable := Function.update manager.cybertwinTable (stringToUint64 cname) none } := by
  have other : CybertwinProxyCommand.destruction.code ≠ CybertwinProxyCommand.registration.code := by
    decide
  simp [step, handle, handleCybertwinDestruction, destruction, held, other]

theorem run_comeAndGo (stringToUint64 : List UInt8 → CybertwinId) (cname : List UInt8) (count : ℕ)
    {manager : CybertwinManager} (bare : manager.globalIpv4AddrList = [])
    (free : manager.cybertwinTable (stringToUint64 cname) = none) :
    run (step stringToUint64) manager (comeAndGo cname count) =
      some { manager with
        lastAssignedPort := manager.lastAssignedPort + UInt16.ofNat count } := by
  induction count generalizing manager with
  | zero => simp [comeAndGo]
  | succ count ih =>
      have unrolled : comeAndGo cname (count + 1) =
          registration cname :: destruction cname :: comeAndGo cname count := by
        simp [comeAndGo, List.replicate_succ]
      rw [unrolled, run_cons, step_registration bare free, Option.bind_some, run_cons,
        step_destruction (Function.update_self ..), Option.bind_some]
      have back : Function.update manager.cybertwinTable (stringToUint64 cname) none =
          manager.cybertwinTable := by
        rw [← free, Function.update_eq_self]
      have later :=
        @ih { manager with lastAssignedPort := manager.lastAssignedPort + 1 } bare free
      simp only [Function.update_idem, back]
      rw [later, UInt16.add_assoc, UInt16.ofNat_add, UInt16.add_comm (UInt16.ofNat count)]
      rfl

theorem port_zero :
    (run (step fun name => UInt64.ofNat (BigEndian.ofBytes name)) {}
      (comeAndGo [65] 64536 ++ [registration [65]])).isSome ∧
    ¬ Throughout (step fun name => UInt64.ofNat (BigEndian.ofBytes name)) PortsDistinct {}
      (comeAndGo [65] 64536 ++ [registration [65]]) := by
  obtain ⟨last, ran, held⟩ : ∃ last,
      run (step fun name => UInt64.ofNat (BigEndian.ofBytes name)) {}
        (comeAndGo [65] 64536 ++ [registration [65]]) = some last ∧
      last.cybertwinTable 65 = some ⟨65, (0, 0), []⟩ := by
    rw [run_append, run_comeAndGo _ _ _ rfl rfl, Option.bind_some, run_cons,
      step_registration rfl rfl]
    exact ⟨_, rfl, rfl⟩
  refine ⟨by rw [ran]; rfl, ?_⟩
  intro distinct
  have reached := distinct _ [] last (List.append_nil _).symm ran
  exact (reached.valid 65 _ held).1 List.mem_cons_self

end CybertwinManager

end FISim.Control
