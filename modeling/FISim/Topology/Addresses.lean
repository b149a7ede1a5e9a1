import FISim.Topology.Passes

/-!
The addresses that the networks of a file have for their devices.  Where they are
different, `AssignIPAddresses` is never refused one.
-/

namespace FISim.Topology

namespace Reader

/-- The addresses of a network for so many devices, when nothing else has one of them. -/
def addressesOf (network : Subnet) (count : ℕ) : Option (List UInt32) :=
  (assignIPAddresses {} (List.replicate count 0) network).map Prod.snd

/-- Each network has an address for each of its devices, and none of them comes twice. -/
structure Addressable (used : List UInt32) (demands : List (Subnet × ℕ)) : Prop where
  computed : ∀ demand ∈ demands, (addressesOf demand.1 demand.2).isSome
  apart : (used ++ demands.flatMap fun demand => (addressesOf demand.1 demand.2).getD []).Nodup

def clusterDemands (clusters : List EndCluster) : List (Subnet × ℕ) :=
  clusters.flatMap fun cluster => (cluster.localNetwork, cluster.numNodes) ::
    cluster.gateways.head?.toList.map fun link => (link.network, 2)

theorem Addressable.unique {used : List UInt32} {demands : List (Subnet × ℕ)}
    (addressable : Addressable used demands) : used.Nodup :=
  (List.nodup_append.mp addressable.apart).1

theorem newAddress_of {state after : Reader × AddressHelper} {reader : Reader} {node : ℕ}
    {addr : UInt32} (ran : newAddress state node = some (after, addr))
    (fresh : addr ∉ reader.interfaces.map Prod.fst) (other : ℕ) :
    newAddress (reader, state.2) other =
      some (({ reader with interfaces := reader.interfaces ++ [(addr, other)] }, after.2), addr) := by
  simp only [newAddress] at ran ⊢
  split at ran
  · rename_i room
    split at ran
    · cases ran
    · rename_i old
      obtain ⟨rfl, rfl⟩ := Prod.mk.inj (Option.some.inj ran)
      rw [if_pos room, if_neg]
      rintro (zero | taken)
      · exact old (.inl zero)
      · exact fresh taken
  · cases ran

theorem assignAddresses_of {devices others : List ℕ} {state : Reader × AddressHelper}
    (reader : Reader) {after : Reader} {addresses : List UInt32}
    (unique : (state.1.interfaces.map Prod.fst).Nodup)
    (ran : assignAddresses state devices = some (after, addresses))
    (lengths : others.length = devices.length)
    (fresh : ∀ address ∈ addresses, address ∉ reader.interfaces.map Prod.fst) :
    assignAddresses (reader, state.2) others =
      some ({ reader with interfaces := reader.interfaces ++ addresses.zip others }, addresses) := by
  induction devices generalizing state reader after others addresses with
  | nil =>
      rw [List.eq_nil_of_length_eq_zero lengths]
      obtain ⟨-, rfl⟩ := Prod.mk.inj (Option.some.inj ran)
      simp [assignAddresses]
  | cons node rest ih =>
      obtain ⟨other, more, rfl⟩ := List.exists_cons_of_length_eq_add_one lengths
      obtain ⟨⟨middle, addr⟩, first, ran⟩ := Option.bind_eq_some_iff.mp ran
      obtain ⟨⟨last, later⟩, second, ran⟩ := Option.bind_eq_some_iff.mp ran
      obtain ⟨rfl, rfl⟩ := Prod.mk.inj (Option.some.inj ran)
      obtain ⟨made, grown⟩ := newAddress_spec unique first
      have unique : (middle.1.interfaces.map Prod.fst).Nodup := by rwa [made]
      obtain ⟨-, counted, apart⟩ := assignAddresses_spec unique second
      rw [List.map_append, List.map_fst_zip (by omega)] at apart
      have free := (List.nodup_append.mp apart).2.2
      have step := newAddress_of first (fresh addr List.mem_cons_self) other
      have rest := ih { reader with interfaces := reader.interfaces ++ [(addr, other)] } unique second
        (by simpa using lengths) (by
          intro address member
          rw [List.map_append, List.mem_append]
          rintro (old | new)
          · exact fresh address (List.mem_cons_of_mem _ member) old
          · rw [List.map_singleton, List.mem_singleton] at new
            subst new
            refine free address ?_ address member rfl
            rw [made, List.map_append]
            exact List.mem_append_right _ List.mem_cons_self)
      simp only [assignAddresses, step, rest, Option.bind_eq_bind, Option.bind_some,
        List.append_assoc]
      rfl

theorem Addressable.assign {reader : Reader} (devices : List ℕ) {network : Subnet}
    {rest : List (Subnet × ℕ)}
    (addressable : Addressable (reader.interfaces.map Prod.fst) ((network, devices.length) :: rest)) :
    ∃ after addresses, reader.assignIPAddresses devices network = some (after, addresses) ∧
      after = { reader with interfaces := reader.interfaces ++ addresses.zip devices } ∧
      addresses.length = devices.length ∧ Addressable (after.interfaces.map Prod.fst) rest := by
  have computed := addressable.computed _ List.mem_cons_self
  obtain ⟨addresses, given⟩ := Option.isSome_iff_exists.mp computed
  have apart := addressable.apart
  rw [List.flatMap_cons, given, Option.getD_some, ← List.append_assoc] at apart
  obtain ⟨⟨after, _⟩, ran, rfl⟩ := Option.map_eq_some_iff.mp given
  obtain ⟨helper, based, ran⟩ := Option.bind_eq_some_iff.mp ran
  have unique : ((({} : Reader), helper).1.interfaces.map Prod.fst).Nodup := List.nodup_nil
  obtain ⟨-, lengths, -⟩ := assignAddresses_spec unique ran
  rw [List.length_replicate] at lengths
  have fresh := (List.nodup_append.mp (List.nodup_append.mp apart).1).2.2
  have assigned := assignAddresses_of reader unique ran (List.length_replicate).symm
    fun address member old => fresh address old address member rfl
  refine ⟨_, _, ?_, rfl, lengths, ?_, ?_⟩
  · rw [assignIPAddresses, based]
    exact assigned
  · exact fun demand member => addressable.computed demand (List.mem_cons_of_mem _ member)
  · rw [List.map_append, List.map_fst_zip (by simp [lengths])]
    exact apart

theorem Addressable.of_assign {reader after : Reader} {devices : List ℕ} {network : Subnet}
    {addresses : List UInt32} {rest : List (Subnet × ℕ)}
    (unique : (reader.interfaces.map Prod.fst).Nodup)
    (ran : reader.assignIPAddresses devices network = some (after, addresses))
    (later : Addressable (after.interfaces.map Prod.fst) rest) :
    Addressable (reader.interfaces.map Prod.fst) ((network, devices.length) :: rest) := by
  obtain ⟨grown, lengths, -⟩ := assignIPAddresses_spec unique ran
  obtain ⟨helper, based, ran⟩ := Option.bind_eq_some_iff.mp ran
  have given : addressesOf network devices.length = some addresses := by
    have alone : assignAddresses ({}, helper) (List.replicate devices.length 0) = _ :=
      assignAddresses_of {} unique ran List.length_replicate fun _ _ => List.not_mem_nil
    rw [addressesOf, assignIPAddresses, based]
    change (assignAddresses (_, helper) _).map Prod.snd = _
    rw [alone]
    rfl
  refine ⟨?_, ?_⟩
  · intro demand member
    rcases List.mem_cons.mp member with rfl | member
    · rw [given]
      rfl
    · exact later.computed demand member
  · rw [List.flatMap_cons, given, Option.getD_some, ← List.append_assoc]
    have apart := later.apart
    rwa [grown, List.map_append, List.map_fst_zip (by omega)] at apart

theorem createP2PLink_of_addressable {reader : Reader} {network : Subnet}
    {rest : List (Subnet × ℕ)} (source target : ℕ)
    (addressable : Addressable (reader.interfaces.map Prod.fst) ((network, 2) :: rest)) :
    ∃ first second after, reader.createP2PLink source target network =
        some (after, first, second) ∧
      after = { reader with
        interfaces := reader.interfaces ++ [(first, source), (second, target)] } ∧
      Addressable (after.interfaces.map Prod.fst) rest := by
  obtain ⟨after, addresses, assigned, grown, lengths, later⟩ :=
    Addressable.assign [source, target] addressable
  match addresses, lengths with
  | [first, second], _ =>
      refine ⟨first, second, after, ?_, grown, later⟩
      rw [createP2PLink, assigned]
      rfl

theorem createP2PLink_interfaces {reader after : Reader} {source target : ℕ} {network : Subnet}
    {first second : UInt32} (unique : (reader.interfaces.map Prod.fst).Nodup)
    (ran : reader.createP2PLink source target network = some (after, first, second)) :
    after = { reader with
      interfaces := reader.interfaces ++ [(first, source), (second, target)] } ∧
      (after.interfaces.map Prod.fst).Nodup ∧
      ∀ rest, Addressable (after.interfaces.map Prod.fst) rest →
        Addressable (reader.interfaces.map Prod.fst) ((network, 2) :: rest) := by
  obtain ⟨⟨middle, addresses⟩, assigned, ran⟩ := Option.bind_eq_some_iff.mp ran
  have met : ∀ rest, Addressable (middle.interfaces.map Prod.fst) rest →
      Addressable (reader.interfaces.map Prod.fst) ((network, 2) :: rest) :=
    fun _ => Addressable.of_assign unique assigned
  obtain ⟨rfl, lengths, apart⟩ := assignIPAddresses_spec unique assigned
  match addresses, lengths with
  | [one, two], _ =>
      obtain ⟨rfl, rest⟩ := Prod.mk.inj (Option.some.inj ran)
      obtain ⟨rfl, rfl⟩ := Prod.mk.inj rest
      exact ⟨rfl, apart, met⟩

end Reader

end FISim.Topology
