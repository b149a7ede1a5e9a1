import FISim.Header
import Mathlib.Logic.Function.Basic

/-!
`CybertwinManager`.  `stringToUint64` is the standard library's string hash and
`localAddr` the local address of the connection that a request came over.
-/

namespace FISim.Control

structure Cybertwin where
  cybertwinId : CybertwinId
  localInterface : CybertwinInterface
  globalInterfaces : CybertwinInterfaceList
  deriving DecidableEq, Repr

structure CybertwinManager where
  globalIpv4AddrList : List UInt32 := []
  proxyPort : UInt16 := 17
  cybertwinTable : CybertwinId → Option Cybertwin := fun _ => none
  assignedPorts : UInt16 → Bool := fun _ => false
  lastAssignedPort : UInt16 := 1000

namespace CybertwinManager

/-- The loop that looks for a port; it gives the port and the counter after it. -/
def nextPort (assignedPorts : UInt16 → Bool) (last : UInt16) : UInt16 × UInt16 :=
  if assignedPorts last ∧ last + 1 < 65535 then nextPort assignedPorts (last + 1)
  else (last, last + 1)
termination_by 65535 - (last + 1).toNat
decreasing_by
  rename_i further
  have below : (last + 1).toNat < 65535 := further.2
  have after : (last + 1 + 1).toNat = (last + 1).toNat + 1 := by
    rw [UInt16.toNat_add]
    simp only [UInt16.reduceToNat]
    omega
  omega

def assignInterface (state : CybertwinManager × CybertwinInterfaceList) (addr : UInt32) :
    Option (CybertwinManager × CybertwinInterfaceList) :=
  let (manager, ifs) := state
  let (port, last) := nextPort manager.assignedPorts manager.lastAssignedPort
  let manager := { manager with lastAssignedPort := last }
  if last < 65535 then
    some ({ manager with assignedPorts := Function.update manager.assignedPorts port true },
      ifs ++ [(addr, port)])
  else if last = 65535 then none
  else some (manager, ifs)

def assignInterfaces (manager : CybertwinManager) :
    Option (CybertwinManager × CybertwinInterfaceList) :=
  manager.globalIpv4AddrList.foldlM assignInterface (manager, [])

variable (stringToUint64 : List UInt8 → CybertwinId) (localAddr : UInt32)

def handleCybertwinRegistration (manager : CybertwinManager) (header : CybertwinManagerHeader) :
    Option (CybertwinManager × CybertwinManagerHeader) :=
  let name := header.cname
  let cuid := stringToUint64 name
  match manager.cybertwinTable cuid with
  | some _ =>
      some (manager, { command := CybertwinProxyCommand.registrationError.code, cname := name })
  | none => do
      let localPort := manager.lastAssignedPort
      let manager := { manager with lastAssignedPort := manager.lastAssignedPort + 1 }
      let (manager, globalInterfaces) ← manager.assignInterfaces
      let cybertwin : Cybertwin :=
        { cybertwinId := cuid, localInterface := (localAddr, localPort), globalInterfaces }
      return ({ manager with
          cybertwinTable := Function.update manager.cybertwinTable cuid (some cybertwin) },
        { command := CybertwinProxyCommand.registrationAck.code, cname := name, cuid,
          port := localPort })

def handleCybertwinDestruction (manager : CybertwinManager) (header : CybertwinManagerHeader) :
    CybertwinManager × CybertwinManagerHeader :=
  let name := header.cname
  let cuid := stringToUint64 name
  match manager.cybertwinTable cuid with
  | none => (manager, { command := CybertwinProxyCommand.destructionError.code, cname := name })
  | some _ =>
      ({ manager with cybertwinTable := Function.update manager.cybertwinTable cuid none },
        { command := CybertwinProxyCommand.destructionAck.code, cname := name })

def handleCybertwinReconnect (manager : CybertwinManager) (header : CybertwinManagerHeader) :
    CybertwinManager × CybertwinManagerHeader :=
  let name := header.cname
  let cuid := stringToUint64 name
  match manager.cybertwinTable cuid with
  | none => (manager, { command := CybertwinProxyCommand.reconnectError.code, cname := name })
  | some _ => (manager, { command := CybertwinProxyCommand.reconnectAck.code, cname := name })

-- The handlers read the header that was peeked off the packet again.
def handle (manager : CybertwinManager) (header : CybertwinManagerHeader) :
    Option (CybertwinManager × List CybertwinManagerHeader) :=
  if header.command = CybertwinProxyCommand.registration.code then do
    let (manager, reply) ← manager.handleCybertwinRegistration stringToUint64 localAddr header
    return (manager, [reply])
  else if header.command = CybertwinProxyCommand.destruction.code then
    let (manager, reply) := manager.handleCybertwinDestruction stringToUint64 header
    some (manager, [reply])
  else if header.command = CybertwinProxyCommand.reconnect.code then
    let (manager, reply) := manager.handleCybertwinReconnect stringToUint64 header
    some (manager, [reply])
  else some (manager, [])

def receiveFromHost (manager : CybertwinManager) :
    List Packet → Option (CybertwinManager × List Packet)
  | [] => some (manager, [])
  | packet :: rest =>
      if packet.length = 0 then some (manager, [])
      else do
        let (header, _) ← CybertwinManagerHeader.deserialize packet
        let (manager, replies) ← manager.handle stringToUint64 localAddr header
        let (manager, later) ← manager.receiveFromHost rest
        return (manager, replies.map CybertwinManagerHeader.serialize ++ later)

end CybertwinManager

end FISim.Control
