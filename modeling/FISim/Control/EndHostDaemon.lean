import FISim.Header

/-!
`CybertwinEndHostDaemon`, with what it stores on its `CybertwinEndHost` node.
-/

namespace FISim.Control

structure CybertwinEndHost where
  name : List UInt8 := []
  cybertwinId : CybertwinId := 0
  cybertwinPort : UInt16 := 0
  cybertwinStatus : Bool := false
  deriving DecidableEq, Repr

structure CybertwinEndHostDaemon where
  endHost : CybertwinEndHost := {}
  isRegisteredToCybertwin : Bool := false
  cybertwinId : CybertwinId := 0
  cybertwinPort : UInt16 := 0
  deriving DecidableEq, Repr

namespace CybertwinEndHostDaemon

-- The request is sent again every second until the daemon is registered.
def authenticate (daemon : CybertwinEndHostDaemon) : Option CybertwinManagerHeader :=
  if daemon.isRegisteredToCybertwin then none
  else some
    { command := CybertwinProxyCommand.registration.code, cname := daemon.endHost.name }

def registerSuccessHandler (daemon : CybertwinEndHostDaemon) (header : CybertwinManagerHeader) :
    CybertwinEndHostDaemon :=
  if daemon.endHost.name ≠ header.cname then daemon
  else
    { endHost := { daemon.endHost with
        cybertwinId := header.cuid
        cybertwinPort := header.port
        cybertwinStatus := true }
      isRegisteredToCybertwin := true
      cybertwinId := header.cuid
      cybertwinPort := header.port }

-- `RegisterFailureHandler` only logs.
def handle (daemon : CybertwinEndHostDaemon) (header : CybertwinManagerHeader) :
    CybertwinEndHostDaemon :=
  if header.command = CybertwinProxyCommand.registrationAck.code then
    { daemon with isRegisteredToCybertwin := true }.registerSuccessHandler header
  else daemon

def recvFromCybertwinManangerCallback (daemon : CybertwinEndHostDaemon) :
    List Packet → Option CybertwinEndHostDaemon
  | [] => some daemon
  | packet :: rest => do
      let (header, _) ← CybertwinManagerHeader.deserialize packet
      (daemon.handle header).recvFromCybertwinManangerCallback rest

end CybertwinEndHostDaemon

end FISim.Control
