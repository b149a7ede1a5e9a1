import FISim.Header
import Mathlib.Logic.Function.Basic

/-!
`NameResolutionService`.  `Peer` names the sub-nodes of a service, as the socket
address that a request came from does.  A handler gives back the service with
what it sends, schedules and calls, in this order, or nothing where the program
aborts.
-/

namespace FISim.NameResolution

abbrev Name := CybertwinId

/-- What `m_queryCache` holds: the callback of a local lookup, or `QueryResponseCallback`.  The
latter takes three arguments and is stored as a callback of two. -/
inductive Callback
  | application (lookup : ℕ)
  | queryResponse
  deriving DecidableEq, Repr

structure Service (Peer : Type) where
  itemCache : Name → Option CybertwinInterfaceList := fun _ => none
  queryCache : QueryId → Option Callback := fun _ => none
  queryClientCache : QueryId → Option Peer := fun _ => none

inductive Output (Peer : Type)
  | send (header : CNRSHeader)
  | sendTo (peer : Peer) (header : CNRSHeader)
  | call (lookup : ℕ) (name : Name) (interfaces : CybertwinInterfaceList)
  | scheduleReport (name : Name) (interfaces : CybertwinInterfaceList)
  deriving DecidableEq, Repr

variable {Peer : Type}

-- The conversion casts the callback to an implementation that it is not: the call is undefined,
-- and the program aborts in it.
def Callback.invoke (name : Name) (interfaces : CybertwinInterfaceList) :
    Callback → Option (List (Output Peer))
  | application lookup => some [.call lookup name interfaces]
  | queryResponse => none

namespace Service

def querySuperiorFail (service : Service Peer) (id : Name) (qId : QueryId) :
    Option (List (Output Peer)) :=
  match service.queryCache qId with
  | none => some []
  | some callback => callback.invoke id []

-- The flag says that `m_superior` is initialized.
def querySuperior (service : Service Peer) (hasSuperior : Bool) (id : Name) (qId : QueryId) :
    Option (Int32 × List (Output Peer)) :=
  if hasSuperior then some (0, [.send { method := .query, cuid := id, queryId := qId }])
  else do
    let called ← service.querySuperiorFail id qId
    return (-1, called)

def informCNRSResult (service : Service Peer) (id : Name) (qId : QueryId) (peer : Peer) :
    List (Output Peer) :=
  let interfaces := (service.itemCache id).getD []
  let rspHeader : CNRSHeader := { method := .queryOk, cuid := id, queryId := qId }
  [.sendTo peer (rspHeader.setInterfaceList interfaces)]

def queryResponse (service : Service Peer) (peer : Peer) (id : Name) (qid : QueryId)
    (ifs : CybertwinInterfaceList) : Service Peer × List (Output Peer) :=
  let rspHeader : CNRSHeader := { cuid := id, queryId := qid }
  let rspHeader :=
    if ifs.length = 0 then { rspHeader with method := .queryFail }
    else { rspHeader with method := .queryOk }.setInterfaceList ifs
  ({ service with queryClientCache := Function.update service.queryClientCache qid none },
    [.sendTo peer rspHeader])

def processQuery (service : Service Peer) (hasSuperior : Bool) (rcvHeader : CNRSHeader)
    (peer : Peer) : Option (Service Peer × List (Output Peer)) :=
  let id := rcvHeader.cuid
  let qId := rcvHeader.queryId
  match service.itemCache id with
  | some _ => some (service, service.informCNRSResult id qId peer)
  | none => do
      let service := { service with
        queryClientCache := Function.update service.queryClientCache qId (some peer)
        queryCache := Function.update service.queryCache qId (some .queryResponse) }
      let (ret, sent) ← service.querySuperior hasSuperior id qId
      if ret < 0 then
        let failed ← service.querySuperiorFail id qId
        return (service, sent ++ failed)
      else return (service, sent)

def queryResponseHandler (service : Service Peer) (queryOk : Bool) (rcvHeader : CNRSHeader) :
    Option (Service Peer × List (Output Peer)) :=
  let id := rcvHeader.cuid
  let qId := rcvHeader.queryId
  let interfaces := if queryOk then rcvHeader.interfaceList else []
  let service :=
    if queryOk then
      { service with itemCache := Function.update service.itemCache id (some interfaces) }
    else service
  match service.queryClientCache qId with
  | some peer => some (service.queryResponse peer id qId interfaces)
  | none =>
      match service.queryCache qId with
      | some callback => do
          let called ← callback.invoke id interfaces
          return ({ service with queryCache := Function.update service.queryCache qId none },
            called)
      | none => some (service, [])

def insertCybertwinInterfaceName (service : Service Peer) (isCNRSRoot : Bool) (name : Name)
    (interfaces : CybertwinInterfaceList) : Service Peer × List (Output Peer) :=
  if service.itemCache name = some interfaces then (service, [])
  else
    ({ service with itemCache := Function.update service.itemCache name (some interfaces) },
      if isCNRSRoot then [] else [.scheduleReport name interfaces])

-- The response goes through `Send` of the service socket, which is not connected: it is refused.
def processInsert (service : Service Peer) (isCNRSRoot : Bool) (rcvHeader : CNRSHeader) :
    Service Peer × List (Output Peer) :=
  service.insertCybertwinInterfaceName isCNRSRoot rcvHeader.cuid rcvHeader.interfaceList

def reportName2Superior (hasSuperior : Bool) (id : Name) (interfaces : CybertwinInterfaceList) :
    List (Output Peer) :=
  if hasSuperior then
    let header : CNRSHeader := { method := .insert, cuid := id }
    [.send (header.setInterfaceList interfaces)]
  else []

-- `GetQueryID` draws until it finds an id that is not in `m_queryCache`; `qId` is what it found.
def getCybertwinInterfaceByName (service : Service Peer) (hasSuperior : Bool) (name : Name)
    (callback : Callback) (qId : QueryId) : Option (Service Peer × List (Output Peer)) :=
  match service.itemCache name with
  | some interfaces => do
      let called ← callback.invoke name interfaces
      return (service, called)
  | none =>
      if service.queryCache qId = none then do
        let service := { service with
          queryCache := Function.update service.queryCache qId (some callback) }
        let (_, sent) ← service.querySuperior hasSuperior name qId
        return (service, sent)
      else none

def serviceRecvHandler (service : Service Peer) (hasSuperior isCNRSRoot : Bool)
    (rcvHeader : CNRSHeader) (peer : Peer) : Option (Service Peer × List (Output Peer)) :=
  match rcvHeader.method with
  | .query => service.processQuery hasSuperior rcvHeader peer
  | .insert => some (service.processInsert isCNRSRoot rcvHeader)
  | .queryOk | .queryFail | .insertOk | .insertFail | .unknown _ => some (service, [])

def clientRecvHandler (service : Service Peer) (rcvHeader : CNRSHeader) :
    Option (Service Peer × List (Output Peer)) :=
  match rcvHeader.method with
  | .queryOk => service.queryResponseHandler true rcvHeader
  | .queryFail => service.queryResponseHandler false rcvHeader
  | .query | .insert | .insertOk | .insertFail | .unknown _ => some (service, [])

end Service

def queryHeader (name : Name) (qId : QueryId) : CNRSHeader :=
  { method := .query, cuid := name, queryId := qId }

def insertHeader (name : Name) (interfaces : CybertwinInterfaceList) : CNRSHeader :=
  CNRSHeader.setInterfaceList { method := .insert, cuid := name } interfaces

def okHeader (name : Name) (qId : QueryId) (interfaces : CybertwinInterfaceList) : CNRSHeader :=
  CNRSHeader.setInterfaceList { method := .queryOk, cuid := name, queryId := qId } interfaces

def failHeader (name : Name) (qId : QueryId) : CNRSHeader :=
  { method := .queryFail, cuid := name, queryId := qId }

def responseHeader (name : Name) (qId : QueryId) (interfaces : CybertwinInterfaceList) :
    CNRSHeader :=
  if interfaces.length = 0 then failHeader name qId else okHeader name qId interfaces

end FISim.NameResolution
