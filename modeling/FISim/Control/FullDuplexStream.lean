import FISim.Header
import FISim.Lib.Transition

/-!
`CybertwinFullDuplexStream`, whose end socket is there when it is activated.  The
simulator runs the pumps that are scheduled in any order; whether a rate limit is
met and whether a socket takes a packet are part of the event.
-/

namespace FISim.Control

open Transition

inductive EndpointStatus
  | none
  | connecting
  | connected
  | disconnected
  | done
  | endStop
  deriving DecidableEq, Repr

-- One `Send` on the end socket, and whether it came between a STOP and the next START.
structure EndSend where
  packet : Packet
  accepted : Bool
  stopped : Bool
  deriving DecidableEq, Repr

/-- The fields from `fromEnd` on are not the program's: they record what was received, sent and
accepted and the most that each buffer has held. -/
structure FullDuplexStream where
  hasCloudSocket : Bool
  endStatus : EndpointStatus
  cloudStatus : EndpointStatus
  endBuffer : List Packet := []
  cloudBuffer : List Packet := []
  sendToCloudEvent : Option ℕ := Option.none
  sendToCloudBytes : UInt64 := 0
  sendToEndEvent : Option ℕ := Option.none
  sendToEndBytes : UInt64 := 0
  cloudPumps : List ℕ := []
  endPumps : List ℕ := []
  nextEvent : ℕ := 0
  fromEnd : List Packet := []
  fromCloud : List Packet := []
  toCloud : List Packet := []
  endSends : List EndSend := []
  endPeak : ℕ := 0
  cloudPeak : ℕ := 0
  deriving DecidableEq, Repr

namespace FullDuplexStream

inductive Event
  | cloudResolved (interfaces : CybertwinInterfaceList)
  | cloudConnected
  | cloudConnectError
  | cloudNormalClose
  | cloudErrorClose
  | endNormalClose
  | endErrorClose
  | endReceive (packets : List Packet)
  | cloudReceive (packets : List Packet)
  | pumpToCloud (event : ℕ) (limited first second : Bool)
  | pumpToEnd (event : ℕ) (limited accepted : Bool)
  deriving DecidableEq, Repr

-- A STOP stops the stream and a START lets it go on; no other packet changes that.
def stops (before : Bool) (packet : Packet) : Bool :=
  match CybertwinHeader.deserialize packet with
  | some (header, _) =>
      if header.command = CybertwinCommand.endHostStopStream.code then true
      else if header.command = CybertwinCommand.endHostStartStream.code then false
      else before
  | Option.none => before

/-- The last command of the end host is a STOP. -/
def stopped (stream : FullDuplexStream) : Bool := stream.fromEnd.foldl stops false

def activate (hasCloudSocket : Bool) : FullDuplexStream where
  hasCloudSocket
  endStatus := .connected
  cloudStatus := if hasCloudSocket then .connected else .connecting

def isRunning (event : Option ℕ) (scheduled : List ℕ) : Bool :=
  event.any fun event => event ∈ scheduled

-- What `Send` returns: a packet is taken whole or not at all.
def sendSize (accepted : Bool) (packet : Packet) : ℤ := if accepted then packet.length else -1

def scheduleSendToCloud (stream : FullDuplexStream) : FullDuplexStream :=
  { stream with
    cloudPumps := stream.cloudPumps ++ [stream.nextEvent]
    sendToCloudEvent := some stream.nextEvent
    nextEvent := stream.nextEvent + 1 }

def scheduleSendToEnd (stream : FullDuplexStream) : FullDuplexStream :=
  { stream with
    endPumps := stream.endPumps ++ [stream.nextEvent]
    sendToEndEvent := some stream.nextEvent
    nextEvent := stream.nextEvent + 1 }

def cancelSendToEnd (stream : FullDuplexStream) : FullDuplexStream :=
  if isRunning stream.sendToEndEvent stream.endPumps then
    { stream with
      endPumps := stream.endPumps.filter fun event => some event ≠ stream.sendToEndEvent }
  else stream

def duplexStreamCloudConnect (stream : FullDuplexStream) (interfaces : CybertwinInterfaceList) :
    FullDuplexStream :=
  if interfaces.length = 0 then stream else { stream with hasCloudSocket := true }

def pushEnd (stream : FullDuplexStream) (packet : Packet) : FullDuplexStream :=
  if stream.endBuffer.length > 100000 then stream
  else { stream with
    endBuffer := stream.endBuffer ++ [packet]
    endPeak := max stream.endPeak (stream.endBuffer.length + 1) }

def receiveCommand (stream : FullDuplexStream) (header : CybertwinHeader) : FullDuplexStream :=
  if header.command = CybertwinCommand.endHostStopStream.code then
    { stream with endStatus := .endStop }.cancelSendToEnd
  else if header.command = CybertwinCommand.endHostStartStream.code then
    { stream with endStatus := .connected }.scheduleSendToEnd
  else stream

/-- The body of the loop over the packets of the end host.  The test is on the number of bytes
that `RemoveHeader` takes off. -/
def receiveEnd (stream : FullDuplexStream) (packet : Packet) : Option FullDuplexStream := do
  let (header, rest) ← CybertwinHeader.deserialize packet
  let stream := { stream with fromEnd := stream.fromEnd ++ [packet] }
  if header.getSerializedSize ≠ 0 then return stream.receiveCommand header
  else return stream.pushEnd rest

def duplexStreamEndRecvCallback (stream : FullDuplexStream) (packets : List Packet) :
    Option FullDuplexStream := do
  let stream ← packets.foldlM receiveEnd stream
  return if isRunning stream.sendToCloudEvent stream.cloudPumps then stream
    else stream.scheduleSendToCloud

-- `Recv` gives an empty packet at the end of the stream only, where the loop does not end.
def receiveCloud (stream : FullDuplexStream) (packet : Packet) : Option FullDuplexStream :=
  if packet.length = 0 then Option.none
  else
    let stream := { stream with fromCloud := stream.fromCloud ++ [packet] }
    if stream.cloudBuffer.length > 100000 then some stream
    else some { stream with
      cloudBuffer := stream.cloudBuffer ++ [packet]
      cloudPeak := max stream.cloudPeak (stream.cloudBuffer.length + 1) }

def duplexStreamCloudRecvCallback (stream : FullDuplexStream) (packets : List Packet) :
    Option FullDuplexStream := do
  let stream ← packets.foldlM receiveCloud stream
  return if isRunning stream.sendToEndEvent stream.endPumps then stream
    else stream.scheduleSendToEnd

def sendToCloud (stream : FullDuplexStream) (packet : Packet) (accepted : Bool) :
    FullDuplexStream :=
  if accepted then { stream with toCloud := stream.toCloud ++ [packet] } else stream

-- The packet is sent a second time where its size is added up.
def ouputEndBuffer (stream : FullDuplexStream) (limited first second : Bool) : FullDuplexStream :=
  if stream.hasCloudSocket = false then stream
  else match stream.endBuffer with
    | [] => stream
    | packet :: rest =>
        if stream.cloudStatus ≠ .connected then stream
        else if limited then stream.scheduleSendToCloud
        else
          let stream := stream.sendToCloud packet first
          if sendSize first packet ≤ 0 then stream.scheduleSendToCloud
          else
            let stream := stream.sendToCloud packet second
            { stream with
              sendToCloudBytes :=
                stream.sendToCloudBytes + UInt64.ofInt (sendSize second packet)
              endBuffer := rest }.scheduleSendToCloud

def ouputCloudBuffer (stream : FullDuplexStream) (limited accepted : Bool) : FullDuplexStream :=
  match stream.cloudBuffer with
  | [] => stream
  | packet :: rest =>
      if stream.endStatus = .endStop then stream
      else if limited then stream.scheduleSendToEnd
      else
        let stream := { stream with
          endSends := stream.endSends ++ [(⟨packet, accepted, stream.stopped⟩ : EndSend)] }
        if sendSize accepted packet ≤ 0 then stream.scheduleSendToEnd
        else { stream with
          sendToEndBytes := stream.sendToEndBytes + UInt64.ofInt (sendSize accepted packet)
          cloudBuffer := rest }.scheduleSendToEnd

def step (stream : FullDuplexStream) : Event → Option FullDuplexStream
  | .cloudResolved interfaces => some (stream.duplexStreamCloudConnect interfaces)
  | .cloudConnected => some { stream with cloudStatus := .connected }
  | .cloudConnectError => some { stream with cloudStatus := .disconnected }
  | .cloudNormalClose => some { stream with cloudStatus := .done }
  | .cloudErrorClose => some { stream with cloudStatus := .disconnected }
  | .endNormalClose => some { stream with endStatus := .disconnected }
  | .endErrorClose => some { stream with endStatus := .disconnected }
  | .endReceive packets => stream.duplexStreamEndRecvCallback packets
  | .cloudReceive packets => stream.duplexStreamCloudRecvCallback packets
  | .pumpToCloud event limited first second =>
      if event ∈ stream.cloudPumps then
        some (ouputEndBuffer { stream with cloudPumps := stream.cloudPumps.erase event }
          limited first second)
      else Option.none
  | .pumpToEnd event limited accepted =>
      if event ∈ stream.endPumps then
        some (ouputCloudBuffer { stream with endPumps := stream.endPumps.erase event }
          limited accepted)
      else Option.none

/-- A packet that is neither a STOP nor a START. -/
def isData (packet : Packet) : Bool :=
  match CybertwinHeader.deserialize packet with
  | some (header, _) =>
      header.command ≠ CybertwinCommand.endHostStopStream.code ∧
        header.command ≠ CybertwinCommand.endHostStartStream.code
  | Option.none => true

def dataFromEnd (stream : FullDuplexStream) : List Packet := stream.fromEnd.filter isData

-- The packets that the end socket accepted.
def toEnd (stream : FullDuplexStream) : List Packet :=
  (stream.endSends.filter EndSend.accepted).map EndSend.packet

/-- The packets that the cloud socket accepted and those that wait for it are the data packets of
the end host, as long as the buffer never held more than 100000. -/
structure Forwarded (stream : FullDuplexStream) : Prop where
  packets : stream.endPeak ≤ 100000 → stream.toCloud ++ stream.endBuffer = stream.dataFromEnd
  bytes : stream.sendToCloudBytes = UInt64.ofNat (stream.toCloud.map List.length).sum

def NoData (_ : FullDuplexStream) : Event → Prop
  | .endReceive packets => ∀ packet ∈ packets, isData packet = false
  | _ => True

instance (stream : FullDuplexStream) (event : Event) : Decidable (stream.NoData event) := by
  cases event <;> unfold NoData <;> infer_instance

structure Idle (stream : FullDuplexStream) : Prop where
  buffer : stream.endBuffer = []
  peak : stream.endPeak = 0
  sent : stream.toCloud = []
  bytes : stream.sendToCloudBytes = 0

theorem Idle.toCloud_iff {stream : FullDuplexStream} (idle : stream.Idle) :
    stream.Forwarded ↔ stream.dataFromEnd = [] := by
  constructor
  · intro forwarded
    have packets := forwarded.packets (by rw [idle.peak]; omega)
    rw [idle.sent, idle.buffer] at packets
    exact packets.symm
  · intro nothing
    refine ⟨fun _ => ?_, ?_⟩
    · rw [idle.sent, idle.buffer, nothing]
      rfl
    · rw [idle.bytes, idle.sent]
      rfl

-- What the end host sends changes nothing on the way to the cloud, whatever it is.
structure SameToCloud (before after : FullDuplexStream) : Prop where
  buffer : after.endBuffer = before.endBuffer
  peak : after.endPeak = before.endPeak
  sent : after.toCloud = before.toCloud
  bytes : after.sendToCloudBytes = before.sendToCloudBytes

theorem SameToCloud.refl (stream : FullDuplexStream) : SameToCloud stream stream :=
  ⟨rfl, rfl, rfl, rfl⟩

theorem SameToCloud.trans {first second third : FullDuplexStream}
    (one : SameToCloud first second) (two : SameToCloud second third) : SameToCloud first third :=
  ⟨two.buffer.trans one.buffer, two.peak.trans one.peak, two.sent.trans one.sent,
    two.bytes.trans one.bytes⟩

theorem Idle.same {before after : FullDuplexStream} (idle : before.Idle)
    (same : SameToCloud before after) : after.Idle :=
  ⟨same.buffer.trans idle.buffer, same.peak.trans idle.peak, same.sent.trans idle.sent,
    same.bytes.trans idle.bytes⟩

theorem cancelSendToEnd_eq (stream : FullDuplexStream) :
    stream.cancelSendToEnd = { stream with endPumps := stream.cancelSendToEnd.endPumps } := by
  unfold cancelSendToEnd
  split <;> rfl

theorem receiveCommand_eq (stream : FullDuplexStream) (header : CybertwinHeader) :
    stream.receiveCommand header = { stream with
      endStatus := (stream.receiveCommand header).endStatus
      endPumps := (stream.receiveCommand header).endPumps
      sendToEndEvent := (stream.receiveCommand header).sendToEndEvent
      nextEvent := (stream.receiveCommand header).nextEvent } := by
  unfold receiveCommand
  split
  · rw [cancelSendToEnd_eq]
  · split <;> rfl

theorem receiveEnd_eq {stream after : FullDuplexStream} {packet : Packet}
    (ran : receiveEnd stream packet = some after) :
    ∃ header rest, CybertwinHeader.deserialize packet = some (header, rest) ∧
      after = { stream with fromEnd := stream.fromEnd ++ [packet] }.receiveCommand header := by
  obtain ⟨⟨header, rest⟩, read, ran⟩ := Option.bind_eq_some_iff.mp ran
  exact ⟨header, rest, read, (Option.some.inj ran).symm⟩

theorem receiveEnd_spec {stream after : FullDuplexStream} {packet : Packet}
    (ran : receiveEnd stream packet = some after) :
    SameToCloud stream after ∧ after.fromEnd = stream.fromEnd ++ [packet] := by
  obtain ⟨header, rest, -, rfl⟩ := receiveEnd_eq ran
  rw [receiveCommand_eq]
  exact ⟨⟨rfl, rfl, rfl, rfl⟩, rfl⟩

theorem receiveEnds_spec {packets : List Packet} {stream after : FullDuplexStream}
    (ran : packets.foldlM receiveEnd stream = some after) :
    SameToCloud stream after ∧ after.fromEnd = stream.fromEnd ++ packets := by
  induction packets generalizing stream with
  | nil =>
      cases ran
      exact ⟨.refl _, (List.append_nil _).symm⟩
  | cons packet rest ih =>
      rw [List.foldlM_cons] at ran
      obtain ⟨middle, first, later⟩ := Option.bind_eq_some_iff.mp ran
      obtain ⟨same, received⟩ := receiveEnd_spec first
      obtain ⟨more, all⟩ := ih later
      refine ⟨same.trans more, ?_⟩
      rw [all, received, List.append_assoc, List.singleton_append]

theorem receiveCloud_eq {stream after : FullDuplexStream} {packet : Packet}
    (ran : receiveCloud stream packet = some after) :
    after = { stream with
      fromCloud := after.fromCloud, cloudBuffer := after.cloudBuffer,
      cloudPeak := after.cloudPeak } := by
  unfold receiveCloud at ran
  split at ran
  · cases ran
  · simp only [] at ran
    split at ran
    · rw [← Option.some.inj ran]
    · rw [← Option.some.inj ran]

theorem receiveClouds_eq {packets : List Packet} {stream after : FullDuplexStream}
    (ran : packets.foldlM receiveCloud stream = some after) :
    after = { stream with
      fromCloud := after.fromCloud, cloudBuffer := after.cloudBuffer,
      cloudPeak := after.cloudPeak } := by
  induction packets generalizing stream with
  | nil => rw [← Option.some.inj ran]
  | cons packet rest ih =>
      rw [List.foldlM_cons] at ran
      obtain ⟨middle, first, later⟩ := Option.bind_eq_some_iff.mp ran
      rw [ih later, receiveCloud_eq first]

theorem ouputCloudBuffer_eq (stream : FullDuplexStream) (limited accepted : Bool) :
    stream.ouputCloudBuffer limited accepted = { stream with
      endSends := (stream.ouputCloudBuffer limited accepted).endSends
      sendToEndBytes := (stream.ouputCloudBuffer limited accepted).sendToEndBytes
      cloudBuffer := (stream.ouputCloudBuffer limited accepted).cloudBuffer
      endPumps := (stream.ouputCloudBuffer limited accepted).endPumps
      sendToEndEvent := (stream.ouputCloudBuffer limited accepted).sendToEndEvent
      nextEvent := (stream.ouputCloudBuffer limited accepted).nextEvent } := by
  unfold ouputCloudBuffer
  split
  · rfl
  · split
    · rfl
    · split
      · rfl
      · simp only []
        split <;> rfl

def received : Event → List Packet
  | .endReceive packets => packets
  | _ => []

theorem Idle.step {stream next : FullDuplexStream} {event : Event} (idle : stream.Idle)
    (stepped : step stream event = some next) :
    next.Idle ∧ next.fromEnd = stream.fromEnd ++ received event := by
  cases event with
  | endReceive packets =>
      obtain ⟨middle, taken, stepped⟩ := Option.bind_eq_some_iff.mp stepped
      obtain ⟨same, all⟩ := receiveEnds_spec taken
      have kept := idle.same same
      rw [← Option.some.inj stepped]
      split
      · exact ⟨kept, all⟩
      · exact ⟨⟨kept.buffer, kept.peak, kept.sent, kept.bytes⟩, all⟩
  | cloudReceive packets =>
      obtain ⟨middle, taken, stepped⟩ := Option.bind_eq_some_iff.mp stepped
      have same := receiveClouds_eq taken
      rw [← Option.some.inj stepped]
      split
      · rw [same]
        exact ⟨⟨idle.buffer, idle.peak, idle.sent, idle.bytes⟩, (List.append_nil _).symm⟩
      · rw [same]
        exact ⟨⟨idle.buffer, idle.peak, idle.sent, idle.bytes⟩, (List.append_nil _).symm⟩
  | pumpToCloud event limited first second =>
      simp only [FullDuplexStream.step, ouputEndBuffer, idle.buffer] at stepped
      split at stepped
      · rw [← Option.some.inj stepped]
        split
        · exact ⟨⟨rfl, idle.peak, idle.sent, idle.bytes⟩, (List.append_nil _).symm⟩
        · exact ⟨⟨rfl, idle.peak, idle.sent, idle.bytes⟩, (List.append_nil _).symm⟩
      · cases stepped
  | pumpToEnd event limited accepted =>
      simp only [FullDuplexStream.step] at stepped
      split at stepped
      · rw [← Option.some.inj stepped, ouputCloudBuffer_eq]
        exact ⟨⟨idle.buffer, idle.peak, idle.sent, idle.bytes⟩, (List.append_nil _).symm⟩
      · cases stepped
  | cloudResolved interfaces =>
      rw [← Option.some.inj stepped]
      unfold duplexStreamCloudConnect
      split
      · exact ⟨idle, (List.append_nil _).symm⟩
      · exact ⟨⟨idle.buffer, idle.peak, idle.sent, idle.bytes⟩, (List.append_nil _).symm⟩
  | _ =>
      rw [← Option.some.inj stepped]
      exact ⟨⟨idle.buffer, idle.peak, idle.sent, idle.bytes⟩, (List.append_nil _).symm⟩

theorem noData_iff (stream : FullDuplexStream) (event : Event) :
    stream.NoData event ↔ (received event).filter isData = [] := by
  rw [List.filter_eq_nil_iff]
  cases event <;> simp [NoData, received]

theorem forwarded_iff (hasCloudSocket : Bool) (events : List Event)
    (ran : (run step (activate hasCloudSocket) events).isSome) :
    Throughout step Forwarded (activate hasCloudSocket) events ↔
      Guarded step NoData (activate hasCloudSocket) events := by
  have data : ∀ (stream : FullDuplexStream) event next, stream.Idle ∧ stream.dataFromEnd = [] →
      step stream event = some next →
        next.Idle ∧ next.dataFromEnd = (received event).filter isData := by
    intro stream event next kept stepped
    obtain ⟨idle, all⟩ := kept.1.step stepped
    refine ⟨idle, ?_⟩
    rw [dataFromEnd, all, List.filter_append, ← dataFromEnd, kept.2, List.nil_append]
  have gives : ∀ stream : FullDuplexStream, stream.Idle ∧ stream.dataFromEnd = [] → stream.Forwarded :=
    fun stream kept => kept.1.toCloud_iff.mpr kept.2
  refine throughout_iff_guarded_of gives ?_ ?_ ⟨⟨rfl, rfl, rfl, rfl⟩, rfl⟩ ran
  · intro stream event next kept none stepped
    obtain ⟨idle, same⟩ := data stream event next kept stepped
    exact ⟨idle, same.trans ((noData_iff stream event).mp none)⟩
  · intro stream event next kept stepped forwarded
    obtain ⟨idle, same⟩ := data stream event next kept stepped
    exact (noData_iff stream event).mpr (same.symm.trans (idle.toCloud_iff.mp forwarded))

def command (command : CybertwinCommand) : Packet :=
  CybertwinHeader.serialize { command := command.code }

theorem forwarded_commands : Throughout step Forwarded (activate true)
    [.endReceive [command .endHostStopStream, command .endHostStartStream],
      .pumpToCloud 1 false true true] :=
  (forwarded_iff true _ (by decide)).mpr (by decide)

theorem data_dropped :
    ¬ Throughout step Forwarded (activate true)
      [.endReceive [command .cybertwinHeaderData], .pumpToCloud 0 false true true] := by
  intro forwarded
  obtain ⟨stream, ran, peak, nothing, buffer, data⟩ : ∃ stream,
      run step (activate true)
        [.endReceive [command .cybertwinHeaderData], .pumpToCloud 0 false true true] =
          some stream ∧ stream.endPeak = 0 ∧ stream.toCloud = [] ∧ stream.endBuffer = [] ∧
        stream.dataFromEnd = [command .cybertwinHeaderData] := ⟨_, rfl, rfl, rfl, rfl, rfl⟩
  have packets := (forwarded _ [] stream (List.append_nil _).symm ran).packets (by omega)
  rw [nothing, buffer, data] at packets
  cases packets

theorem ouputEndBuffer_eq (stream : FullDuplexStream) (limited first second : Bool) :
    stream.ouputEndBuffer limited first second = { stream with
      toCloud := (stream.ouputEndBuffer limited first second).toCloud
      sendToCloudBytes := (stream.ouputEndBuffer limited first second).sendToCloudBytes
      endBuffer := (stream.ouputEndBuffer limited first second).endBuffer
      cloudPumps := (stream.ouputEndBuffer limited first second).cloudPumps
      sendToCloudEvent := (stream.ouputEndBuffer limited first second).sendToCloudEvent
      nextEvent := (stream.ouputEndBuffer limited first second).nextEvent } := by
  have sent : ∀ (stream : FullDuplexStream) packet accepted,
      stream.sendToCloud packet accepted =
        { stream with toCloud := (stream.sendToCloud packet accepted).toCloud } := by
    intro stream packet accepted
    unfold sendToCloud
    split <;> rfl
  unfold ouputEndBuffer
  split
  · rfl
  · split
    · rfl
    · split
      · rfl
      · split
        · rfl
        · simp only []
          split
          · rw [sent]
            rfl
          · rw [sent (stream.sendToCloud _ first), sent stream]
            rfl

/-- The packets of the cloud are with the end socket or wait for it, and only packets with bytes
wait. -/
structure Conserved (stream : FullDuplexStream) : Prop where
  packets : stream.cloudPeak ≤ 100000 → stream.toEnd ++ stream.cloudBuffer = stream.fromCloud
  fits : stream.cloudBuffer.length ≤ stream.cloudPeak
  filled : ∀ packet ∈ stream.cloudBuffer, packet.length ≠ 0

theorem stopped_receiveCommand {packet rest : Packet} {header : CybertwinHeader}
    (read : CybertwinHeader.deserialize packet = some (header, rest)) (stream : FullDuplexStream) :
    ({ stream with fromEnd := stream.fromEnd ++ [packet] }.receiveCommand header).stopped =
      if header.command = CybertwinCommand.endHostStopStream.code then true
      else if header.command = CybertwinCommand.endHostStartStream.code then false
      else stream.stopped := by
  rw [receiveCommand_eq]
  simp only [stopped, List.foldl_append, List.foldl_cons, List.foldl_nil, stops, read]

/-- While the end host has stopped the stream, its status says so, and nothing was sent to it. -/
structure Quiet (stream : FullDuplexStream) : Prop where
  status : stream.stopped = true → stream.endStatus = .endStop
  sends : ∀ send ∈ stream.endSends, send.stopped = false

structure SameToEnd (before after : FullDuplexStream) : Prop where
  buffer : after.cloudBuffer = before.cloudBuffer
  peak : after.cloudPeak = before.cloudPeak
  received : after.fromCloud = before.fromCloud
  sends : after.endSends = before.endSends

theorem SameToEnd.trans {first second third : FullDuplexStream}
    (one : SameToEnd first second) (two : SameToEnd second third) : SameToEnd first third :=
  ⟨two.buffer.trans one.buffer, two.peak.trans one.peak, two.received.trans one.received,
    two.sends.trans one.sends⟩

theorem Conserved.same {before after : FullDuplexStream} (conserved : before.Conserved)
    (same : SameToEnd before after) : after.Conserved := by
  refine ⟨?_, ?_, ?_⟩
  · rw [toEnd, same.peak, same.buffer, same.received, same.sends]
    exact conserved.packets
  · rw [same.buffer, same.peak]
    exact conserved.fits
  · rw [same.buffer]
    exact conserved.filled

theorem receiveEnd_toEnd {stream after : FullDuplexStream} {packet : Packet}
    (ran : receiveEnd stream packet = some after) :
    SameToEnd stream after ∧ (stream.Quiet → after.Quiet) := by
  obtain ⟨header, rest, read, rfl⟩ := receiveEnd_eq ran
  refine ⟨?_, fun quiet => ⟨?_, ?_⟩⟩
  · rw [receiveCommand_eq]
    exact ⟨rfl, rfl, rfl, rfl⟩
  · rw [stopped_receiveCommand read]
    unfold receiveCommand
    by_cases isStop : header.command = CybertwinCommand.endHostStopStream.code
    · rw [if_pos isStop, if_pos isStop, cancelSendToEnd_eq]
      exact fun _ => rfl
    · rw [if_neg isStop, if_neg isStop]
      by_cases isStart : header.command = CybertwinCommand.endHostStartStream.code
      · rw [if_pos isStart]
        exact fun stopped => by cases stopped
      · rw [if_neg isStart, if_neg isStart]
        exact quiet.status
  · rw [receiveCommand_eq]
    exact quiet.sends

theorem receiveEnds_toEnd {packets : List Packet} {stream after : FullDuplexStream}
    (ran : packets.foldlM receiveEnd stream = some after) :
    SameToEnd stream after ∧ (stream.Quiet → after.Quiet) := by
  induction packets generalizing stream with
  | nil =>
      cases ran
      exact ⟨⟨rfl, rfl, rfl, rfl⟩, id⟩
  | cons packet rest ih =>
      rw [List.foldlM_cons] at ran
      obtain ⟨middle, first, later⟩ := Option.bind_eq_some_iff.mp ran
      obtain ⟨same, quiet⟩ := receiveEnd_toEnd first
      obtain ⟨more, quieter⟩ := ih later
      exact ⟨same.trans more, fun before => quieter (quiet before)⟩

theorem Conserved.receiveCloud {stream after : FullDuplexStream} {packet : Packet}
    (conserved : stream.Conserved) (ran : stream.receiveCloud packet = some after) :
    after.Conserved := by
  have fits := conserved.fits
  unfold FullDuplexStream.receiveCloud at ran
  split at ran
  · cases ran
  · rename_i filled
    simp only [] at ran
    split at ran
    · rename_i crowded
      rw [← Option.some.inj ran]
      refine ⟨fun small => ?_, fits, conserved.filled⟩
      simp only [] at small crowded
      omega
    · rw [← Option.some.inj ran]
      refine ⟨fun small => ?_, ?_, ?_⟩
      · have before := conserved.packets (Nat.le_trans (Nat.le_max_left _ _) small)
        change stream.toEnd ++ (stream.cloudBuffer ++ [packet]) = stream.fromCloud ++ [packet]
        rw [← before, List.append_assoc]
      · rw [List.length_append]
        exact Nat.le_max_right _ _
      · intro other member
        rcases List.mem_append.mp member with old | new
        · exact conserved.filled other old
        · rw [List.mem_singleton.mp new]
          exact filled

theorem Conserved.receiveClouds {packets : List Packet} {stream after : FullDuplexStream}
    (conserved : stream.Conserved)
    (ran : packets.foldlM FullDuplexStream.receiveCloud stream = some after) :
    after.Conserved := by
  induction packets generalizing stream with
  | nil => exact Option.some.inj ran ▸ conserved
  | cons packet rest ih =>
      rw [List.foldlM_cons] at ran
      obtain ⟨middle, first, later⟩ := Option.bind_eq_some_iff.mp ran
      exact ih (conserved.receiveCloud first) later

theorem Conserved.pump {stream : FullDuplexStream} (conserved : stream.Conserved)
    (limited accepted : Bool) : (stream.ouputCloudBuffer limited accepted).Conserved := by
  unfold ouputCloudBuffer
  split
  · exact conserved
  · rename_i packet rest buffer
    have fits := conserved.fits
    rw [buffer, List.length_cons] at fits
    split
    · exact conserved
    · split
      · exact conserved.same ⟨rfl, rfl, rfl, rfl⟩
      · have filled := conserved.filled packet (by rw [buffer]; exact List.mem_cons_self)
        simp only []
        cases accepted with
        | false =>
            rw [if_pos (by simp [sendSize])]
            refine ⟨fun small => ?_, conserved.fits, conserved.filled⟩
            rw [← conserved.packets small]
            simp [toEnd, scheduleSendToEnd]
        | true =>
            rw [if_neg (by simp only [sendSize, if_true]; omega)]
            refine ⟨fun small => ?_, ?_, ?_⟩
            · have before := conserved.packets small
              rw [buffer] at before
              simp [toEnd, scheduleSendToEnd, ← before]
            · change rest.length ≤ stream.cloudPeak
              omega
            · intro other member
              exact conserved.filled other (by rw [buffer]; exact List.mem_cons_of_mem _ member)

theorem Quiet.pump {stream : FullDuplexStream} (quiet : stream.Quiet) (limited accepted : Bool) :
    (stream.ouputCloudBuffer limited accepted).Quiet := by
  unfold ouputCloudBuffer
  split
  · exact quiet
  · rename_i packet rest buffer
    split
    · exact quiet
    · rename_i going
      have running : stream.stopped = false := by
        rw [Bool.eq_false_iff]
        exact fun stopped => going (quiet.status stopped)
      have sends : ∀ send ∈ stream.endSends ++ [⟨packet, accepted, stream.stopped⟩],
          send.stopped = false := by
        intro send member
        rcases List.mem_append.mp member with old | new
        · exact quiet.sends send old
        · rw [List.mem_singleton.mp new]
          exact running
      split
      · exact ⟨quiet.status, quiet.sends⟩
      · simp only []
        split
        · exact ⟨quiet.status, sends⟩
        · exact ⟨quiet.status, sends⟩

theorem Conserved.step {stream next : FullDuplexStream} {event : Event}
    (conserved : stream.Conserved) (stepped : step stream event = some next) :
    next.Conserved := by
  cases event with
  | endReceive packets =>
      obtain ⟨middle, taken, stepped⟩ := Option.bind_eq_some_iff.mp stepped
      have kept := conserved.same (receiveEnds_toEnd taken).1
      rw [← Option.some.inj stepped]
      split
      · exact kept
      · exact kept.same ⟨rfl, rfl, rfl, rfl⟩
  | cloudReceive packets =>
      obtain ⟨middle, taken, stepped⟩ := Option.bind_eq_some_iff.mp stepped
      have kept := conserved.receiveClouds taken
      rw [← Option.some.inj stepped]
      split
      · exact kept
      · exact kept.same ⟨rfl, rfl, rfl, rfl⟩
  | pumpToCloud event limited first second =>
      simp only [FullDuplexStream.step] at stepped
      split at stepped
      · rw [← Option.some.inj stepped, ouputEndBuffer_eq]
        exact conserved.same ⟨rfl, rfl, rfl, rfl⟩
      · cases stepped
  | pumpToEnd event limited accepted =>
      simp only [FullDuplexStream.step] at stepped
      split at stepped
      · rw [← Option.some.inj stepped]
        have kept : Conserved { stream with endPumps := stream.endPumps.erase event } :=
          conserved.same ⟨rfl, rfl, rfl, rfl⟩
        exact kept.pump limited accepted
      · cases stepped
  | cloudResolved interfaces =>
      rw [← Option.some.inj stepped]
      unfold duplexStreamCloudConnect
      split
      · exact conserved
      · exact conserved.same ⟨rfl, rfl, rfl, rfl⟩
  | _ =>
      rw [← Option.some.inj stepped]
      exact conserved.same ⟨rfl, rfl, rfl, rfl⟩

-- The end host is there: its connection is not closed.
def EndOpen (_ : FullDuplexStream) (event : Event) : Prop :=
  event ≠ .endNormalClose ∧ event ≠ .endErrorClose

instance (stream : FullDuplexStream) (event : Event) : Decidable (stream.EndOpen event) :=
  inferInstanceAs (Decidable (_ ∧ _))

theorem Quiet.step {stream next : FullDuplexStream} {event : Event} (quiet : stream.Quiet)
    (endOpen : stream.EndOpen event) (stepped : step stream event = some next) : next.Quiet := by
  cases event with
  | endReceive packets =>
      obtain ⟨middle, taken, stepped⟩ := Option.bind_eq_some_iff.mp stepped
      have kept := (receiveEnds_toEnd taken).2 quiet
      rw [← Option.some.inj stepped]
      split
      · exact kept
      · exact ⟨kept.status, kept.sends⟩
  | cloudReceive packets =>
      obtain ⟨middle, taken, stepped⟩ := Option.bind_eq_some_iff.mp stepped
      have same := receiveClouds_eq taken
      rw [← Option.some.inj stepped]
      split
      · rw [same]
        exact ⟨quiet.status, quiet.sends⟩
      · rw [same]
        exact ⟨quiet.status, quiet.sends⟩
  | pumpToCloud event limited first second =>
      simp only [FullDuplexStream.step] at stepped
      split at stepped
      · rw [← Option.some.inj stepped, ouputEndBuffer_eq]
        exact ⟨quiet.status, quiet.sends⟩
      · cases stepped
  | pumpToEnd event limited accepted =>
      simp only [FullDuplexStream.step] at stepped
      split at stepped
      · rw [← Option.some.inj stepped]
        have kept : Quiet { stream with endPumps := stream.endPumps.erase event } :=
          ⟨quiet.status, quiet.sends⟩
        exact kept.pump limited accepted
      · cases stepped
  | cloudResolved interfaces =>
      rw [← Option.some.inj stepped]
      unfold duplexStreamCloudConnect
      split
      · exact quiet
      · exact ⟨quiet.status, quiet.sends⟩
  | endNormalClose => exact absurd rfl endOpen.1
  | endErrorClose => exact absurd rfl endOpen.2
  | _ =>
      rw [← Option.some.inj stepped]
      exact ⟨quiet.status, quiet.sends⟩

end FullDuplexStream

end FISim.Control
