import FISim.Tcp.RxStream
import FISim.Tcp.RxWindow
import FISim.Tcp.TxQueue

/-!
One direction of an established TCP connection: the send buffer of one socket, the receive
buffer of the other, and all that was sent between them.  What was sent arrives at any time,
in any order and any number of times, or never.
-/

namespace FISim.Tcp

open Pieces Transition SequenceNumber32 TcpTxBuffer

/-- `place` tells where the bytes stand in what the application sent.  No function reads it. -/
structure DataSegment where
  sequenceNumber : SequenceNumber32
  packet : Packet
  place : ℕ
  deriving DecidableEq

structure Acknowledgment where
  ackNumber : SequenceNumber32
  sackList : List SackBlock
  place : ℕ
  deriving DecidableEq

structure Connection where
  txBuffer : TcpTxBuffer
  highTxMark : SequenceNumber32
  rxBuffer : TcpRxBuffer
  segments : List DataSegment := []
  acknowledgments : List Acknowledgment := []
  -- the bytes that `Send` took and those that `Recv` gave
  sent : List UInt8 := []
  delivered : List UInt8 := []

/-- Whether an operation of the send buffer only changes marks, as loss recovery does. -/
def Operation.marks : Operation → Bool
  | .add _ | .copyFromSequence _ _ _ | .discardUpTo _ _ => false
  | _ => true

namespace Connection

inductive Event
  | send (p : { p : Packet // p.length < 2 ^ 32 })
  | sendDataPacket (now : Int64) (seq : SequenceNumber32) (maxSize : UInt32)
  | mark (operation : Operation)
  | receivedData (index : ℕ)
  | recv (maxSize : UInt32)
  | sendAck (allowedSackBlocks : ℕ)
  | receivedAck (now : Int64) (index : ℕ)
  deriving DecidableEq

def initial (n txSize rxSize dupAckThresh : UInt32) (sackEnabled : Bool) : Connection where
  txBuffer := .initial n txSize dupAckThresh sackEnabled
  highTxMark := ⟨n⟩
  rxBuffer := { nextRxSeq := ⟨n⟩, maxBuffer := rxSize }

variable (c : Connection)

/-- How many bytes the send buffer has let go. -/
def acknowledged : ℕ := c.sent.length - c.txBuffer.size.toNat

/-- How many bytes the receive buffer has given or can give. -/
def inOrder : ℕ := c.delivered.length + c.rxBuffer.availBytes.toNat

/-- `OutOfRange` of an established connection. -/
def outOfRange (head tail : SequenceNumber32) : Bool :=
  tail.less c.rxBuffer.nextRxSeq || c.rxBuffer.maxRxSequence.lessEqual head

def sendDataPacket (now : Int64) (seq : SequenceNumber32) (maxSize : UInt32) :
    Option Connection := do
  let (txBuffer, found) ← c.txBuffer.copyFromSequence now maxSize seq
  let index ← found
  let outItem ← txBuffer.sentList[index]?
  let sz := getSize outItem.packet
  return { c with
    txBuffer
    highTxMark := if (seq.plus sz).less c.highTxMark then c.highTxMark else seq.plus sz
    segments := c.segments ++ [{
      sequenceNumber := seq
      packet := outItem.packet
      place := c.acknowledged + (seq.minus c.txBuffer.firstByteSeq).toUInt32.toNat }] }

def receivedData (segment : DataSegment) : Option Connection :=
  if c.outOfRange segment.sequenceNumber
      (segment.sequenceNumber.plus (getSize segment.packet)) then some c
  else do
    let (rxBuffer, _) ← c.rxBuffer.add segment.packet segment.sequenceNumber
    return { c with rxBuffer }

/-- `AddOptionSack` leaves the option out when there is nothing to list. -/
def readOptions (ack : Acknowledgment) : Option TcpTxBuffer :=
  if ack.sackList = [] then some c.txBuffer
  else (c.txBuffer.update ack.sackList).map Prod.fst

def receivedAck (now : Int64) (ack : Acknowledgment) : Option Connection :=
  if ack.ackNumber.less c.txBuffer.firstByteSeq then some c
  else if ack.ackNumber.greater c.highTxMark then some c
  else do
    let txBuffer ← c.readOptions ack
    let txBuffer ← txBuffer.discardUpTo now ack.ackNumber
    return { c with txBuffer }

def step (c : Connection) : Event → Option Connection
  | .send p =>
      let added := c.txBuffer.add p
      some { c with txBuffer := added.1, sent := if added.2 then c.sent ++ p else c.sent }
  | .sendDataPacket now seq maxSize => c.sendDataPacket now seq maxSize
  | .mark operation =>
      if operation.marks then
        (c.txBuffer.step operation).map fun txBuffer => { c with txBuffer }
      else none
  | .receivedData index => do
      let segment ← c.segments[index]?
      c.receivedData segment
  | .recv maxSize => do
      let (rxBuffer, outPacket) ← c.rxBuffer.extract maxSize
      return { c with rxBuffer, delivered := c.delivered ++ outPacket.getD [] }
  | .sendAck allowedSackBlocks =>
      some { c with acknowledgments := c.acknowledgments ++ [{
        ackNumber := c.rxBuffer.nextRxSeq
        sackList := c.rxBuffer.sackList.take allowedSackBlocks
        place := c.inOrder }] }
  | .receivedAck now index => do
      let ack ← c.acknowledgments[index]?
      c.receivedAck now ack

/-- Nothing arrives so late that its number has come into use again. -/
def Timely (c : Connection) : Event → Prop
  | .receivedData index => ∀ segment ∈ c.segments[index]?,
      c.inOrder + c.txBuffer.maxBuffer.toNat + c.rxBuffer.maxBuffer.toNat < segment.place + 2 ^ 31
  | .receivedAck _ index => ∀ ack ∈ c.acknowledgments[index]?, c.acknowledged < ack.place + 2 ^ 31
  | _ => True

instance (c : Connection) : ∀ event, Decidable (Timely c event)
  | .receivedData _ => inferInstanceAs (Decidable (∀ segment ∈ c.segments[_]?, _))
  | .receivedAck _ _ => inferInstanceAs (Decidable (∀ ack ∈ c.acknowledgments[_]?, _))
  | .send _ | .sendDataPacket _ _ _ | .mark _ | .recv _ | .sendAck _ =>
      inferInstanceAs (Decidable True)

end Connection

section Settings

/-- The size of the buffer and what is known of the FIN are left alone. -/
structure SameSettings (before after : TcpRxBuffer) : Prop where
  maxBuffer : after.maxBuffer = before.maxBuffer
  gotFin : after.gotFin = before.gotFin

namespace TcpRxBuffer

variable {buffer after : TcpRxBuffer}

theorem advance_settings {data : RxData} (moves : advance data buffer = some after) :
    SameSettings buffer after := by
  induction data generalizing buffer with
  | nil =>
      obtain rfl := Option.some.inj moves
      exact ⟨rfl, rfl⟩
  | cons i rest ih =>
      rw [advance] at moves
      split at moves
      · exact ih moves
      · split at moves
        · obtain rfl := Option.some.inj moves
          exact ⟨rfl, rfl⟩
        · obtain ⟨sackList, -, goes⟩ := Option.bind_eq_some_iff.mp moves
          have same := ih goes
          exact ⟨same.maxBuffer, same.gotFin⟩

theorem countFin_settings (buffer : TcpRxBuffer) : SameSettings buffer buffer.countFin := by
  rw [countFin]
  split <;> exact ⟨rfl, rfl⟩

theorem add_settings {p : Packet} {seq : SequenceNumber32} {answer : Bool}
    (added : buffer.add p seq = some (after, answer)) : SameSettings buffer after := by
  rw [TcpRxBuffer.add] at added
  split at added
  · obtain ⟨rfl, -⟩ := Prod.mk.inj (Option.some.inj added)
    exact ⟨rfl, rfl⟩
  · obtain ⟨inserted, inserts, same⟩ := Option.map_eq_some_iff.mp added
    obtain ⟨rfl, -⟩ := Prod.mk.inj same
    obtain ⟨fragment, -, inserts⟩ := Option.bind_eq_some_iff.mp inserts
    split at inserts
    · cases inserts
    · split at inserts
      · cases inserts
      · obtain ⟨reported, reports, inserts⟩ := Option.bind_eq_some_iff.mp inserts
        obtain ⟨moved, moves, result⟩ := Option.bind_eq_some_iff.mp inserts
        obtain rfl := Option.some.inj result
        obtain ⟨sackList, rfl⟩ := reportSack_some reports
        have same := advance_settings moves
        have counted := countFin_settings moved
        exact ⟨counted.maxBuffer.trans same.maxBuffer, counted.gotFin.trans same.gotFin⟩

theorem extractLoop_settings {fuel : ℕ} {extractSize : UInt32} {outPkt taken : Packet}
    (loops : extractLoop fuel extractSize outPkt buffer = some (after, taken)) :
    SameSettings buffer after := by
  induction fuel generalizing extractSize outPkt buffer with
  | zero => cases loops
  | succ fuel ih =>
      rw [extractLoop] at loops
      split at loops
      · obtain ⟨rfl, -⟩ := Prod.mk.inj (Option.some.inj loops)
        exact ⟨rfl, rfl⟩
      · split at loops
        · cases loops
        · split at loops
          · dsimp only at loops
            split at loops
            · have same := ih loops
              exact ⟨same.maxBuffer, same.gotFin⟩
            · obtain ⟨front, -, loops⟩ := Option.bind_eq_some_iff.mp loops
              obtain ⟨back, -, loops⟩ := Option.bind_eq_some_iff.mp loops
              have same := ih loops
              exact ⟨same.maxBuffer, same.gotFin⟩
          · cases loops

theorem extract_settings {maxSize : UInt32} {answer : Option Packet}
    (extracted : buffer.extract maxSize = some (after, answer)) : SameSettings buffer after := by
  rw [TcpRxBuffer.extract] at extracted
  dsimp only at extracted
  split at extracted
  · obtain ⟨rfl, -⟩ := Prod.mk.inj (Option.some.inj extracted)
    exact ⟨rfl, rfl⟩
  · split at extracted
    · cases extracted
    · obtain ⟨⟨left, outPkt⟩, loops, same⟩ := Option.bind_eq_some_iff.mp extracted
      obtain ⟨rfl, -⟩ := Prod.mk.inj (Option.some.inj same)
      exact extractLoop_settings loops

end TcpRxBuffer

end Settings

namespace Connection

/-- The receiver as one of a longer stream, of which it has got nothing that was not sent and little
that was not expected. -/
def Receives (start : SequenceNumber32) (c : Connection) (stream : List UInt8) : Prop :=
  ∃ received next pieces blocks,
    Inv start stream ⟨c.rxBuffer, c.delivered, received⟩ next pieces blocks ∧
      ∀ segment ∈ received, segment.2 ≤ c.sent.length ∧ segment.2 ≤
        c.delivered.length + c.txBuffer.maxBuffer.toNat + c.rxBuffer.maxBuffer.toNat

/-- The sender holds what is not acknowledged, nothing is acknowledged that was not received in
order, and what is on its way fits. -/
structure Sound (start : SequenceNumber32) (c : Connection) : Prop where
  laid : Laid c.txBuffer
  una : c.txBuffer.firstByteSeq = start.ofPlace c.acknowledged
  within : c.txBuffer.size.toNat ≤ c.sent.length
  held : c.txBuffer.held = c.sent.drop c.acknowledged
  small : c.txBuffer.maxBuffer.toNat + c.rxBuffer.maxBuffer.toNat < 2 ^ 30
  unfinished : c.rxBuffer.gotFin = false
  order : c.acknowledged ≤ c.inOrder
  segments : ∀ segment ∈ c.segments, segment.sequenceNumber = start.ofPlace segment.place ∧
    IsPiece c.sent segment.packet segment.place
  acknowledgments : ∀ ack ∈ c.acknowledgments,
    ack.ackNumber = start.ofPlace ack.place ∧ ack.place ≤ c.inOrder
  receives : ∀ stream, c.sent <+: stream → Receives start c stream

section Received

variable {start : SequenceNumber32} {stream : List UInt8} {receiver reached : Receiver}
  {next next' : ℕ} {pieces pieces' : List Piece} {blocks blocks' : List (ℕ × ℕ)}

theorem inOrder_eq {c : Connection} {received : List (ℕ × ℕ)}
    (inv : Inv start stream ⟨c.rxBuffer, c.delivered, received⟩ next pieces blocks) :
    c.inOrder = next := by
  have order : c.delivered.length ≤ next := inv.held.order
  have avail : c.rxBuffer.availBytes.toNat = next - c.delivered.length := inv.held.avail
  rw [inOrder]
  omega

open scoped UInt32.CommRing in
theorem plus_minus (seq other : SequenceNumber32) : other.plus (seq.minus other).toUInt32 = seq := by
  rw [plus, minus_toUInt32, add_sub_cancel]

theorem next_mono (inv : Inv start stream receiver next pieces blocks)
    (inv' : Inv start stream reached next' pieces' blocks')
    (known : ∀ place, Received receiver.received place → Received reached.received place) :
    next ≤ next' := by
  by_contra behind
  have before := known next' ((inv.known next').mpr (inv.known_before (by omega)))
  rcases (inv'.known next').mp before with out | stored
  · have order := inv'.held.order
    omega
  · exact inv'.isOpen stored

theorem extract_length (inv : Inv start stream receiver next pieces blocks) {maxSize : UInt32}
    {buffer : TcpRxBuffer} {outPkt : Option Packet}
    (taken : receiver.buffer.extract maxSize = some (buffer, outPkt)) :
    (outPkt.getD []).length = (min maxSize receiver.buffer.availBytes).toNat := by
  have order := inv.held.order
  have avail := inv.held.avail
  have inside := inv.held.next_le inv.extracted.length_le
  have near := inv.nextPlace_near
  rw [inv.nextPlace_eq] at near
  have most := extractSize_le maxSize receiver.buffer.availBytes
  rw [TcpRxBuffer.extract] at taken
  split at taken
  · rename_i nothing
    obtain ⟨-, rfl⟩ := Prod.mk.inj (Option.some.inj taken)
    rw [nothing]
    rfl
  · rename_i someBytes
    split at taken
    · cases taken
    · obtain ⟨left, buffer', loops, -⟩ :=
        TcpRxBuffer.extractLoop_spec (receiver.buffer.data.length + 2) inv.held
          (min maxSize receiver.buffer.availBytes) [] inv.expects (le_counted _ _ _) near (by omega)
          (by rw [inv.held.data, numbered, List.length_map]; omega)
      have length : (([] : Packet) ++ (stream.drop receiver.extracted.length).take
          (min maxSize receiver.buffer.availBytes).toNat).length =
            (min maxSize receiver.buffer.availBytes).toNat := by
        rw [List.nil_append, List.length_take, List.length_drop]
        omega
      rw [loops, Option.bind_eq_bind, Option.bind_some] at taken
      obtain ⟨-, rfl⟩ := Prod.mk.inj (Option.some.inj taken)
      split
      · rename_i zero
        have size := getSize_toNat (length.trans_lt (UInt32.toNat_lt _))
        rw [zero, length] at size
        exact absurd (UInt32.toNat_inj.mp size.symm) someBytes
      · exact length

end Received

variable {start : SequenceNumber32} {c : Connection}

namespace Sound

variable (sound : Sound start c)
include sound

theorem sent_length : c.sent.length = c.acknowledged + c.txBuffer.size.toNat := by
  have within := sound.within
  rw [acknowledged]
  omega

theorem sent_length_le : c.sent.length ≤ c.acknowledged + c.txBuffer.maxBuffer.toNat := by
  have room := UInt32.le_iff_toNat_le.mp sound.laid.room
  have length := sound.sent_length
  omega

theorem inOrder_le : c.inOrder ≤ c.sent.length ∧
    c.inOrder ≤ c.delivered.length + c.txBuffer.maxBuffer.toNat + c.rxBuffer.maxBuffer.toNat := by
  obtain ⟨received, next, pieces, blocks, inv, bounds⟩ := sound.receives c.sent (List.prefix_refl _)
  have order : c.delivered.length ≤ next := inv.held.order
  rw [inOrder_eq inv]
  by_cases empty : next = c.delivered.length
  · have inside := inv.extracted.length_le
    rw [empty]
    exact ⟨inside, by omega⟩
  · obtain ⟨segment, member, -, before⟩ :=
      (inv.known (next - 1)).mpr (inv.known_before (by omega))
    obtain ⟨first, second⟩ := bounds segment member
    omega

theorem first_le {stream : List UInt8} {received : List (ℕ × ℕ)} {next : ℕ} {first : Piece}
    {rest : List Piece} {blocks : List (ℕ × ℕ)}
    (inv : Inv start stream ⟨c.rxBuffer, c.delivered, received⟩ next (first :: rest) blocks)
    (bounds : ∀ segment ∈ received, segment.2 ≤ c.sent.length) :
    first.2 ≤ c.delivered.length + c.txBuffer.maxBuffer.toNat := by
  have most := sound.sent_length_le
  have acked := sound.order
  rw [inOrder_eq inv] at acked
  have order : c.delivered.length ≤ next := inv.held.order
  by_cases empty : next = c.delivered.length
  · have filled := (inv.held.chained.mem List.mem_cons_self).2
    obtain ⟨segment, member, -, before⟩ := (inv.known first.2).mpr
      (Or.inr ⟨first, List.mem_cons_self, Nat.le_refl _, by rw [finish]; omega⟩)
    have bound := bounds segment member
    omega
  · obtain ⟨other, others, same, here⟩ := inv.held.first (lt_of_le_of_ne order (Ne.symm empty))
    obtain ⟨rfl, -⟩ := List.cons.inj same
    change first.2 = c.delivered.length at here
    omega

theorem windowEnd_near {stream : List UInt8} {received : List (ℕ × ℕ)} {next stop : ℕ}
    {pieces : List Piece} {blocks : List (ℕ × ℕ)}
    (inv : Inv start stream ⟨c.rxBuffer, c.delivered, received⟩ next pieces blocks)
    (bounds : ∀ segment ∈ received, segment.2 ≤ c.sent.length) (sent : stop ≤ c.sent.length) :
    (∀ limit ∈ Receiver.windowEnd start ⟨c.rxBuffer, c.delivered, received⟩,
      c.delivered.length + c.rxBuffer.maxBuffer.toNat ≤ limit ∧
        limit ≤ c.delivered.length + c.txBuffer.maxBuffer.toNat + c.rxBuffer.maxBuffer.toNat) ∧
      Receiver.trimmedEnd start ⟨c.rxBuffer, c.delivered, received⟩ stop ≤ stop ∧
      Receiver.trimmedEnd start ⟨c.rxBuffer, c.delivered, received⟩ stop ≤
        c.delivered.length + c.txBuffer.maxBuffer.toNat + c.rxBuffer.maxBuffer.toNat := by
  cases pieces with
  | nil =>
      have ends : Receiver.windowEnd start ⟨c.rxBuffer, c.delivered, received⟩ = none := by
        rw [Receiver.windowEnd, inv.held.data]
        rfl
      have order : c.delivered.length ≤ next := inv.held.order
      have empty : next = c.delivered.length := by
        by_contra more
        obtain ⟨first, rest, same, -⟩ := inv.held.first (lt_of_le_of_ne order (Ne.symm more))
        cases same
      have most := sound.sent_length_le
      have acked := sound.order
      rw [inOrder_eq inv] at acked
      rw [Receiver.trimmedEnd, ends]
      refine ⟨?_, Nat.le_refl _, ?_⟩
      · intro limit isLimit
        cases isLimit
      · change stop ≤ _
        omega
  | cons first rest =>
      have lower : c.delivered.length ≤ first.2 :=
        (inv.held.chained.mem List.mem_cons_self).1
      have upper := sound.first_le inv bounds
      have ends : Receiver.windowEnd start ⟨c.rxBuffer, c.delivered, received⟩ =
          some (first.2 + c.rxBuffer.maxBuffer.toNat) := inv.windowEnd_eq
      rw [Receiver.trimmedEnd, ends]
      refine ⟨fun limit isLimit => ?_, Nat.min_le_left _ _, (Nat.min_le_right _ _).trans (by omega)⟩
      obtain rfl := Option.some.inj isLimit
      omega

theorem adds {segment : DataSegment}
    (number : segment.sequenceNumber = start.ofPlace segment.place)
    (piece : IsPiece c.sent segment.packet segment.place)
    (timely : c.inOrder + c.txBuffer.maxBuffer.toNat + c.rxBuffer.maxBuffer.toNat <
      segment.place + 2 ^ 31) {stream : List UInt8} (longer : c.sent <+: stream) :
    ∃ rxBuffer answer, c.rxBuffer.add segment.packet segment.sequenceNumber =
      some (rxBuffer, answer) ∧ c.inOrder ≤ inOrder { c with rxBuffer } ∧
        Receives start { c with rxBuffer } stream := by
  obtain ⟨received, next, pieces, blocks, inv, bounds⟩ := sound.receives stream longer
  have known := piece.of_prefix longer
  have small := sound.small
  have most := sound.sent_length_le
  have acked := sound.order
  obtain ⟨-, inOrderNear⟩ := sound.inOrder_le
  have handed : c.delivered.length ≤ c.inOrder := Nat.le_add_right _ _
  have inside := piece.inside
  obtain ⟨window, whole, trimmed⟩ := sound.windowEnd_near inv (fun other member =>
    (bounds other member).1) inside
  have nextPlace : Receiver.nextPlace stream ⟨c.rxBuffer, c.delivered, received⟩ = c.inOrder := by
    rw [inv.nextPlace_eq, counted, if_neg (by simp [sound.unfinished]), inOrder_eq inv]
  have reach : InReach stream ⟨c.rxBuffer, c.delivered, received⟩
      (.add segment.place segment.packet.length) := by
    rw [InReach, nextPlace]
    exact ⟨known.inside, by omega, by omega, by omega⟩
  have judged : Judged start stream ⟨c.rxBuffer, c.delivered, received⟩
      (.add segment.place segment.packet.length) := by
    refine ⟨fun limit isLimit => ?_, ?_⟩
    · obtain ⟨lower, upper⟩ := window limit isLimit
      omega
    · rw [counted]
      split
      · change _ < c.delivered.length + 2 ^ 31
        omega
      · change _ < c.delivered.length + 2 ^ 31
        omega
  obtain ⟨reached, next', pieces', blocks', stepped, inv', -⟩ := step_add inv reach judged
  obtain ⟨⟨rxBuffer, answer⟩, added, result⟩ := Option.bind_eq_some_iff.mp stepped
  obtain rfl := Option.some.inj result
  rw [known.holds, ← number] at added
  refine ⟨rxBuffer, answer, added, ?_, _, next', pieces', blocks', inv', ?_⟩
  · have isNext : inOrder { c with rxBuffer } = next' := inOrder_eq inv'
    rw [isNext, inOrder_eq inv]
    exact next_mono inv inv' fun place before => (received_cons _ _ _).mpr (Or.inr before)
  · intro other member
    simp only [(TcpRxBuffer.add_settings added).maxBuffer]
    rcases List.mem_cons.mp member with rfl | earlier
    · exact ⟨whole.trans inside, trimmed⟩
    · exact bounds other earlier

theorem receivedData {segment : DataSegment} (member : segment ∈ c.segments)
    (timely : c.inOrder + c.txBuffer.maxBuffer.toNat + c.rxBuffer.maxBuffer.toNat <
      segment.place + 2 ^ 31) :
    ∃ after, c.receivedData segment = some after ∧ Sound start after := by
  obtain ⟨number, piece⟩ := sound.segments segment member
  rw [Connection.receivedData]
  split
  · exact ⟨c, rfl, sound⟩
  · obtain ⟨rxBuffer, answer, added, more, -⟩ :=
      sound.adds number piece timely (List.prefix_refl _)
    have same := TcpRxBuffer.add_settings added
    refine ⟨{ c with rxBuffer }, by rw [added]; rfl, ?_⟩
    constructor
    · exact sound.laid
    · exact sound.una
    · exact sound.within
    · exact sound.held
    · simpa only [same.maxBuffer] using sound.small
    · exact same.gotFin.trans sound.unfinished
    · exact sound.order.trans more
    · exact sound.segments
    · intro ack waiting
      exact ⟨(sound.acknowledgments ack waiting).1, (sound.acknowledgments ack waiting).2.trans more⟩
    · intro stream longer
      obtain ⟨other, _, again, -, receives⟩ := sound.adds number piece timely longer
      obtain ⟨rfl, -⟩ := Prod.mk.inj (Option.some.inj (again.symm.trans added))
      exact receives

theorem extracts (maxSize : UInt32) {stream : List UInt8} (longer : c.sent <+: stream) :
    ∃ rxBuffer outPacket, c.rxBuffer.extract maxSize = some (rxBuffer, outPacket) ∧
      inOrder { c with rxBuffer, delivered := c.delivered ++ outPacket.getD [] } = c.inOrder ∧
      Receives start { c with rxBuffer, delivered := c.delivered ++ outPacket.getD [] } stream := by
  obtain ⟨received, next, pieces, blocks, inv, bounds⟩ := sound.receives stream longer
  obtain ⟨reached, pieces', stepped, inv'⟩ := step_extract inv maxSize
  obtain ⟨⟨rxBuffer, outPacket⟩, taken, result⟩ := Option.bind_eq_some_iff.mp stepped
  obtain rfl := Option.some.inj result
  refine ⟨rxBuffer, outPacket, taken, ?_, received, next, pieces', blocks, inv', ?_⟩
  · exact (inOrder_eq inv').trans (inOrder_eq inv).symm
  · intro segment member
    obtain ⟨inside, near⟩ := bounds segment member
    simp only [(TcpRxBuffer.extract_settings taken).maxBuffer, List.length_append]
    exact ⟨inside, by omega⟩

theorem recv (maxSize : UInt32) :
    ∃ after, c.step (.recv maxSize) = some after ∧ Sound start after := by
  obtain ⟨rxBuffer, outPacket, taken, more, -⟩ := sound.extracts maxSize (List.prefix_refl _)
  have same := TcpRxBuffer.extract_settings taken
  refine ⟨{ c with rxBuffer, delivered := c.delivered ++ outPacket.getD [] }, ?_, ?_⟩
  · rw [Connection.step, taken]
    rfl
  · constructor
    · exact sound.laid
    · exact sound.una
    · exact sound.within
    · exact sound.held
    · simpa only [same.maxBuffer] using sound.small
    · exact same.gotFin.trans sound.unfinished
    · exact sound.order.trans_eq more.symm
    · exact sound.segments
    · intro ack waiting
      exact ⟨(sound.acknowledgments ack waiting).1,
        (sound.acknowledgments ack waiting).2.trans_eq more.symm⟩
    · intro stream longer
      obtain ⟨other, _, again, -, receives⟩ := sound.extracts maxSize longer
      obtain ⟨rfl, rfl⟩ := Prod.mk.inj (Option.some.inj (again.symm.trans taken))
      exact receives

theorem rearranged {txBuffer : TcpTxBuffer} (arranged : Rearranged c.txBuffer txBuffer) :
    Sound start { c with txBuffer } := by
  have same : acknowledged { c with txBuffer } = c.acknowledged := by
    rw [acknowledged, acknowledged]
    simp only [arranged.size]
  constructor
  · exact arranged.laid
  · rw [same]
    exact arranged.firstByteSeq.trans sound.una
  · simpa only [arranged.size] using sound.within
  · rw [same]
    exact arranged.held.trans sound.held
  · simpa only [arranged.maxBuffer] using sound.small
  · exact sound.unfinished
  · rw [same]
    exact sound.order
  · exact sound.segments
  · exact sound.acknowledgments
  · intro stream longer
    obtain ⟨received, next, pieces, blocks, inv, bounds⟩ := sound.receives stream longer
    exact ⟨received, next, pieces, blocks, inv, by simpa only [arranged.maxBuffer] using bounds⟩

theorem send {p : Packet} (short : p.length < 2 ^ 32) (accepted : (c.txBuffer.add p).2 = true) :
    Sound start { c with txBuffer := (c.txBuffer.add p).1, sent := c.sent ++ p } := by
  obtain ⟨laid, held, first⟩ := add_accepted sound.laid short accepted
  have within := sound.within
  have size : (c.txBuffer.add p).1.size.toNat = c.txBuffer.size.toNat + p.length := by
    rw [laid.size, held, List.length_append, sound.laid.size]
  have settings : (c.txBuffer.add p).1.maxBuffer = c.txBuffer.maxBuffer := by
    rw [TcpTxBuffer.add]
    split
    · split <;> rfl
    · rfl
  have same : acknowledged { c with txBuffer := (c.txBuffer.add p).1, sent := c.sent ++ p } =
      c.acknowledged := by
    rw [acknowledged, acknowledged]
    simp only [size, List.length_append]
    omega
  constructor
  · exact laid
  · rw [same]
    exact first.trans sound.una
  · simp only [size, List.length_append]
    omega
  · rw [same]
    change (c.txBuffer.add p).1.held = (c.sent ++ p).drop c.acknowledged
    rw [held, sound.held, List.drop_append_of_le_length (show c.acknowledged ≤ c.sent.length from
      Nat.sub_le _ _)]
  · simpa only [settings] using sound.small
  · exact sound.unfinished
  · rw [same]
    exact sound.order
  · intro segment member
    obtain ⟨number, piece⟩ := sound.segments segment member
    exact ⟨number, piece.of_prefix (List.prefix_append _ _)⟩
  · exact sound.acknowledgments
  · intro stream longer
    obtain ⟨received, next, pieces, blocks, inv, bounds⟩ :=
      sound.receives stream ((List.prefix_append _ _).trans longer)
    refine ⟨received, next, pieces, blocks, inv, fun segment member => ?_⟩
    obtain ⟨inside, near⟩ := bounds segment member
    simp only [settings, List.length_append]
    exact ⟨by omega, near⟩

theorem sendDataPacket {now : Int64} {seq : SequenceNumber32} {maxSize : UInt32} {after : Connection}
    (sends : c.sendDataPacket now seq maxSize = some after) : Sound start after := by
  obtain ⟨⟨txBuffer, found⟩, copied, sends⟩ := Option.bind_eq_some_iff.mp sends
  obtain ⟨index, isFound, sends⟩ := Option.bind_eq_some_iff.mp sends
  obtain ⟨outItem, isItem, result⟩ := Option.bind_eq_some_iff.mp sends
  obtain rfl := Option.some.inj result
  obtain rfl : found = some index := isFound
  obtain ⟨item, isCopy, serves⟩ := copyFromSequence_serves sound.laid copied
  obtain rfl := Option.some.inj (isCopy.symm.trans isItem)
  have kept := sound.rearranged (copyFromSequence_rearranged sound.laid copied)
  refine ⟨kept.laid, kept.una, kept.within, kept.held, kept.small, kept.unfinished, kept.order, ?_,
    kept.acknowledgments, kept.receives⟩
  intro segment member
  rcases List.mem_append.mp member with earlier | new
  · exact sound.segments segment earlier
  · obtain rfl := List.mem_singleton.mp new
    have packet := serves.packet
    rw [sound.held, List.drop_drop] at packet
    have length := congrArg List.length packet
    have positive := serves.positive
    rw [List.length_take, List.length_drop] at length
    refine ⟨?_, ⟨?_, packet.symm⟩⟩
    · rw [← ofPlace_plus, ← sound.una, plus_minus]
    · change c.acknowledged + (seq.minus c.txBuffer.firstByteSeq).toUInt32.toNat +
        item.packet.length ≤ c.sent.length
      omega

theorem sendAck (allowedSackBlocks : ℕ) :
    Sound start { c with acknowledgments := c.acknowledgments ++ [{
      ackNumber := c.rxBuffer.nextRxSeq
      sackList := c.rxBuffer.sackList.take allowedSackBlocks
      place := c.inOrder }] } := by
  refine ⟨sound.laid, sound.una, sound.within, sound.held, sound.small, sound.unfinished, sound.order,
    sound.segments, ?_, sound.receives⟩
  intro ack member
  rcases List.mem_append.mp member with earlier | new
  · exact sound.acknowledgments ack earlier
  · obtain rfl := List.mem_singleton.mp new
    refine ⟨?_, Nat.le_refl _⟩
    obtain ⟨received, next, pieces, blocks, inv, -⟩ := sound.receives c.sent (List.prefix_refl _)
    have expects := inv.expects
    rw [counted, if_neg (by simp [sound.unfinished])] at expects
    rw [inOrder_eq inv]
    exact expects

theorem discards {now : Int64} {place : ℕ} {txBuffer : TcpTxBuffer}
    (low : c.acknowledged < place) (high : place ≤ c.inOrder)
    (discarded : c.txBuffer.discardUpTo now (start.ofPlace place) = some txBuffer) :
    Sound start { c with txBuffer } := by
  have within := sound.within
  have small := sound.small
  have most := sound.sent_length_le
  have length := sound.sent_length
  obtain ⟨sent, -⟩ := sound.inOrder_le
  have beyond : c.txBuffer.firstByteSeq.greaterEqual (start.ofPlace place) = false := by
    rw [← Bool.not_eq_true, sound.una, ofPlace_greaterEqual start (by omega) (by omega)]
    omega
  obtain ⟨laid, first, settings, held⟩ := discardUpTo_discarded sound.laid discarded beyond
  rw [sound.una, ofPlace_minus start low.le (by omega), sound.held, List.drop_drop,
    Nat.add_sub_cancel' low.le] at held
  have size : txBuffer.size.toNat = c.sent.length - place := by
    rw [laid.size, held, List.length_drop]
  have same : acknowledged { c with txBuffer } = place := by
    rw [acknowledged]
    simp only [size]
    omega
  constructor
  · exact laid
  · rw [same]
    exact first
  · simp only [size]
    omega
  · rw [same]
    exact held
  · simpa only [settings] using small
  · exact sound.unfinished
  · rw [same]
    exact high
  · exact sound.segments
  · exact sound.acknowledgments
  · intro stream longer
    obtain ⟨received, next, pieces, blocks, inv, bounds⟩ := sound.receives stream longer
    exact ⟨received, next, pieces, blocks, inv, by simpa only [settings] using bounds⟩

theorem receivedAck {now : Int64} {ack : Acknowledgment} {after : Connection}
    (member : ack ∈ c.acknowledgments) (timely : c.acknowledged < ack.place + 2 ^ 31)
    (received : c.receivedAck now ack = some after) : Sound start after := by
  obtain ⟨number, inside⟩ := sound.acknowledgments ack member
  have small := sound.small
  have most := sound.sent_length_le
  obtain ⟨sent, -⟩ := sound.inOrder_le
  rw [Connection.receivedAck] at received
  split at received
  · obtain rfl := Option.some.inj received
    exact sound
  · rename_i notOld
    split at received
    · obtain rfl := Option.some.inj received
      exact sound
    · obtain ⟨marked, marks, received⟩ := Option.bind_eq_some_iff.mp received
      obtain ⟨txBuffer, discarded, result⟩ := Option.bind_eq_some_iff.mp received
      obtain rfl := Option.some.inj result
      have arranged : Rearranged c.txBuffer marked := by
        rw [readOptions] at marks
        split at marks
        · obtain rfl := Option.some.inj marks
          exact Rearranged.refl sound.laid
        · obtain ⟨⟨updated, bytesSacked⟩, updates, rfl⟩ := Option.map_eq_some_iff.mp marks
          exact (update_relabelled updates).rearranged sound.laid
      have kept := sound.rearranged arranged
      have same : acknowledged { c with txBuffer := marked } = c.acknowledged := by
        rw [acknowledged, acknowledged]
        simp only [arranged.size]
      rw [number, sound.una, ofPlace_less start (by omega) (by omega)] at notOld
      rw [number] at discarded
      rcases Nat.lt_or_ge c.acknowledged ack.place with more | stays
      · exact kept.discards (same.trans_lt more) inside discarded
      · have still : ack.place = c.acknowledged := by omega
        rcases discardUpTo_cases discarded with ⟨-, rfl⟩ | ⟨beyond, -⟩
        · exact kept
        · rw [arranged.firstByteSeq, sound.una, still, ← Bool.not_eq_true,
            ofPlace_greaterEqual start (by omega) (by omega)] at beyond
          omega

theorem step {event : Event} {after : Connection} (timely : Timely c event)
    (stepped : c.step event = some after) : Sound start after := by
  cases event with
  | send p =>
      rw [Connection.step] at stepped
      obtain rfl := Option.some.inj stepped
      cases accepted : (c.txBuffer.add p).2 with
      | true =>
          simp only [if_true]
          exact sound.send p.2 accepted
      | false =>
          simp only [Bool.false_eq_true, if_false, add_refused accepted]
          exact sound
  | sendDataPacket now seq maxSize => exact sound.sendDataPacket stepped
  | mark operation =>
      rw [Connection.step] at stepped
      split at stepped
      · rename_i marks
        obtain ⟨txBuffer, called, rfl⟩ := Option.map_eq_some_iff.mp stepped
        refine sound.rearranged (step_rearranged sound.laid called ?_ ?_)
        · rintro p rfl
          cases marks
        · rintro now seq rfl
          cases marks
      · cases stepped
  | receivedData index =>
      obtain ⟨segment, isSegment, received⟩ := Option.bind_eq_some_iff.mp stepped
      obtain ⟨other, again, kept⟩ :=
        sound.receivedData (List.mem_of_getElem? isSegment) (timely segment isSegment)
      obtain rfl := Option.some.inj (received.symm.trans again)
      exact kept
  | recv maxSize =>
      obtain ⟨other, again, kept⟩ := sound.recv maxSize
      obtain rfl := Option.some.inj (stepped.symm.trans again)
      exact kept
  | sendAck allowedSackBlocks =>
      obtain rfl := Option.some.inj stepped
      exact sound.sendAck allowedSackBlocks
  | receivedAck now index =>
      obtain ⟨ack, isAck, received⟩ := Option.bind_eq_some_iff.mp stepped
      exact sound.receivedAck (List.mem_of_getElem? isAck) (timely ack isAck) received

theorem delivers (maxSize : UInt32) :
    ∃ after, c.step (.recv maxSize) = some after ∧ after.delivered =
      c.sent.take (c.delivered.length + (min maxSize c.rxBuffer.availBytes).toNat) := by
  obtain ⟨received, next, pieces, blocks, inv, -⟩ := sound.receives c.sent (List.prefix_refl _)
  obtain ⟨after, stepped, kept⟩ := sound.recv maxSize
  obtain ⟨⟨rxBuffer, outPacket⟩, taken, result⟩ := Option.bind_eq_some_iff.mp stepped
  obtain rfl := Option.some.inj result
  refine ⟨_, stepped, ?_⟩
  obtain ⟨_, _, _, _, inv', -⟩ := kept.receives c.sent (List.prefix_refl _)
  have prefixed : c.delivered ++ outPacket.getD [] <+: c.sent := inv'.extracted
  have length : (outPacket.getD []).length = (min maxSize c.rxBuffer.availBytes).toNat :=
    extract_length inv taken
  rw [← length, ← List.length_append]
  exact List.prefix_iff_eq_take.mp prefixed

end Sound

theorem sound_initial {n txSize rxSize dupAckThresh : UInt32} {sackEnabled : Bool}
    (small : txSize.toNat + rxSize.toNat < 2 ^ 30) :
    Sound ⟨n⟩ (initial n txSize rxSize dupAckThresh sackEnabled) where
  laid := initial_laid n txSize dupAckThresh sackEnabled
  una := (ofPlace_zero ⟨n⟩).symm
  within := Nat.le_refl 0
  held := rfl
  small := small
  unfinished := rfl
  order := Nat.le_refl 0
  segments := fun _ member => absurd member List.not_mem_nil
  acknowledgments := fun _ member => absurd member List.not_mem_nil
  receives := fun _ _ => ⟨[], 0, [], [], inv_initial rxSize, fun _ member =>
    absurd member List.not_mem_nil⟩

/-- Whatever is lost, repeated or late, the receiver hands out the bytes that were sent, in order and
once, and the sender holds those that it may still have to send. -/
theorem transfers (n txSize rxSize dupAckThresh : UInt32) (sackEnabled : Bool)
    (small : txSize.toNat + rxSize.toNat < 2 ^ 30) {events : List Event}
    (timely : Guarded step Timely (initial n txSize rxSize dupAckThresh sackEnabled) events)
    {c : Connection}
    (ran : run step (initial n txSize rxSize dupAckThresh sackEnabled) events = some c) :
    c.delivered <+: c.sent ∧
    c.acknowledged ≤ c.inOrder ∧ c.inOrder ≤ c.sent.length ∧
    c.txBuffer.held = c.sent.drop c.acknowledged ∧
    (∀ index < c.segments.length, Timely c (.receivedData index) →
      (c.step (.receivedData index)).isSome) ∧
    ∀ maxSize, ∃ after, c.step (.recv maxSize) = some after ∧ after.delivered =
      c.sent.take (c.delivered.length + (min maxSize c.rxBuffer.availBytes).toNat) := by
  have sound : Sound ⟨n⟩ c := run_invariant (fun _ _ _ sound timely stepped =>
    sound.step timely stepped) (sound_initial small) timely ran
  obtain ⟨received, next, pieces, blocks, inv, -⟩ := sound.receives c.sent (List.prefix_refl _)
  refine ⟨inv.extracted, sound.order, sound.inOrder_le.1, sound.held, ?_, sound.delivers⟩
  intro index bound timely
  have isSegment := List.getElem?_eq_getElem bound
  obtain ⟨after, received, -⟩ :=
    sound.receivedData (List.getElem_mem bound) (timely _ isSegment)
  rw [step, isSegment]
  exact Option.isSome_of_eq_some received

/-- The first segment is lost and sent again, the second is acknowledged by a SACK block, and the
first one comes in the end too. -/
def lossy : List Event :=
  [.send ⟨[1, 2, 3, 4, 5, 6, 7, 8], by decide⟩, .sendDataPacket 1 ⟨4294967294⟩ 3,
    .sendDataPacket 2 ⟨1⟩ 3, .sendDataPacket 3 ⟨4⟩ 2, .receivedData 1, .sendAck 4, .receivedData 2,
    .receivedAck 4 0, .mark (.setSentListLost false), .sendDataPacket 5 ⟨4294967294⟩ 3,
    .receivedData 3, .receivedData 0, .recv 5, .sendAck 4, .receivedAck 6 1]

theorem transfers_lossy : ∃ c, run step (initial 4294967294 100 100 3 true) lossy = some c ∧
    c.delivered <+: c.sent ∧
    c.acknowledged ≤ c.inOrder ∧ c.inOrder ≤ c.sent.length ∧
    c.txBuffer.held = c.sent.drop c.acknowledged ∧
    (∀ index < c.segments.length, Timely c (.receivedData index) →
      (c.step (.receivedData index)).isSome) ∧
    ∀ maxSize, ∃ after, c.step (.recv maxSize) = some after ∧ after.delivered =
      c.sent.take (c.delivered.length + (min maxSize c.rxBuffer.availBytes).toNat) := by
  have goes : (run step (initial 4294967294 100 100 3 true) lossy).isSome := by decide +kernel
  obtain ⟨c, ran⟩ := Option.isSome_iff_exists.mp goes
  exact ⟨c, ran, transfers 4294967294 100 100 3 true (by decide) (by decide +kernel) ran⟩

end Connection

end FISim.Tcp
