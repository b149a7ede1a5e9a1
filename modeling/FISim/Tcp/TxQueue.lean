import FISim.Lib.Transition
import FISim.Tcp.TxStream

/-!
The send buffer as a queue of bytes: through every run of its operations it holds the stream that
was appended, from SND.UNA on.
-/

namespace FISim.Tcp

open SequenceNumber32 Transition

inductive Operation
  | add (p : { p : Packet // p.length < 2 ^ 32 })
  | copyFromSequence (now : Int64) (numBytes : UInt32) (seq : SequenceNumber32)
  | discardUpTo (now : Int64) (seq : SequenceNumber32)
  | update (list : List SackBlock)
  | addRenoSack
  | resetRenoSack
  | setSentListLost (resetSack : Bool)
  | resetSentList
  | resetLastSegmentSent
  | markHeadAsLost
  | deleteRetransmittedFlagFromHead
  deriving DecidableEq

namespace TcpTxBuffer

def initial (n maxBuffer dupAckThresh : UInt32) (sackEnabled : Bool) : TcpTxBuffer where
  firstByteSeq := ⟨n⟩
  maxBuffer := maxBuffer
  dupAckThresh := dupAckThresh
  sackEnabled := sackEnabled

def step (buffer : TcpTxBuffer) : Operation → Option TcpTxBuffer
  | .add p => some (buffer.add p).1
  | .copyFromSequence now numBytes seq => (buffer.copyFromSequence now numBytes seq).map Prod.fst
  | .discardUpTo now seq => buffer.discardUpTo now seq
  | .update list => (buffer.update list).map Prod.fst
  | .addRenoSack => buffer.addRenoSack
  | .resetRenoSack => some buffer.resetRenoSack
  | .setSentListLost resetSack => buffer.setSentListLost resetSack
  | .resetSentList => some buffer.resetSentList
  | .resetLastSegmentSent => some buffer.resetLastSegmentSent
  | .markHeadAsLost => some buffer.markHeadAsLost
  | .deleteRetransmittedFlagFromHead => buffer.deleteRetransmittedFlagFromHead

theorem initial_laid (n maxBuffer dupAckThresh : UInt32) (sackEnabled : Bool) :
    Laid (initial n maxBuffer dupAckThresh sackEnabled) where
  sentSize := rfl
  size := rfl
  starts := trivial
  sent := fun _ member => absurd member (List.not_mem_nil)
  app := fun _ member => absurd member (List.not_mem_nil)
  room := UInt32.zero_le

theorem step_rearranged {buffer next : TcpTxBuffer} {operation : Operation} (laid : Laid buffer)
    (stepped : buffer.step operation = some next) (notAdd : ∀ p, operation ≠ .add p)
    (notDiscard : ∀ now seq, operation ≠ .discardUpTo now seq) : Rearranged buffer next := by
  cases operation with
  | add p => exact absurd rfl (notAdd p)
  | copyFromSequence now numBytes seq =>
      obtain ⟨⟨copied, found⟩, copies, rfl⟩ := Option.map_eq_some_iff.mp stepped
      exact copyFromSequence_rearranged laid copies
  | discardUpTo now seq => exact absurd rfl (notDiscard now seq)
  | update list =>
      obtain ⟨⟨updated, bytesSacked⟩, updates, rfl⟩ := Option.map_eq_some_iff.mp stepped
      exact (update_relabelled updates).rearranged laid
  | addRenoSack => exact (addRenoSack_relabelled stepped).rearranged laid
  | resetRenoSack =>
      obtain rfl := Option.some.inj stepped
      exact (resetRenoSack_relabelled buffer).rearranged laid
  | setSentListLost resetSack => exact (setSentListLost_relabelled stepped).rearranged laid
  | resetSentList =>
      obtain rfl := Option.some.inj stepped
      exact resetSentList_rearranged laid
  | resetLastSegmentSent =>
      obtain rfl := Option.some.inj stepped
      exact resetLastSegmentSent_rearranged laid
  | markHeadAsLost =>
      obtain rfl := Option.some.inj stepped
      exact (markHeadAsLost_relabelled buffer).rearranged laid
  | deleteRetransmittedFlagFromHead =>
      exact (deleteRetransmittedFlagFromHead_relabelled stepped).rearranged laid

end TcpTxBuffer

/-- What a send buffer is for: the bytes that were appended, how many of them are acknowledged, and
the sequence number of the first one that is not.  A FIN takes a number and no byte. -/
structure SendQueue where
  una : SequenceNumber32
  appended : List UInt8 := []
  acknowledged : ℕ := 0

namespace SendQueue

def queued (queue : SendQueue) : List UInt8 := queue.appended.drop queue.acknowledged

def append (queue : SendQueue) (p : Packet) : SendQueue :=
  { queue with appended := queue.appended ++ p }

def acknowledge (queue : SendQueue) (seq : SequenceNumber32) : SendQueue :=
  if queue.una.greaterEqual seq then queue
  else
    { queue with
      una := seq
      acknowledged := min queue.appended.length
        (queue.acknowledged + (seq.minus queue.una).toUInt32.toNat) }

theorem append_queued {queue : SendQueue} (within : queue.acknowledged ≤ queue.appended.length)
    (p : Packet) : (queue.append p).queued = queue.queued ++ p :=
  List.drop_append_of_le_length within

theorem acknowledge_queued {queue : SendQueue} {seq : SequenceNumber32}
    (beyond : queue.una.greaterEqual seq = false) :
    (queue.acknowledge seq).queued =
      queue.queued.drop (seq.minus queue.una).toUInt32.toNat := by
  rw [acknowledge, beyond, if_neg Bool.false_ne_true, queued, queued, List.drop_drop]
  dsimp only
  rcases Nat.le_total queue.appended.length
    (queue.acknowledged + (seq.minus queue.una).toUInt32.toNat) with all | part
  · rw [Nat.min_eq_left all, List.drop_length, List.drop_eq_nil_of_le all]
  · rw [Nat.min_eq_right part]

end SendQueue

structure Sender where
  buffer : TcpTxBuffer
  queue : SendQueue

namespace Sender

def initial (n maxBuffer dupAckThresh : UInt32) (sackEnabled : Bool) : Sender where
  buffer := .initial n maxBuffer dupAckThresh sackEnabled
  queue := { una := ⟨n⟩ }

def step (sender : Sender) (operation : Operation) : Option Sender := do
  let buffer ← sender.buffer.step operation
  let queue := match operation with
    | .add p => if (sender.buffer.add p).2 then sender.queue.append p else sender.queue
    | .discardUpTo _ seq => sender.queue.acknowledge seq
    | _ => sender.queue
  return { buffer, queue }

/-- The buffer holds the stream from SND.UNA on, and hands it out as it is. -/
structure Carries (sender : Sender) : Prop where
  una : sender.buffer.firstByteSeq = sender.queue.una
  stream : bytes sender.buffer.sentList ++ bytes sender.buffer.appList = sender.queue.queued
  sentSize : sender.buffer.sentSize.toNat = (bytes sender.buffer.sentList).length
  size : sender.buffer.size.toNat =
    (bytes sender.buffer.sentList).length + (bytes sender.buffer.appList).length
  startSeq : ∀ before item after, sender.buffer.sentList = before ++ item :: after →
    item.startSeq = sender.buffer.firstByteSeq.plus (getSize (bytes before))
  copies : ∀ now numBytes seq next index,
    sender.buffer.copyFromSequence now numBytes seq = some (next, some index) →
      ∃ item, next.sentList[index]? = some item ∧
        TcpTxBuffer.Serves sender.queue.queued sender.queue.una seq numBytes item

structure Sound (sender : Sender) : Prop where
  laid : TcpTxBuffer.Laid sender.buffer
  una : sender.buffer.firstByteSeq = sender.queue.una
  held : sender.buffer.held = sender.queue.queued
  within : sender.queue.acknowledged ≤ sender.queue.appended.length

theorem Sound.rearranged {sender : Sender} {buffer : TcpTxBuffer} (sound : Sound sender)
    (arranged : TcpTxBuffer.Rearranged sender.buffer buffer) : Sound ⟨buffer, sender.queue⟩ :=
  ⟨arranged.laid, arranged.firstByteSeq.trans sound.una, arranged.held.trans sound.held,
    sound.within⟩

theorem Sound.step {sender next : Sender} {operation : Operation} (sound : Sound sender)
    (stepped : sender.step operation = some next) : Sound next := by
  obtain ⟨buffer, called, result⟩ := Option.bind_eq_some_iff.mp stepped
  obtain rfl := Option.some.inj result
  have laid := sound.laid
  cases operation with
  | add p =>
      obtain rfl := Option.some.inj called
      cases accepted : (sender.buffer.add p).2 with
      | true =>
          obtain ⟨grown, held, first⟩ := TcpTxBuffer.add_accepted laid p.2 accepted
          simp only [accepted, if_true]
          refine ⟨grown, first.trans sound.una, ?_, ?_⟩
          · rw [SendQueue.append_queued sound.within, ← sound.held]
            exact held
          · rw [SendQueue.append, List.length_append]
            exact Nat.le_add_right_of_le sound.within
      | false =>
          simp only [accepted, Bool.false_eq_true, if_false, TcpTxBuffer.add_refused accepted]
          exact sound
  | discardUpTo now seq =>
      cases order : sender.buffer.firstByteSeq.greaterEqual seq with
      | true =>
          rcases TcpTxBuffer.discardUpTo_cases called with ⟨-, rfl⟩ | ⟨beyond, -⟩
          · have same : sender.queue.acknowledge seq = sender.queue := by
              rw [SendQueue.acknowledge, ← sound.una, if_pos order]
            simp only [same]
            exact sound
          · rw [order] at beyond
            cases beyond
      | false =>
          obtain ⟨cut, first, -, held⟩ := TcpTxBuffer.discardUpTo_discarded laid called order
          rw [sound.una] at order held
          refine ⟨cut, ?_, ?_, ?_⟩
          · simp only [SendQueue.acknowledge, order, Bool.false_eq_true, if_false]
            exact first
          · rw [SendQueue.acknowledge_queued order, ← sound.held]
            exact held
          · simp only [SendQueue.acknowledge, order, Bool.false_eq_true, if_false]
            exact Nat.min_le_left _ _
  | _ =>
      exact sound.rearranged (TcpTxBuffer.step_rearranged laid called (fun _ => nofun)
        fun _ _ => nofun)

theorem Sound.carries {sender : Sender} (sound : Sound sender) : Carries sender where
  una := sound.una
  stream := sound.held
  sentSize := sound.laid.sentSize
  size := sound.laid.size.trans List.length_append
  startSeq := by
    intro before item after isList
    have starts := sound.laid.starts
    rw [isList, starts_append] at starts
    exact starts.2.1
  copies := by
    intro now numBytes seq next index copied
    rw [← sound.held, ← sound.una]
    exact TcpTxBuffer.copyFromSequence_serves sound.laid copied

theorem carries_throughout (n maxBuffer dupAckThresh : UInt32) (sackEnabled : Bool)
    (operations : List Operation) :
    Throughout Sender.step Carries (initial n maxBuffer dupAckThresh sackEnabled) operations := by
  rintro before after sender rfl ran
  have initially : Sound (initial n maxBuffer dupAckThresh sackEnabled) :=
    ⟨TcpTxBuffer.initial_laid n maxBuffer dupAckThresh sackEnabled, rfl, rfl, Nat.le_refl _⟩
  have sound : Sound sender :=
    Reachable.invariant (fun _ _ _ sound stepped => sound.step stepped) initially ⟨before, ran⟩
  exact sound.carries

/-- Two items that are sent again as one, and a part of it acknowledged. -/
example :
    (run step (initial 100 32768 3 true) [.add ⟨[1, 2, 3, 4, 5, 6, 7, 8], by decide⟩,
      .copyFromSequence 1 3 ⟨100⟩, .copyFromSequence 2 3 ⟨103⟩, .copyFromSequence 3 6 ⟨100⟩,
      .discardUpTo 4 ⟨104⟩]).map (fun sender =>
        (sender.buffer.sentList.map TcpTxItem.packet, sender.buffer.appList.map TcpTxItem.packet)) =
      some ([[5, 6]], [[7, 8]]) := by
  decide +kernel

end Sender

end FISim.Tcp
