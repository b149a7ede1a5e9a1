import FISim.Control.FullDuplexStream

/-!
The two pumps of a full-duplex stream: how many of their events are pending while
end packets, commands and cloud packets come in and the pumps schedule themselves.
-/

namespace FISim.Control

open Transition

namespace FullDuplexStream

structure OnePump (stream : FullDuplexStream) : Prop where
  toEnd : stream.endPumps.length ≤ 1
  toCloud : stream.cloudPumps.length ≤ 1

def hasCommand (command : CybertwinCommand) (packet : Packet) : Prop :=
  ∃ header rest, CybertwinHeader.deserialize packet = some (header, rest) ∧
    header.command = command.code

/-- In an event, and after every packet of the end host in it, each direction has one pump at most,
and the one to the end host has none once a STOP has been processed. -/
structure SinglePumps (stream : FullDuplexStream) (event : Event) : Prop where
  reached : ∀ next, step stream event = some next → OnePump next
  within : ∀ before packet after middle, received event = before ++ packet :: after →
    (before ++ [packet]).foldlM receiveEnd stream = some middle →
      OnePump middle ∧ (hasCommand .endHostStopStream packet → middle.endPumps = [])

/-- No START comes while the pump to the end host is pending. -/
def NoSecondStart (stream : FullDuplexStream) (event : Event) : Prop :=
  ∀ before packet after middle, received event = before ++ packet :: after →
    before.foldlM receiveEnd stream = some middle → hasCommand .endHostStartStream packet →
      isRunning middle.sendToEndEvent middle.endPumps = false

/-- The pending pumps are the ones whose ids were stored last. -/
structure Stored (stream : FullDuplexStream) : Prop where
  toEnd : stream.endPumps = [] ∨
    ∃ event, stream.endPumps = [event] ∧ stream.sendToEndEvent = some event
  toCloud : stream.cloudPumps = [] ∨
    ∃ event, stream.cloudPumps = [event] ∧ stream.sendToCloudEvent = some event

theorem Stored.onePump {stream : FullDuplexStream} (stored : stream.Stored) : stream.OnePump := by
  constructor
  · rcases stored.toEnd with none_ | ⟨event, one, -⟩
    · rw [none_]
      decide
    · rw [one]
      rfl
  · rcases stored.toCloud with none_ | ⟨event, one, -⟩
    · rw [none_]
      decide
    · rw [one]
      rfl

theorem not_running {stored : Option ℕ} {pumps : List ℕ}
    (tracked : pumps = [] ∨ ∃ event, pumps = [event] ∧ stored = some event)
    (idle : isRunning stored pumps = false) : pumps = [] := by
  rcases tracked with none_ | ⟨event, rfl, rfl⟩
  · exact none_
  · simp [isRunning] at idle

theorem erase_stored {stored : Option ℕ} {pumps : List ℕ} {event : ℕ}
    (tracked : pumps = [] ∨ ∃ event, pumps = [event] ∧ stored = some event)
    (pending : event ∈ pumps) : pumps.erase event = [] := by
  rcases tracked with rfl | ⟨only, rfl, -⟩
  · simp at pending
  · rw [List.mem_singleton.mp pending]
    simp

theorem Stored.scheduleSendToEnd {stream : FullDuplexStream} (stored : stream.Stored)
    (free : stream.endPumps = []) : stream.scheduleSendToEnd.Stored := by
  refine ⟨Or.inr ⟨stream.nextEvent, ?_, rfl⟩, stored.toCloud⟩
  change stream.endPumps ++ [stream.nextEvent] = _
  rw [free, List.nil_append]

theorem Stored.scheduleSendToCloud {stream : FullDuplexStream} (stored : stream.Stored)
    (free : stream.cloudPumps = []) : stream.scheduleSendToCloud.Stored := by
  refine ⟨stored.toEnd, Or.inr ⟨stream.nextEvent, ?_, rfl⟩⟩
  change stream.cloudPumps ++ [stream.nextEvent] = _
  rw [free, List.nil_append]

theorem Stored.cancelSendToEnd {stream : FullDuplexStream} (stored : stream.Stored) :
    stream.cancelSendToEnd.endPumps = [] ∧ stream.cancelSendToEnd.Stored := by
  have none_ : stream.cancelSendToEnd.endPumps = [] := by
    unfold FullDuplexStream.cancelSendToEnd
    rcases stored.toEnd with none_ | ⟨event, one, last⟩
    · split
      · rw [none_]
        rfl
      · exact none_
    · rw [one, last]
      simp [isRunning]
  refine ⟨none_, Or.inl none_, ?_⟩
  rw [cancelSendToEnd_eq]
  exact stored.toCloud

theorem receiveEnd_of_command {command : CybertwinCommand} {packet : Packet}
    (has : hasCommand command packet) (stream : FullDuplexStream) :
    ∃ after, receiveEnd stream packet = some after := by
  obtain ⟨header, rest, read, -⟩ := has
  simp only [receiveEnd, read]
  exact ⟨_, rfl⟩

theorem receiveEnd_commands {stream after : FullDuplexStream} {packet : Packet}
    (ran : receiveEnd stream packet = some after) :
    ∃ header : CybertwinHeader,
      (∀ command, hasCommand command packet ↔ header.command = command.code) ∧
      after = { stream with fromEnd := stream.fromEnd ++ [packet] }.receiveCommand header := by
  obtain ⟨⟨header, rest⟩, read, result⟩ := Option.bind_eq_some_iff.mp ran
  refine ⟨header, fun command => ⟨?_, fun same => ⟨header, rest, read, same⟩⟩,
    (Option.some.inj result).symm⟩
  rintro ⟨other, left, again, same⟩
  obtain ⟨rfl, -⟩ := Prod.mk.inj (Option.some.inj (read.symm.trans again))
  exact same

theorem Stored.receiveEnd {stream after : FullDuplexStream} {packet : Packet}
    (stored : stream.Stored) (ran : FullDuplexStream.receiveEnd stream packet = some after)
    (idle : hasCommand .endHostStartStream packet →
      isRunning stream.sendToEndEvent stream.endPumps = false) :
    after.Stored ∧ (hasCommand .endHostStopStream packet → after.endPumps = []) := by
  obtain ⟨header, commands, rfl⟩ := receiveEnd_commands ran
  rw [commands] at idle ⊢
  unfold receiveCommand
  split
  · have cancelled := @Stored.cancelSendToEnd
      { stream with fromEnd := stream.fromEnd ++ [packet], endStatus := .endStop }
      ⟨stored.toEnd, stored.toCloud⟩
    exact ⟨cancelled.2, fun _ => cancelled.1⟩
  · rename_i notStop
    refine ⟨?_, fun isStop => absurd isStop notStop⟩
    split
    · rename_i isStart
      apply Stored.scheduleSendToEnd
      · exact ⟨stored.toEnd, stored.toCloud⟩
      · exact not_running stored.toEnd (idle isStart)
    · exact ⟨stored.toEnd, stored.toCloud⟩

theorem start_idle {stream after : FullDuplexStream} {packet : Packet}
    (has : hasCommand .endHostStartStream packet)
    (ran : FullDuplexStream.receiveEnd stream packet = some after) (one : after.OnePump) :
    isRunning stream.sendToEndEvent stream.endPumps = false := by
  obtain ⟨header, commands, rfl⟩ := receiveEnd_commands ran
  have isStart := (commands _).mp has
  have notStop : header.command ≠ CybertwinCommand.endHostStopStream.code := by
    rw [isStart]
    decide
  have size := one.toEnd
  unfold receiveCommand at size
  rw [if_neg notStop, if_pos isStart] at size
  change (stream.endPumps ++ [stream.nextEvent]).length ≤ 1 at size
  rw [List.length_append, List.length_singleton] at size
  have none_ : stream.endPumps = [] := List.eq_nil_of_length_eq_zero (by omega)
  rw [none_]
  cases stream.sendToEndEvent <;> rfl

theorem foldlM_concat {packets : List Packet} {packet : Packet} {stream last : FullDuplexStream}
    (ran : (packets ++ [packet]).foldlM FullDuplexStream.receiveEnd stream = some last) :
    ∃ middle, packets.foldlM FullDuplexStream.receiveEnd stream = some middle ∧
      FullDuplexStream.receiveEnd middle packet = some last := by
  rw [List.foldlM_append] at ran
  obtain ⟨middle, before, after⟩ := Option.bind_eq_some_iff.mp ran
  refine ⟨middle, before, ?_⟩
  simpa using after

theorem Stored.receiveEnds {stream : FullDuplexStream} {packets : List Packet}
    (stored : stream.Stored)
    (idle : ∀ before packet after middle, packets = before ++ packet :: after →
      before.foldlM FullDuplexStream.receiveEnd stream = some middle →
      hasCommand .endHostStartStream packet →
        isRunning middle.sendToEndEvent middle.endPumps = false)
    (before after : List Packet) (middle : FullDuplexStream) (split : packets = before ++ after)
    (ran : before.foldlM FullDuplexStream.receiveEnd stream = some middle) : middle.Stored := by
  induction before using List.reverseRecOn generalizing after middle with
  | nil =>
      obtain rfl := Option.some.inj ran
      exact stored
  | append_singleton before packet ih =>
      obtain ⟨earlier, first, second⟩ := foldlM_concat ran
      rw [List.append_assoc, List.singleton_append] at split
      have kept := ih (packet :: after) earlier split first
      exact (kept.receiveEnd second (idle before packet after earlier split first)).1

theorem Stored.pumpToEnd {stream : FullDuplexStream} (stored : stream.Stored)
    (free : stream.endPumps = []) (limited accepted : Bool) :
    (stream.ouputCloudBuffer limited accepted).Stored := by
  unfold ouputCloudBuffer
  split
  · exact stored
  · split
    · exact stored
    · split
      · exact stored.scheduleSendToEnd free
      · simp only []
        split
        · exact Stored.scheduleSendToEnd ⟨stored.toEnd, stored.toCloud⟩ free
        · exact Stored.scheduleSendToEnd ⟨stored.toEnd, stored.toCloud⟩ free

theorem Stored.sendToCloud {stream : FullDuplexStream} (stored : stream.Stored) (packet : Packet)
    (accepted : Bool) : (stream.sendToCloud packet accepted).Stored := by
  unfold FullDuplexStream.sendToCloud
  split
  · exact ⟨stored.toEnd, stored.toCloud⟩
  · exact stored

theorem sendToCloud_cloudPumps (stream : FullDuplexStream) (packet : Packet) (accepted : Bool) :
    (stream.sendToCloud packet accepted).cloudPumps = stream.cloudPumps := by
  unfold sendToCloud
  split <;> rfl

theorem Stored.pumpToCloud {stream : FullDuplexStream} (stored : stream.Stored)
    (free : stream.cloudPumps = []) (limited first second : Bool) :
    (stream.ouputEndBuffer limited first second).Stored := by
  unfold ouputEndBuffer
  split
  · exact stored
  · split
    · exact stored
    · rename_i packet rest buffer
      split
      · exact stored
      · split
        · exact stored.scheduleSendToCloud free
        · have once := stored.sendToCloud packet first
          have free := (sendToCloud_cloudPumps stream packet first).trans free
          simp only []
          split
          · exact once.scheduleSendToCloud free
          · have twice := once.sendToCloud packet second
            have free := (sendToCloud_cloudPumps _ packet second).trans free
            exact Stored.scheduleSendToCloud ⟨twice.toEnd, twice.toCloud⟩ free

theorem Stored.step {stream next : FullDuplexStream} {event : Event} (stored : stream.Stored)
    (idle : stream.NoSecondStart event) (stepped : step stream event = some next) : next.Stored := by
  cases event with
  | endReceive packets =>
      obtain ⟨middle, taken, result⟩ := Option.bind_eq_some_iff.mp stepped
      have kept : middle.Stored :=
        stored.receiveEnds idle packets [] middle (List.append_nil _).symm taken
      rw [← Option.some.inj result]
      split
      · exact kept
      · rename_i free
        apply kept.scheduleSendToCloud
        exact not_running kept.toCloud (by simpa using free)
  | cloudReceive packets =>
      obtain ⟨middle, taken, result⟩ := Option.bind_eq_some_iff.mp stepped
      have kept : middle.Stored := by
        rw [receiveClouds_eq taken]
        exact ⟨stored.toEnd, stored.toCloud⟩
      rw [← Option.some.inj result]
      split
      · exact kept
      · rename_i free
        apply kept.scheduleSendToEnd
        exact not_running kept.toEnd (by simpa using free)
  | pumpToCloud event limited first second =>
      simp only [FullDuplexStream.step] at stepped
      split at stepped
      · rename_i pending
        have free := erase_stored stored.toCloud pending
        rw [← Option.some.inj stepped]
        have started : Stored { stream with cloudPumps := stream.cloudPumps.erase event } :=
          ⟨stored.toEnd, Or.inl free⟩
        exact started.pumpToCloud free limited first second
      · cases stepped
  | pumpToEnd event limited accepted =>
      simp only [FullDuplexStream.step] at stepped
      split at stepped
      · rename_i pending
        have free := erase_stored stored.toEnd pending
        rw [← Option.some.inj stepped]
        have started : Stored { stream with endPumps := stream.endPumps.erase event } :=
          ⟨Or.inl free, stored.toCloud⟩
        exact started.pumpToEnd free limited accepted
      · cases stepped
  | cloudResolved interfaces =>
      rw [← Option.some.inj stepped]
      unfold duplexStreamCloudConnect
      split
      · exact stored
      · exact ⟨stored.toEnd, stored.toCloud⟩
  | _ =>
      rw [← Option.some.inj stepped]
      exact ⟨stored.toEnd, stored.toCloud⟩

theorem single_iff_of_stored {stream : FullDuplexStream} (stored : stream.Stored) (event : Event) :
    stream.SinglePumps event ↔ stream.NoSecondStart event := by
  constructor
  · intro single before packet after middle split ran isStart
    obtain ⟨last, isLast⟩ := receiveEnd_of_command isStart middle
    have longer : (before ++ [packet]).foldlM receiveEnd stream = some last := by
      rw [List.foldlM_append, ran]
      simpa using isLast
    exact start_idle isStart isLast (single.within before packet after last split longer).1
  · intro idle
    refine ⟨fun next stepped => (stored.step idle stepped).onePump, ?_⟩
    intro before packet after middle split ran
    obtain ⟨earlier, first, second⟩ := foldlM_concat ran
    have kept : earlier.Stored :=
      stored.receiveEnds idle before (packet :: after) earlier split first
    obtain ⟨done, stops⟩ := kept.receiveEnd second (idle before packet after earlier split first)
    exact ⟨done.onePump, stops⟩

/-- A stream has single pumps along a run exactly if no START comes while the pump to the end host
is pending: the pump to the cloud is always scheduled where none is pending. -/
theorem singlePumps_iff (hasCloudSocket : Bool) (events : List Event) :
    Guarded step SinglePumps (activate hasCloudSocket) events ↔
      Guarded step NoSecondStart (activate hasCloudSocket) events := by
  refine guarded_iff_guarded (fun _ event stored => single_iff_of_stored stored event) ?_
    ⟨Or.inl rfl, Or.inl rfl⟩
  exact fun _ _ _ stored idle stepped => stored.step idle stepped

/-- A cloud packet schedules a pump and START another one.  STOP cancels the one stored last. -/
theorem second_start :
    (run step (activate true) [.cloudReceive [[1]], .endReceive [command .endHostStartStream]]).map
        endPumps = some [0, 1] ∧
      (run step (activate true) [.cloudReceive [[1]], .endReceive [command .endHostStartStream,
        command .endHostStopStream]]).map endPumps = some [0] ∧
      ¬ Guarded step SinglePumps (activate true)
        [.cloudReceive [[1]], .endReceive [command .endHostStartStream]] := by
  refine ⟨by decide, by decide, fun single => ?_⟩
  obtain ⟨middle, first⟩ : ∃ middle, step (activate true) (.cloudReceive [[1]]) = some middle :=
    ⟨_, rfl⟩
  obtain ⟨last, second⟩ :
      ∃ last, step middle (.endReceive [command .endHostStartStream]) = some last := by
    obtain rfl := Option.some.inj first
    exact ⟨_, rfl⟩
  have one := ((single.2 middle first).1.reached last second).toEnd
  obtain rfl := Option.some.inj first
  obtain rfl := Option.some.inj second
  revert one
  decide

end FullDuplexStream

end FISim.Control
