import FISim.Buffers.Joining
import FISim.Buffers.Reading
import FISim.Lib.Transition

/-!
What a client does with an iterator over the bytes that it has added to a buffer,
on the buffers themselves and on byte strings.  A byte that was never written is
not known to the strings.
-/

namespace FISim.Buffers

open Cells Transition

abbrev ByteString := List (Option UInt8)

inductive Writer
  | writeU8 (data : UInt8)
  | writeU8s (data : UInt8) (len : UInt32)
  | writeHtonU16 (data : UInt16)
  | writeHtonU32 (data : UInt32)
  | write (buffer : List UInt8)
  deriving DecidableEq, Repr

inductive Command
  | next (delta : UInt32)
  | prev (delta : UInt32)
  | write (writer : Writer)
  | writeRange (other : ℕ) (start length : UInt32)
  deriving DecidableEq, Repr

namespace Writer

def run : Writer → Memory → Iterator → Option (Memory × Iterator)
  | writeU8 data, mem, it => it.writeU8 mem data
  | writeU8s data len, mem, it => it.writeU8s mem data len
  | writeHtonU16 data, mem, it => it.writeHtonU16 mem data
  | writeHtonU32 data, mem, it => it.writeHtonU32 mem data
  | write buffer, mem, it => it.write mem buffer

def bytes : Writer → List UInt8
  | writeU8 data => [data]
  | writeU8s data len => List.replicate len.toNat data
  | writeHtonU16 data => FISim.writeHtonU16 data
  | writeHtonU32 data => FISim.writeHtonU32 data
  | write buffer => buffer

theorem writes (writer : Writer) : Iterator.Writes writer.run writer.bytes := by
  cases writer with
  | writeU8 data => exact Iterator.writes_writeU8 data
  | writeU8s data len => exact Iterator.writes_writeU8s data len
  | writeHtonU16 data => exact Iterator.writes_writeHtonU16 data
  | writeHtonU32 data => exact Iterator.writes_writeHtonU32 data
  | write buffer => exact Iterator.writes_write buffer

end Writer

namespace Command

def step (buffers : List Buffer) : Memory × Iterator → Command → Option (Memory × Iterator)
  | (mem, it), next delta => do
      let it ← it.next delta
      return (mem, it)
  | (mem, it), prev delta => do
      let it ← it.prev delta
      return (mem, it)
  | (mem, it), write writer => writer.run mem it
  | (mem, it), writeRange other start length => do
      let o ← buffers[other]?
      let start ← o.atBegin.next start
      let stop ← start.next length
      it.writeRange mem start stop

/-- A cursor over a string writes in a window of it. -/
def place (low high : ℕ) (string : ByteString) (cursor : ℕ) (bytes : ByteString) :
    Option (ByteString × ℕ) :=
  if low ≤ cursor ∧ cursor + bytes.length ≤ high then
    some (overwrite string cursor bytes, cursor + bytes.length)
  else none

/-- The strings of other buffers are those of `strings`. -/
def plain (strings : List ByteString) (target low high : ℕ) :
    ByteString × ℕ → Command → Option (ByteString × ℕ)
  | (string, cursor), next delta =>
      if cursor + delta.toNat ≤ string.length then some (string, cursor + delta.toNat) else none
  | (string, cursor), prev delta =>
      if delta.toNat ≤ cursor then some (string, cursor - delta.toNat) else none
  | (string, cursor), write writer => place low high string cursor (writer.bytes.map some)
  | (string, cursor), writeRange other start length => do
      guard (other ≠ target)
      let source ← strings[other]?
      guard (start.toNat + length.toNat ≤ source.length)
      place low high string cursor ((source.drop start.toNat).take length.toNat)

def range? : Command → Option (ℕ × UInt32)
  | writeRange other _ length => some (other, length)
  | _ => none

/-- The range copy takes bytes from another block, to a place that no zero area comes before. -/
def Fits (buffers : List Buffer) (b : Buffer) (stays behind : Bool) (command : Command) : Prop :=
  ∀ range ∈ command.range?, (∀ o ∈ buffers[range.1]?, ¬ (stays = true ∧ o.data = b.data)) ∧
    (behind = true → range.2 = 0 ∨ b.zeroSize = 0)

instance (buffers : List Buffer) (b : Buffer) (stays behind : Bool) :
    DecidablePred (Fits buffers b stays behind) := fun command => by
  delta Fits
  infer_instance

theorem place_cases {low high cursor : ℕ} {string bytes : ByteString}
    {reached : ByteString × ℕ} (placed : place low high string cursor bytes = some reached) :
    low ≤ cursor ∧ cursor + bytes.length ≤ high ∧
      reached = (overwrite string cursor bytes, cursor + bytes.length) := by
  unfold place at placed
  split at placed
  · rename_i inside
    exact ⟨inside.1, inside.2, (Option.some.inj placed).symm⟩
  · cases placed

/-- A client is writing into a buffer, which shows the string that it is writing to. -/
structure Writing (made : Memory) (b : Buffer) (others : List Buffer) (pinned : List ℕ)
    (state : Memory × Iterator) (strings : ByteString × ℕ) : Prop where
  holds : state.1.Holds (b :: others) pinned
  kept : ∀ c ∈ others, c.Kept made state.1
  shows : b.Shows state.1 strings.1
  points : b.Points state.2 strings.2

/-- The window is in the bytes that the buffer has gained, at its front or at its back. -/
structure Window (b : Buffer) (behind : Bool) (front back low high : ℕ) : Prop where
  ahead : behind = false → high ≤ front
  back : behind = true → b.size ≤ low + back ∧ high ≤ b.size
  inside : high ≤ b.size

section Gained

open Buffer

variable {m made : Memory} {t b : Buffer} {others buffers before : List Buffer} {pinned : List ℕ}
  {front back low high target : ℕ} {behind stays : Bool} {strings : List ByteString}

theorem Window.gained (window : Window b behind front back low high) {cursor count : ℕ}
    (lower : low ≤ cursor) (upper : cursor + count ≤ high) :
    cursor + count ≤ front ∨ (b.size ≤ cursor + back ∧ cursor + count ≤ b.size) := by
  cases behind with
  | false =>
      have := window.ahead rfl
      omega
  | true =>
      have := window.back rfl
      omega

theorem Writing.wrote {state next : Memory × Iterator} {string : ByteString} {cursor : ℕ}
    {bytes : List UInt8} {part : ByteString}
    (grown : Grown m made t b others pinned front back)
    (window : Window b behind front back low high)
    (writing : Writing made b others pinned state (string, cursor)) (lower : low ≤ cursor)
    (upper : cursor + part.length ≤ high) (is : Matches bytes part)
    (wrote : Wrote state.1 next.1 b cursor bytes)
    (points : b.Points next.2 (cursor + bytes.length)) :
    Writing made b others pinned next (overwrite string cursor part, cursor + part.length) := by
  have formed := writing.holds.formed b List.mem_cons_self
  have inside := window.inside
  rw [is.1] at upper ⊢
  refine ⟨wrote.holds writing.holds, ?_, writing.shows.wrote wrote formed (by omega) is, points⟩
  intro c member
  exact (writing.kept c member).trans
    (wrote.kept grown formed (window.gained lower upper) member)

theorem Writing.step {state : Memory × Iterator} {string reached : ByteString × ℕ}
    {command : Command} (grown : Grown m made t b others pinned front back)
    (window : Window b behind front back low high) (settled : Settled stays t b others)
    (sources : ∀ (other : ℕ) (source : ByteString), other ≠ target →
      strings[other]? = some source →
        ∃ o, buffers[other]? = some o ∧ before[other]? = some o ∧ o ∈ others ∧
          o.Shows made source)
    (writing : Writing made b others pinned state string)
    (fits : command.Fits before t stays behind)
    (stepped : command.plain strings target low high string = some reached) :
    ∃ next, command.step buffers state = some next ∧
      Writing made b others pinned next reached := by
  obtain ⟨mem, it⟩ := state
  obtain ⟨string, cursor⟩ := string
  have formed := writing.holds.formed b List.mem_cons_self
  have length : b.size = string.length := writing.shows.1
  have inside := window.inside
  cases command with
  | next delta =>
      simp only [plain] at stepped
      split at stepped
      · rename_i within
        obtain ⟨moved, advanced, points⟩ := writing.points.next formed delta (by omega)
        refine ⟨(mem, moved), by simp [Command.step, advanced], ?_⟩
        rw [← Option.some.inj stepped]
        exact ⟨writing.holds, writing.kept, writing.shows, points⟩
      · cases stepped
  | prev delta =>
      simp only [plain] at stepped
      split at stepped
      · rename_i within
        obtain ⟨moved, receded, points⟩ := writing.points.prev delta within
        refine ⟨(mem, moved), by simp [Command.step, receded], ?_⟩
        rw [← Option.some.inj stepped]
        exact ⟨writing.holds, writing.kept, writing.shows, points⟩
      · cases stepped
  | write writer =>
      obtain ⟨lower, upper, rfl⟩ := place_cases stepped
      rw [List.length_map] at upper
      obtain ⟨mem', moved, ran, points, wrote⟩ := writer.writes writing.points formed (by omega)
        (solid_of_gained grown formed (window.gained lower upper))
      exact ⟨(mem', moved), ran, writing.wrote grown window lower (by rwa [List.length_map])
        (matches_map _) wrote points⟩
  | writeRange other start length =>
      simp only [plain, Option.bind_eq_bind, Option.bind_eq_some_iff,
        Option.guard_eq_some'] at stepped
      obtain ⟨-, different, source, found, -, enough, placed⟩ := stepped
      obtain ⟨lower, upper, rfl⟩ := place_cases placed
      obtain ⟨o, isOther, wasOther, member, shown⟩ := sources other source different found
      have formedO := writing.holds.formed o (List.mem_cons_of_mem _ member)
      have shownO := shown.kept (writing.kept o member)
        (grown.holds.formed o (List.mem_cons_of_mem _ member))
      rw [← shown.1] at enough
      obtain ⟨first, begun, atFirst⟩ := o.points_atBegin.next formedO start (by omega)
      obtain ⟨last, ended, atLast⟩ := atFirst.next formedO length (by omega)
      rw [Nat.zero_add] at atFirst atLast
      rw [List.length_take, List.length_drop, ← shown.1, Nat.min_eq_left (by omega)] at upper
      obtain ⟨unshared, flat⟩ := fits _ rfl
      have apart : b.data ≠ o.data := by
        unfold Settled at settled
        cases stays with
        | true =>
            rw [settled]
            exact fun same => unshared o wasOther ⟨rfl, same.symm⟩
        | false => exact Ne.symm (settled o member)
      obtain ⟨mem', moved, ran, points, wrote⟩ := Iterator.writeRange_spec writing.points formed
        atFirst atLast formedO apart (Nat.le_add_right _ _) enough (by omega)
        (by
          rw [Nat.add_sub_cancel_left]
          exact solid_of_gained grown formed (window.gained lower upper))
        (by
          cases behind with
          | false =>
              have := window.ahead rfl
              have := grown.frontRoom
              omega
          | true =>
              rcases flat rfl with none | none
              · left
                rw [show length = 0 from none, UInt32.toNat_zero, Nat.add_zero]
              · right; right
                rw [grown.gap, gap_eq_zero none])
      rw [Nat.add_sub_cancel_left] at points wrote
      refine ⟨(mem', moved), ?_, writing.wrote grown window lower ?_ (shownO.matches enough)
        wrote ?_⟩
      · simp only [Command.step, isOther, begun, ended, ran, Option.bind_eq_bind, Option.bind_some]
      · rw [List.length_take, List.length_drop, ← shown.1, Nat.min_eq_left (by omega)]
        exact upper
      · rwa [bytesFrom_length]

theorem Writing.run {state : Memory × Iterator} {string reached : ByteString × ℕ}
    {commands : List Command} (grown : Grown m made t b others pinned front back)
    (window : Window b behind front back low high) (settled : Settled stays t b others)
    (sources : ∀ (other : ℕ) (source : ByteString), other ≠ target →
      strings[other]? = some source →
        ∃ o, buffers[other]? = some o ∧ before[other]? = some o ∧ o ∈ others ∧
          o.Shows made source)
    (writing : Writing made b others pinned state string)
    (fits : ∀ command ∈ commands, command.Fits before t stays behind)
    (ran : run (plain strings target low high) string commands = some reached) :
    ∃ next, run (Command.step buffers) state commands = some next ∧
      Writing made b others pinned next reached :=
  run_refines
    (fun _ _ _ _ writing fits stepped => writing.step grown window settled sources fits stepped)
    writing (guarded_of_forall fun _ => fits) ran

end Gained

end Command

end FISim.Buffers
