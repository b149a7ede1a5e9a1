import FISim.Header
import FISim.Lib.Transition

/-!
`CybertwinBulkClient::SendData`: a fixed number of bytes in packets with a
header, over a socket that may take a packet, a part of it, or nothing.
-/

namespace FISim.Control

open Transition

/-- The attributes, as their checkers admit them, of a client with a limit. -/
structure BulkSettings where
  localCuid : CybertwinId
  peerCuid : CybertwinId
  maxBytes : UInt64
  packetSize : UInt32
  limited : 0 < maxBytes
  admitted : 21 ≤ packetSize

/-- `accepted` is not the program's: the bytes that the socket has taken, in order. -/
structure CybertwinBulkClient where
  sentBytes : UInt64
  unsentPacket : Option Packet := none
  aborted : Bool := false
  accepted : Packet := []
  deriving DecidableEq, Repr

namespace CybertwinBulkClient

inductive Answer
  | whole
  | part (count : ℕ)
  | refused
  deriving DecidableEq, Repr

def Answer.actual (packet : Packet) : Answer → Int32
  | whole => (getSize packet).toInt32
  | part count => Int32.ofNat count
  | refused => -1

def Answer.taken (packet : Packet) : Answer → Packet
  | whole => packet
  | part count => packet.take count
  | refused => []

def Answer.Fits (packet : Packet) : Answer → Prop
  | part count => 0 < count ∧ count < packet.length ∧ count < 2 ^ 31
  | _ => True

instance (packet : Packet) (answer : Answer) : Decidable (answer.Fits packet) := by
  cases answer <;> unfold Answer.Fits <;> infer_instance

variable (settings : BulkSettings) (client : CybertwinBulkClient)

def header (toSend : UInt64) : CybertwinHeader :=
  { command := CybertwinCommand.cybertwinHeaderData.code
    cybertwin := settings.localCuid
    peer := settings.peerCuid
    size := toSend.toUInt32 }

def packet (toSend : UInt64) : Packet :=
  (header settings toSend).serialize ++
    List.replicate (toSend.toNat - (header settings toSend).getSerializedSize) 0

def Sending : Prop :=
  client.aborted = false ∧ (settings.maxBytes = 0 ∨ client.sentBytes < settings.maxBytes)

instance : Decidable (client.Sending settings) := inferInstanceAs (Decidable (_ ∧ _))

def toSend : UInt64 :=
  if 0 < settings.maxBytes then
    min settings.packetSize.toUInt64 (settings.maxBytes - client.sentBytes)
  else settings.packetSize.toUInt64

/-- The packet that is offered to the socket, with `toSend`; `none` is `NS_ABORT_IF`. -/
def offered : Option (Packet × UInt64) :=
  match client.unsentPacket with
  | some packet => some (packet, (getSize packet).toUInt64)
  | none =>
      let toSend := client.toSend settings
      if toSend.toNat < (header settings toSend).getSerializedSize then none
      else some (packet settings toSend, toSend)

/-- What `SendData` makes of the result of `Send`, which is an `int`. -/
def sent (packet : Packet) (toSend : UInt64) (actual : Int32) : CybertwinBulkClient :=
  if actual.toUInt32.toUInt64 = toSend then
    { client with
      sentBytes := client.sentBytes + actual.toInt64.toUInt64
      unsentPacket := none }
  else if actual = -1 then { client with unsentPacket := some packet }
  else if 0 < actual ∧ actual.toUInt32.toUInt64 < toSend then
    { client with
      sentBytes := client.sentBytes + actual.toInt64.toUInt64
      unsentPacket := some (packet.drop actual.toUInt32.toNat) }
  else { client with aborted := true }

/-- One turn of the loop, with the socket's answer to the packet if one is offered. -/
def turn (answer : Answer) : Option CybertwinBulkClient :=
  if client.Sending settings then
    match client.offered settings with
    | none => some { client with aborted := true }
    | some (packet, toSend) =>
        if answer.Fits packet then
          let taking := { client with accepted := client.accepted ++ answer.taken packet }
          some (taking.sent packet toSend (answer.actual packet))
        else none
  else none

def packets (left : ℕ) : List Packet :=
  if left = 0 then []
  else
    packet settings (UInt64.ofNat (min settings.packetSize.toNat left)) ::
      packets (left - min settings.packetSize.toNat left)
termination_by left
decreasing_by
  have admitted := UInt32.le_iff_toNat_le.mp settings.admitted
  simp only [UInt32.reduceToNat] at admitted
  omega

/-- The socket need only keep accepting for all bytes to be sent. -/
inductive Reaches : CybertwinBulkClient → Prop
  | reached {state} : state.sentBytes = settings.maxBytes → Reaches state
  | turn {state} : state.Sending settings →
      (∀ answer next, answer ≠ .refused → state.turn settings answer = some next →
        Reaches next) → Reaches state

structure Exact : Prop where
  alive : client.aborted = false
  inOrder : client.accepted <+: (packets settings settings.maxBytes.toNat).flatten
  counted : client.sentBytes.toNat = client.accepted.length
  limited : client.sentBytes ≤ settings.maxBytes
  reaches : Reaches settings client

/-- The count starts at zero, every packet has room for its header, and its size is an `int`. -/
structure Sendable (sentBytes : UInt64) : Prop where
  fresh : sentBytes = 0
  room : 24 ≤ settings.packetSize.toNat
  last : settings.maxBytes.toNat % settings.packetSize.toNat = 0 ∨
    24 ≤ settings.maxBytes.toNat % settings.packetSize.toNat
  fits : min settings.packetSize.toNat settings.maxBytes.toNat < 2 ^ 31

/-- Every packet of the stream up to what is left has been taken or waits. -/
def Follows (accepted waiting : Packet) : Prop :=
  ∃ left, accepted.length + waiting.length + left = settings.maxBytes.toNat ∧
    (left = 0 ∨
      left % settings.packetSize.toNat = settings.maxBytes.toNat % settings.packetSize.toNat) ∧
    accepted ++ (waiting ++ (packets settings left).flatten) =
      (packets settings settings.maxBytes.toNat).flatten

structure Kept : Prop where
  alive : client.aborted = false
  counted : client.sentBytes.toNat = client.accepted.length
  unsent : ∀ packet ∈ client.unsentPacket, packet ≠ [] ∧ packet.length < 2 ^ 31
  follows : Follows settings client.accepted (client.unsentPacket.getD [])

variable {settings client} {next : CybertwinBulkClient}

@[simp] theorem header_length (toSend : UInt64) :
    (header settings toSend).serialize.length = 24 := by
  simp [CybertwinHeader.serialize]

theorem packet_length {toSend : UInt64} (room : 24 ≤ toSend.toNat) :
    (packet settings toSend).length = toSend.toNat := by
  rw [packet, List.length_append, header_length, List.length_replicate]
  change 24 + (toSend.toNat - 24) = toSend.toNat
  omega

theorem packets_flatten {left : ℕ} (positive : 0 < left) :
    (packets settings left).flatten =
      packet settings (UInt64.ofNat (min settings.packetSize.toNat left)) ++
        (packets settings (left - min settings.packetSize.toNat left)).flatten := by
  rw [packets, if_neg (by omega), List.flatten_cons]

theorem toSend_toNat {client : CybertwinBulkClient} (below : client.sentBytes ≤ settings.maxBytes) :
    (client.toSend settings).toNat =
      min settings.packetSize.toNat (settings.maxBytes.toNat - client.sentBytes.toNat) := by
  rw [toSend, if_pos settings.limited, UInt64.toNat_min, UInt32.toNat_toUInt64,
    UInt64.toNat_sub_of_le _ _ below]

theorem kept_le (kept : client.Kept settings) : client.sentBytes ≤ settings.maxBytes := by
  obtain ⟨left, total, -, -⟩ := kept.follows
  have counted := kept.counted
  rw [UInt64.le_iff_toNat_le]
  omega


theorem sending_iff {client : CybertwinBulkClient} (alive : client.aborted = false) :
    client.Sending settings ↔ client.sentBytes < settings.maxBytes := by
  have limited := settings.limited
  rw [Sending, and_iff_right alive, or_iff_right]
  intro unlimited
  rw [unlimited] at limited
  exact absurd limited (by decide)

theorem Kept.offered {sentBytes : UInt64} (sendable : Sendable settings sentBytes)
    (kept : client.Kept settings) (sending : client.Sending settings) :
    ∃ packet toSend, client.offered settings = some (packet, toSend) ∧
      toSend.toNat = packet.length ∧ packet ≠ [] ∧ packet.length < 2 ^ 31 ∧
      Follows settings client.accepted packet := by
  cases waits : client.unsentPacket with
  | some packet =>
      obtain ⟨nonempty, short⟩ := kept.unsent packet waits
      have follows := kept.follows
      rw [waits, Option.getD_some] at follows
      refine ⟨packet, _, by rw [CybertwinBulkClient.offered, waits], ?_, nonempty, short, follows⟩
      rw [UInt32.toNat_toUInt64, getSize_toNat (by omega)]
  | none =>
      obtain ⟨left, total, residue, stream⟩ := kept.follows
      rw [waits, Option.getD_none] at total stream
      have below := kept_le kept
      have counted := kept.counted
      have more := UInt64.lt_iff_toNat_lt.mp ((sending_iff kept.alive).mp sending)
      have size := toSend_toNat below
      have isLeft : settings.maxBytes.toNat - client.sentBytes.toNat = left := by
        simp only [List.length_nil] at total
        omega
      rw [isLeft] at size
      have room : 24 ≤ (client.toSend settings).toNat := by
        have pieces := sendable.room
        rw [size]
        by_cases last : left < settings.packetSize.toNat
        · have rest : left = settings.maxBytes.toNat % settings.packetSize.toNat := by
            rcases residue with rfl | same
            · omega
            · rwa [Nat.mod_eq_of_lt last] at same
          have final := sendable.last
          omega
        · omega
      have fits := sendable.fits
      have length : (packet settings (client.toSend settings)).length = _ := packet_length room
      refine ⟨packet settings (client.toSend settings), client.toSend settings, ?_, length.symm,
        List.ne_nil_of_length_pos (by omega), by omega, ?_⟩
      · rw [CybertwinBulkClient.offered, waits]
        exact if_neg (by change ¬ _ < 24; omega)
      · refine ⟨left - min settings.packetSize.toNat left, by omega, ?_, ?_⟩
        · by_cases last : left ≤ settings.packetSize.toNat
          · exact Or.inl (by omega)
          · refine Or.inr ?_
            rw [Nat.min_eq_left (by omega), ← Nat.mod_eq_sub_mod (by omega)]
            exact residue.resolve_left (by omega)
        · have first : (packets settings left).flatten = _ := packets_flatten (by omega)
          rw [← size, UInt64.ofNat_toNat, size] at first
          rw [← stream, List.nil_append, first]

def after (client : CybertwinBulkClient) (packet : Packet) : Answer → CybertwinBulkClient
  | .whole =>
      { client with
        sentBytes := client.sentBytes + UInt64.ofNat packet.length
        unsentPacket := none
        accepted := client.accepted ++ packet }
  | .part count =>
      { client with
        sentBytes := client.sentBytes + UInt64.ofNat count
        unsentPacket := some (packet.drop count)
        accepted := client.accepted ++ packet.take count }
  | .refused => { client with unsentPacket := some packet }

theorem actual_toUInt64 {count : ℕ} (small : count < 2 ^ 31) :
    (Int32.ofNat count).toInt64.toUInt64 = UInt64.ofNat count := by
  have extended := toUInt64_toInt32 (UInt32.ofNat count)
  rw [UInt32.toNat_ofNat_of_lt' (show count < UInt32.size by change count < 2 ^ 32; omega),
    if_pos small] at extended
  rw [← UInt64.toNat_inj, UInt64.toNat_ofNat_of_lt' (by change count < 2 ^ 64; omega)]
  exact extended

theorem unsigned_actual {count : ℕ} (small : count < 2 ^ 32) :
    (Int32.ofNat count).toUInt32.toNat = count :=
  UInt32.toNat_ofNat_of_lt' small

theorem sent_after {packet : Packet} {toSend : UInt64} {answer : Answer}
    (size : toSend.toNat = packet.length) (short : packet.length < 2 ^ 31)
    (fits : answer.Fits packet) :
    { client with accepted := client.accepted ++ answer.taken packet }.sent packet toSend
      (answer.actual packet) = client.after packet answer := by
  cases answer with
  | whole =>
      have same : (Answer.whole.actual packet).toUInt32.toUInt64 = toSend := by
        rw [← UInt64.toNat_inj, UInt32.toNat_toUInt64, size]
        exact unsigned_actual (by omega)
      rw [sent, if_pos same]
      have count : (Answer.whole.actual packet).toInt64.toUInt64 = UInt64.ofNat packet.length :=
        actual_toUInt64 short
      rw [count]
      rfl
  | part count =>
      obtain ⟨positive, less, small⟩ := fits
      have number : (Int32.ofNat count).toUInt32.toUInt64.toNat = count := by
        rw [UInt32.toNat_toUInt64]
        exact unsigned_actual (by omega)
      have other : (Int32.ofNat count).toUInt32.toUInt64 ≠ toSend := by
        rw [Ne, ← UInt64.toNat_inj]
        omega
      have signed : (Int32.ofNat count).toInt = count := Int32.toInt_ofNat_of_lt small
      have notRefused : Int32.ofNat count ≠ -1 := by
        intro minus
        rw [minus] at signed
        exact absurd signed (by change ¬ (-1 : ℤ) = count; omega)
      have within : 0 < Int32.ofNat count ∧ (Int32.ofNat count).toUInt32.toUInt64 < toSend := by
        rw [Int32.lt_iff_toInt_lt, UInt64.lt_iff_toNat_lt, signed]
        exact ⟨by simpa using positive, by omega⟩
      change sent _ packet toSend (Int32.ofNat count) = _
      rw [sent, if_neg other, if_neg notRefused, if_pos within, actual_toUInt64 small,
        unsigned_actual (by omega)]
      rfl
  | refused =>
      have other : (-1 : Int32).toUInt32.toUInt64 ≠ toSend := by
        rw [Ne, ← UInt64.toNat_inj]
        change ¬ 4294967295 = _
        omega
      change sent _ packet toSend (-1) = _
      rw [sent, if_neg other, if_pos rfl, Answer.taken, List.append_nil]
      rfl

theorem Kept.turn_cases {sentBytes : UInt64} {answer : Answer}
    (sendable : Sendable settings sentBytes) (kept : client.Kept settings)
    (turned : client.turn settings answer = some next) :
    client.Sending settings ∧ ∃ packet, packet ≠ [] ∧ packet.length < 2 ^ 31 ∧
      Follows settings client.accepted packet ∧ answer.Fits packet ∧
      next = client.after packet answer := by
  rw [CybertwinBulkClient.turn] at turned
  split at turned
  · rename_i sending
    obtain ⟨packet, toSend, offered, size, nonempty, short, follows⟩ := kept.offered sendable sending
    rw [offered] at turned
    dsimp only at turned
    split at turned
    · rename_i fits
      rw [sent_after size short fits] at turned
      exact ⟨sending, packet, nonempty, short, follows, fits, (Option.some.inj turned).symm⟩
    · cases turned
  · cases turned

theorem counted_add {sentBytes : UInt64} {accepted : Packet} {count : ℕ}
    (counted : sentBytes.toNat = accepted.length)
    (within : accepted.length + count ≤ settings.maxBytes.toNat) :
    (sentBytes + UInt64.ofNat count).toNat = accepted.length + count := by
  have small := settings.maxBytes.toNat_lt
  rw [UInt64.toNat_add, UInt64.toNat_ofNat', counted, Nat.mod_eq_of_lt (show count < 2 ^ 64 by omega),
    Nat.mod_eq_of_lt (by omega)]

theorem Follows.taken {accepted waiting : Packet} (follows : Follows settings accepted waiting)
    (count : ℕ) : Follows settings (accepted ++ waiting.take count) (waiting.drop count) := by
  obtain ⟨left, total, residue, stream⟩ := follows
  refine ⟨left, ?_, residue, ?_⟩
  · rw [List.length_append, List.length_take, List.length_drop]
    omega
  · rw [List.append_assoc, ← List.append_assoc (waiting.take count), List.take_append_drop]
    exact stream

theorem Follows.le {accepted waiting : Packet} (follows : Follows settings accepted waiting) :
    accepted.length + waiting.length ≤ settings.maxBytes.toNat := by
  obtain ⟨left, total, -, -⟩ := follows
  omega

theorem Kept.after {packet : Packet} {answer : Answer} (kept : client.Kept settings)
    (nonempty : packet ≠ []) (short : packet.length < 2 ^ 31)
    (follows : Follows settings client.accepted packet) (fits : answer.Fits packet) :
    (client.after packet answer).Kept settings := by
  have within := follows.le
  cases answer with
  | whole =>
      refine ⟨kept.alive, ?_, ?_, ?_⟩
      · exact (counted_add kept.counted within).trans List.length_append.symm
      · rintro packet ⟨⟩
      · have taken := follows.taken packet.length
        rwa [List.take_length, List.drop_length] at taken
  | part count =>
      obtain ⟨positive, less, small⟩ := fits
      have below : client.accepted.length + count ≤ settings.maxBytes.toNat := by omega
      refine ⟨kept.alive, ?_, ?_, follows.taken count⟩
      · change (client.sentBytes + UInt64.ofNat count).toNat = _
        rw [counted_add kept.counted below]
        change _ = (client.accepted ++ packet.take count).length
        rw [List.length_append, List.length_take_of_le (Nat.le_of_lt less)]
      · rintro _ ⟨⟩
        rw [List.length_drop]
        exact ⟨List.ne_nil_of_length_pos (by rw [List.length_drop]; omega), by omega⟩
  | refused =>
      refine ⟨kept.alive, kept.counted, ?_, follows⟩
      rintro _ ⟨⟩
      exact ⟨nonempty, short⟩

theorem Kept.turn {sentBytes : UInt64} {answer : Answer} (sendable : Sendable settings sentBytes)
    (kept : client.Kept settings) (turned : client.turn settings answer = some next) :
    next.Kept settings := by
  obtain ⟨-, packet, nonempty, short, follows, fits, rfl⟩ := kept.turn_cases sendable turned
  exact kept.after nonempty short follows fits

theorem lt_after {packet : Packet} {answer : Answer} (kept : client.Kept settings)
    (nonempty : packet ≠ []) (follows : Follows settings client.accepted packet)
    (fits : answer.Fits packet) (accepts : answer ≠ .refused) :
    client.sentBytes.toNat < (client.after packet answer).sentBytes.toNat := by
  have within := follows.le
  have positive := List.length_pos_of_ne_nil nonempty
  cases answer with
  | whole =>
      change _ < (client.sentBytes + UInt64.ofNat packet.length).toNat
      rw [counted_add kept.counted within, kept.counted]
      omega
  | part count =>
      obtain ⟨some_, less, -⟩ := fits
      have below : client.accepted.length + count ≤ settings.maxBytes.toNat := by omega
      change _ < (client.sentBytes + UInt64.ofNat count).toNat
      rw [counted_add kept.counted below, kept.counted]
      omega
  | refused => exact absurd rfl accepts

theorem Kept.reaches {sentBytes : UInt64} (sendable : Sendable settings sentBytes)
    (kept : client.Kept settings) : Reaches settings client := by
  generalize measure : settings.maxBytes.toNat - client.sentBytes.toNat = left
  induction left using Nat.strongRecOn generalizing client with
  | ind left ih =>
      rcases UInt64.le_iff_lt_or_eq.mp (kept_le kept) with less | all
      · refine .turn ((sending_iff kept.alive).mpr less) ?_
        intro answer next accepts turned
        obtain ⟨-, packet, nonempty, short, follows, fits, rfl⟩ := kept.turn_cases sendable turned
        have closer := lt_after kept nonempty follows fits accepts
        have more := UInt64.lt_iff_toNat_lt.mp less
        exact ih _ (by omega) (kept.after nonempty short follows fits) rfl
      · exact .reached all

theorem Kept.exact {sentBytes : UInt64} (sendable : Sendable settings sentBytes)
    (kept : client.Kept settings) : client.Exact settings := by
  refine ⟨kept.alive, ?_, kept.counted, kept_le kept, kept.reaches sendable⟩
  obtain ⟨left, -, -, stream⟩ := kept.follows
  exact ⟨_, stream⟩

theorem initial_kept {sentBytes : UInt64} (fresh : sentBytes = 0) :
    ({ sentBytes } : CybertwinBulkClient).Kept settings := by
  subst fresh
  refine ⟨rfl, rfl, ?_, settings.maxBytes.toNat, ?_, Or.inr rfl, rfl⟩
  · rintro packet ⟨⟩
  · exact Nat.zero_add _

def AlwaysExact (settings : BulkSettings) (sentBytes : UInt64) : Prop :=
  ∀ client, Reachable (turn settings) { sentBytes } client → client.Exact settings

theorem turn_short (sending : client.Sending settings) (unsent : client.unsentPacket = none)
    (short : (client.toSend settings).toNat < 24) (answer : Answer) :
    client.turn settings answer = some { client with aborted := true } := by
  have none_ : client.offered settings = none := by
    rw [CybertwinBulkClient.offered, unsent]
    exact if_pos short
  rw [CybertwinBulkClient.turn, if_pos sending, none_]

theorem turn_whole (sending : client.Sending settings) (unsent : client.unsentPacket = none)
    (room : 24 ≤ (client.toSend settings).toNat) :
    client.turn settings .whole = some
      { client with
        sentBytes := client.sentBytes +
          (Answer.whole.actual (packet settings (client.toSend settings))).toInt64.toUInt64
        unsentPacket := none
        accepted := client.accepted ++ packet settings (client.toSend settings) } := by
  have offered : client.offered settings =
      some (packet settings (client.toSend settings), client.toSend settings) := by
    rw [CybertwinBulkClient.offered, unsent]
    exact if_neg (Nat.not_lt.mpr room)
  have length : (packet settings (client.toSend settings)).length = _ := packet_length room
  have small : (client.toSend settings).toNat < 2 ^ 32 := by
    have most := settings.packetSize.toNat_lt
    rw [toSend, if_pos settings.limited, UInt64.toNat_min, UInt32.toNat_toUInt64]
    omega
  have same : (Answer.whole.actual (packet settings (client.toSend settings))).toUInt32.toUInt64 =
      client.toSend settings := by
    rw [← UInt64.toNat_inj, UInt32.toNat_toUInt64, ← length]
    exact unsigned_actual (by omega)
  rw [CybertwinBulkClient.turn, if_pos sending, offered]
  dsimp only
  rw [if_pos (show Answer.whole.Fits _ from trivial), sent, if_pos same]
  rfl

/-- A count that grows by the size of a packet shows that the size is not negative as an `int`. -/
theorem small_of_counted {sentBytes : UInt64} {size : UInt32}
    (counted : (sentBytes + size.toInt32.toInt64.toUInt64).toNat =
      sentBytes.toNat + size.toNat) : size.toNat < 2 ^ 31 := by
  have extended := toUInt64_toInt32 size
  have bounded := size.toNat_lt
  have fits := sentBytes.toNat_lt
  rw [UInt64.toNat_add] at counted
  split at extended <;> omega

/-- Where every reached state is exact, a new packet has room for its header and is counted right. -/
theorem AlwaysExact.whole {sentBytes : UInt64} (always : AlwaysExact settings sentBytes)
    (reached : Reachable (turn settings) { sentBytes } client) (unsent : client.unsentPacket = none)
    (more : client.sentBytes < settings.maxBytes) :
    24 ≤ (client.toSend settings).toNat ∧ (client.toSend settings).toNat < 2 ^ 31 ∧
      ∃ next, client.turn settings .whole = some next ∧
        Reachable (turn settings) { sentBytes } next ∧ next.unsentPacket = none ∧
        next.sentBytes.toNat = client.sentBytes.toNat + (client.toSend settings).toNat := by
  have exact := always client reached
  have sending := (sending_iff exact.alive).mpr more
  obtain ⟨answers, ran⟩ := reached
  have reaches : ∀ next, client.turn settings .whole = some next →
      Reachable (turn settings) { sentBytes } next := by
    intro next turned
    refine ⟨answers ++ [.whole], run_append_some ran ?_⟩
    rw [run_cons, turned]
    rfl
  by_cases room : 24 ≤ (client.toSend settings).toNat
  · have turned := turn_whole sending unsent room
    have next := reaches _ turned
    have length : (packet settings (client.toSend settings)).length = _ := packet_length room
    have after := (always _ next).counted
    have before := exact.counted
    have below := UInt64.le_iff_toNat_le.mp exact.limited
    have fits := settings.maxBytes.toNat_lt
    rw [List.length_append, length, ← before] at after
    refine ⟨room, ?_, _, turned, next, rfl, after⟩
    have size : (getSize (packet settings (client.toSend settings))).toNat =
        (client.toSend settings).toNat := by
      have most := settings.packetSize.toNat_lt
      have bounded := toSend_toNat exact.limited
      rw [getSize_toNat (by omega), length]
    rw [← size] at after ⊢
    exact small_of_counted after
  · have turned := turn_short sending unsent (Nat.not_le.mp room) .whole
    cases (always _ (reaches _ turned)).alive

/-- On whole packets alone the count comes to its end with a last packet that has room. -/
theorem AlwaysExact.last {sentBytes : UInt64} (always : AlwaysExact settings sentBytes)
    (reached : Reachable (turn settings) { sentBytes } client) (unsent : client.unsentPacket = none)
    (even : client.sentBytes.toNat % settings.packetSize.toNat = 0)
    (reaches : Reaches settings client) :
    settings.maxBytes.toNat % settings.packetSize.toNat = 0 ∨
      24 ≤ settings.maxBytes.toNat % settings.packetSize.toNat := by
  induction reaches with
  | reached all =>
      rw [all] at even
      exact Or.inl even
  | @turn client sending _ ih =>
      have exact := always client reached
      have more := (sending_iff exact.alive).mp sending
      obtain ⟨room, -, next, turned, nextReached, nextUnsent, count⟩ :=
        always.whole reached unsent more
      have below := UInt64.lt_iff_toNat_lt.mp more
      have size := toSend_toNat exact.limited
      obtain ⟨rounds, multiple⟩ := Nat.dvd_of_mod_eq_zero even
      by_cases full : settings.packetSize.toNat ≤ settings.maxBytes.toNat - client.sentBytes.toNat
      · rw [size, Nat.min_eq_left full] at count
        refine ih .whole next (by decide) turned nextReached nextUnsent ?_
        rw [count, Nat.add_mod_right]
        exact even
      · refine Or.inr ?_
        have rest : settings.maxBytes.toNat = settings.packetSize.toNat * rounds +
            (settings.maxBytes.toNat - client.sentBytes.toNat) := by omega
        rw [rest, Nat.mul_add_mod, Nat.mod_eq_of_lt (by omega)]
        omega

/-- The client sends exactly what it should, whatever the socket answers, exactly if its count
starts at zero, every packet has room for its header, and none is too large for an `int`. -/
theorem alwaysExact_iff (settings : BulkSettings) (sentBytes : UInt64) :
    AlwaysExact settings sentBytes ↔ Sendable settings sentBytes := by
  constructor
  · intro always
    have start : Reachable (turn settings) { sentBytes } { sentBytes } := ⟨[], rfl⟩
    have exact := always _ start
    have zero : sentBytes.toNat = 0 := exact.counted
    have fresh : sentBytes = 0 := UInt64.toNat_inj.mp zero
    have limited := UInt64.lt_iff_toNat_lt.mp settings.limited
    have more : sentBytes < settings.maxBytes := by rwa [fresh]
    obtain ⟨room, small, -⟩ := always.whole start rfl more
    have size := toSend_toNat exact.limited
    refine ⟨fresh, ?_, ?_, ?_⟩
    · omega
    · refine always.last start rfl ?_ exact.reaches
      change sentBytes.toNat % _ = 0
      rw [zero, Nat.zero_mod]
    · change _ = min _ (_ - sentBytes.toNat) at size
      rwa [size, zero, Nat.sub_zero] at small
  · rintro sendable client ⟨answers, ran⟩
    have free : Guarded (turn settings) (fun _ _ => True) { sentBytes } answers :=
      guarded_of_forall fun _ _ _ => trivial
    exact (run_invariant (fun _ _ _ kept _ turned => Kept.turn sendable kept turned)
      (initial_kept sendable.fresh) free ran).exact sendable

/-- With packets of 516 bytes, one byte is left over: the second packet has no room for a header. -/
def oneOver : BulkSettings where
  localCuid := 7
  peerCuid := 8
  maxBytes := 517
  packetSize := 516
  limited := by decide
  admitted := by decide

theorem oneOver_aborts :
    (run (turn oneOver) { sentBytes := 0 } [.whole, .whole]).map
        (fun client => (client.sentBytes, client.aborted)) = some (516, true) ∧
      ¬ AlwaysExact oneOver 0 := by
  have aborts : (run (turn oneOver) { sentBytes := 0 } [.whole, .whole]).map
      (fun client => (client.sentBytes, client.aborted)) = some (516, true) := by decide +kernel
  refine ⟨aborts, fun always => ?_⟩
  obtain ⟨client, ran, read⟩ := Option.map_eq_some_iff.mp aborts
  have alive := (always client ⟨_, ran⟩).alive
  obtain ⟨-, aborted⟩ := Prod.mk.inj read
  rw [aborted] at alive
  cases alive

end CybertwinBulkClient

end FISim.Control
