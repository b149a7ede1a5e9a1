import FISim.Lib.Framing
import FISim.Multipath.SinglePath

/-!
A connected path that receives a stream of DSN packets, cut into the chunks that
successive `RecvFrom` calls return.
-/

namespace FISim.Segmentation

open Framing

def drain : ℕ → SinglePath → Option (List UInt8)
  | 0, _ => some []
  | packets + 1, path => do
      let (pack, path) ← path.recv
      match pack with
      | none => return []
      | some pack =>
          let later ← drain packets path
          return pack ++ later

/-- The bytes that the path hands to its connection, and the path's count of them. -/
def received (path : SinglePath) (chunks : List Packet) : Option (List UInt8 × UInt64) := do
  let (path, _) ← path.processConnected chunks
  let bytes ← drain path.rxBuffer.length path
  return (bytes, path.rxTotalBytes)

def packetShape (packets : List (MultipathHeaderDSN × ℕ)) : List (List UInt8 × ℕ) :=
  packets.map fun packet => (packet.1.serialize, packet.2)

theorem drain_eq (path : SinglePath) (long : ∀ packet ∈ path.rxBuffer, 20 ≤ packet.length) :
    drain path.rxBuffer.length path = some (strip 20 path.rxBuffer) := by
  generalize buffer : path.rxBuffer = packets at long ⊢
  induction packets generalizing path with
  | nil => rfl
  | cons packet rest ih =>
      obtain ⟨header, found⟩ := Option.isSome_iff_exists.mp
        ((peekMultipathHeaderDSN_isSome packet).mpr (long packet (by simp)))
      have taken : path.recv =
          some (some (packet.drop 20), { path with rxBuffer := rest }) := by
        simp only [SinglePath.recv, buffer, found]
        rfl
      have later := ih { path with rxBuffer := rest } rfl
        fun other member => long other (by simp [member])
      simp only [List.length_cons, drain, taken, later, Option.bind_eq_bind, Option.bind_some]
      rfl

theorem received_eq {path : SinglePath} (empty : path.rxBuffer = []) {chunks : List Packet}
    (long : ∀ chunk ∈ chunks, 20 ≤ chunk.length) :
    received path chunks =
      some (strip 20 chunks, path.rxTotalBytes + SinglePath.payloadBytes chunks) := by
  have pushed := SinglePath.foldlM_pushReceived chunks path long
  rw [empty, List.nil_append] at pushed
  have drained := drain_eq { path with
    rxBuffer := chunks,
    rxTotalBytes := path.rxTotalBytes + SinglePath.payloadBytes chunks } long
  simp only [received, SinglePath.processConnected, pushed, Option.bind_eq_bind, Option.bind_some,
    Option.pure_def, drained]

theorem received_isSome {path : SinglePath} {chunks : List Packet}
    (finished : (received path chunks).isSome) : ∀ chunk ∈ chunks, 20 ≤ chunk.length := by
  rw [← SinglePath.foldlM_pushReceived_isSome chunks path]
  obtain ⟨result, finished⟩ := Option.isSome_iff_exists.mp finished
  obtain ⟨after, processed, _⟩ := Option.bind_eq_some_iff.mp finished
  obtain ⟨pushed, happened, _⟩ := Option.bind_eq_some_iff.mp processed
  rw [happened]
  rfl

variable {packets : List (MultipathHeaderDSN × ℕ)}

theorem packetShape_headers : ∀ record ∈ packetShape packets, record.1.length = 20 := by
  intro record member
  obtain ⟨packet, _, rfl⟩ := List.mem_map.mp member
  exact packet.1.serialize_length

theorem records_long {payloads : List Packet} (fills : Fills payloads (packetShape packets)) :
    ∀ chunk ∈ records (packetShape packets) payloads, 20 ≤ chunk.length := by
  intro chunk member
  have sized := List.mem_map_of_mem (f := List.length) member
  rw [records_lengths fills packetShape_headers] at sized
  obtain ⟨record, _, size⟩ := List.mem_map.mp sized
  omega

/-- Whatever the packets carry, what the path hands over and counts is what it would for one
packet a chunk, exactly when every chunk is one packet. -/
theorem received_eq_records_iff (path : SinglePath) (empty : path.rxBuffer = [])
    (packets : List (MultipathHeaderDSN × ℕ)) (filled : ∀ packet ∈ packets, 0 < packet.2)
    (lengths : List ℕ) (total : lengths.sum = (packets.map fun packet => 20 + packet.2).sum) :
    (∀ payloads, Fills payloads (packetShape packets) →
        received path (cut lengths (records (packetShape packets) payloads).flatten) =
          received path (records (packetShape packets) payloads)) ↔
      lengths = packets.map fun packet => 20 + packet.2 := by
  have sizes : (packetShape packets).map (fun record => 20 + record.2) =
      packets.map fun packet => 20 + packet.2 := by
    simp [packetShape, Function.comp_def]
  rw [← sizes] at total ⊢
  constructor
  · intro same
    have agrees : ∀ payloads, Fills payloads (packetShape packets) →
        (∀ chunk ∈ cut lengths (records (packetShape packets) payloads).flatten,
          20 ≤ chunk.length) ∧
        strip 20 (cut lengths (records (packetShape packets) payloads).flatten) =
          payloads.flatten := by
      intro payloads fills
      have finished := same payloads fills
      rw [received_eq empty (records_long fills), strip_records fills packetShape_headers]
        at finished
      have long := received_isSome (Option.isSome_iff_exists.mpr ⟨_, finished⟩)
      rw [received_eq empty long, Option.some.injEq, Prod.mk.injEq] at finished
      exact ⟨long, finished.1⟩
    have large : ∀ length ∈ lengths, 20 ≤ length := by
      have fills := fills_replicate 0 (packetShape packets)
      have enough := total.trans (records_flatten_length fills packetShape_headers).symm
      intro length member
      rw [← cut_lengths enough.le] at member
      obtain ⟨chunk, inside, rfl⟩ := List.mem_map.mp member
      exact (agrees _ fills).1 chunk inside
    have filledShape : ∀ record ∈ packetShape packets, 0 < record.2 := by
      intro record member
      obtain ⟨packet, inside, rfl⟩ := List.mem_map.mp member
      exact filled packet inside
    have bytesDiffer : Nontrivial UInt8 := ⟨⟨0, 1, by decide⟩⟩
    exact (strip_cut_iff (by decide) packetShape_headers filledShape large total).mp
      fun payloads fills => (agrees payloads fills).2
  · rintro rfl payloads fills
    rw [← records_lengths fills packetShape_headers, cut_of_lengths]

def twoPackets : List (MultipathHeaderDSN × ℕ) :=
  [({ dataSeqNum := 5, dataLen := 1 }, 1), ({ dataSeqNum := 6, dataLen := 1 }, 1)]

theorem received_separately :
    received {} (cut [21, 21] (records (packetShape twoPackets) [[7], [8]]).flatten) =
      received {} (records (packetShape twoPackets) [[7], [8]]) :=
  (received_eq_records_iff {} rfl twoPackets (by decide) [21, 21] rfl).mpr rfl [[7], [8]] rfl

-- Both packets arrive in one chunk: the second header is handed over as payload.
theorem received_together :
    Fills [[7], [8]] (packetShape twoPackets) ∧
      received {} (cut [42] (records (packetShape twoPackets) [[7], [8]]).flatten) ≠
        received {} (records (packetShape twoPackets) [[7], [8]]) :=
  ⟨rfl, by decide +kernel⟩

end FISim.Segmentation
