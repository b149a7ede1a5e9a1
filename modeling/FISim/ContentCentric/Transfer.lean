import FISim.ContentCentric.Delivery

/-!
What content packets carry: the name in front of them, which is padded and read
back, and the chunks of the file behind it.
-/

namespace FISim.ContentCentric

open BigEndian

/-- `Deserialize`, which appends to the name that the header holds. -/
def deserializeInto (held : CCNHeader) : Reader CCNHeader := do
  let contentName ← readBytes CCNHeader.nameLength
  let type ← readU8
  return { contentName := held.contentName ++ contentName, type }

def padded (contentName : ContentName) : ContentName :=
  contentName ++ List.replicate (CCNHeader.nameLength - contentName.length) 0

theorem reads_into {header : CCNHeader} {bytes : Packet} (held : CCNHeader)
    (written : header.serialize = some bytes) :
    Reads (deserializeInto held) bytes
      { header with contentName := held.contentName ++ padded header.contentName } := by
  unfold CCNHeader.serialize at written
  split at written
  · rename_i fits
    have size : (padded header.contentName).length = CCNHeader.nameLength := by
      rw [padded, List.length_append, List.length_replicate]
      omega
    rw [← Option.some.inj written]
    exact (reads_readBytes size).bind ((reads_readU8 _).bind_pure _)
  · cases written

theorem serialize_size {header : CCNHeader} {bytes : Packet}
    (written : header.serialize = some bytes) : bytes.length = header.getSerializedSize := by
  unfold CCNHeader.serialize at written
  split at written
  · rename_i fits
    rw [← Option.some.inj written, List.length_append, List.length_append, List.length_replicate,
      writeU8_length, CCNHeader.getSerializedSize]
    omega
  · cases written

/-- The header is written in the size that it announces, and a receiver that decodes it into
another header and trims the name has its name and type. -/
def RoundTrips (held header : CCNHeader) : Prop :=
  ∃ bytes, header.serialize = some bytes ∧ bytes.length = header.getSerializedSize ∧
    ∀ payload, ∃ decoded, deserializeInto held (bytes ++ payload) = some (decoded, payload) ∧
      eraseNull decoded.contentName = some header.contentName ∧ decoded.type = header.type

/-- A name that the header holds already is the one that comes, if it ends in a null character;
otherwise the header holds none and leaves room for a null character. -/
def Readable (held : CCNHeader) (contentName : ContentName) : Prop :=
  if 0 ∈ held.contentName then
    held.contentName.takeWhile (fun character => character ≠ 0) = contentName
  else held.contentName = [] ∧ contentName.length < CCNHeader.nameLength

theorem takeWhile_append_of_mem {first : ContentName} (ends : 0 ∈ first) (second : ContentName) :
    (first ++ second).takeWhile (fun character => character ≠ 0) =
      first.takeWhile fun character => character ≠ 0 := by
  induction first with
  | nil => cases ends
  | cons character rest ih =>
      by_cases null : character = 0
      · simp [null]
      · have later : 0 ∈ rest := by
          rcases List.mem_cons.mp ends with here | later
          · exact absurd here.symm null
          · exact later
        rw [List.cons_append, List.takeWhile_cons_of_pos (by simpa using null),
          List.takeWhile_cons_of_pos (by simpa using null), ih later]

theorem eraseNull_into {held contentName : ContentName} (clean : 0 ∉ contentName)
    (short : contentName.length ≤ CCNHeader.nameLength) :
    eraseNull (held ++ padded contentName) =
      if 0 ∈ held then some (held.takeWhile fun character => character ≠ 0)
      else if contentName.length < CCNHeader.nameLength then some (held ++ contentName)
      else none := by
  split
  · rename_i ends
    rw [eraseNull, if_pos (List.mem_append_left _ ends), takeWhile_append_of_mem ends]
  · rename_i open_
    have clear : 0 ∉ held ++ contentName := by
      rw [List.mem_append]
      rintro (inside | inside)
      · exact open_ inside
      · exact clean inside
    rw [padded, ← List.append_assoc]
    split
    · rename_i room
      exact eraseNull_padded clear (by omega)
    · rename_i full
      rw [show CCNHeader.nameLength - contentName.length = 0 by omega, List.replicate_zero,
        List.append_nil, eraseNull, if_neg clear]

/-- For a name without null characters that the assertion admits, and any type. -/
theorem roundTrips_iff_readable (held header : CCNHeader) (clean : 0 ∉ header.contentName)
    (short : header.contentName.length ≤ CCNHeader.nameLength) :
    RoundTrips held header ↔ Readable held header.contentName := by
  obtain ⟨bytes, written⟩ : ∃ bytes, header.serialize = some bytes := ⟨_, if_pos short⟩
  have trimmed : eraseNull (held.contentName ++ padded header.contentName) = _ :=
    eraseNull_into clean short
  have same : RoundTrips held header ↔
      eraseNull (held.contentName ++ padded header.contentName) = some header.contentName := by
    constructor
    · rintro ⟨other, isOther, -, reads⟩
      obtain rfl := Option.some.inj (written.symm.trans isOther)
      obtain ⟨decoded, read, name, -⟩ := reads []
      rw [reads_into held written] at read
      obtain ⟨rfl, -⟩ := Prod.mk.inj (Option.some.inj read)
      exact name
    · intro name
      refine ⟨bytes, written, serialize_size written, fun payload => ?_⟩
      exact ⟨_, reads_into held written payload, name, rfl⟩
  rw [same, trimmed, Readable]
  split
  · rw [Option.some.injEq]
  · split
    · rename_i room
      rw [Option.some.injEq, List.append_left_eq_self, and_iff_left room]
    · rename_i full
      simp [full]

theorem roundTrips_iff_readable_fresh : RoundTrips {} { contentName := [47, 97], type := CCNHeader.data } ↔
    Readable {} [47, 97] :=
  roundTrips_iff_readable {} { contentName := [47, 97], type := CCNHeader.data } (by decide) (by decide)

/-- A name of 20 bytes comes without a null character, so that trimming it throws. -/
theorem longest_throws : ¬ RoundTrips {}
    { contentName := List.replicate 20 97, type := CCNHeader.data } := by
  rintro ⟨bytes, written, -, reads⟩
  obtain ⟨decoded, read, name, -⟩ := reads []
  rw [reads_into {} written] at read
  obtain ⟨rfl, -⟩ := Prod.mk.inj (Option.some.inj read)
  exact absurd name (by decide)

structure Ifstream where
  rest : List UInt8
  eof : Bool := false

/-- `read`, which meets the end of the file only where it asks for more than there is. -/
def Ifstream.read (file : Ifstream) (count : ℕ) : Packet × Ifstream :=
  if file.rest.length < count then (file.rest, { rest := [], eof := true })
  else (file.rest.take count, { file with rest := file.rest.drop count })

/-- The loop of `SendContentResponse`, with the packets that it passes to `SendData`. -/
def sendContent : ℕ → Ifstream → Option (List Packet)
  | 0, _ => none
  | turns + 1, file =>
      if file.eof then some []
      else do
        let (contentPacket, file) := file.read 16
        let later ← sendContent turns file
        return contentPacket :: later

theorem sendContent_eq (content : List UInt8) {turns : ℕ}
    (enough : content.length / 16 + 2 ≤ turns) :
    sendContent turns { rest := content } = some (contentBlocks content) := by
  induction content using contentBlocks.induct generalizing turns with
  | case1 content short =>
      obtain ⟨turns, rfl⟩ : ∃ less, turns = less + 2 := ⟨turns - 2, by omega⟩
      rw [contentBlocks, if_pos short, sendContent, if_neg (by simp)]
      simp [Ifstream.read, short, sendContent]
  | case2 content long ih =>
      obtain ⟨turns, rfl⟩ : ∃ less, turns = less + 1 := ⟨turns - 1, by omega⟩
      have later := @ih turns (by
        rw [List.length_drop]
        omega)
      rw [contentBlocks, if_neg long, sendContent, if_neg (by simp)]
      simp only [Ifstream.read, if_neg long, later]
      rfl

theorem sendContent_more {turns : ℕ} {file : Ifstream} {packets : List Packet}
    (sent : sendContent turns file = some packets) (more : ℕ) :
    sendContent (turns + more) file = some packets := by
  induction turns generalizing file packets with
  | zero => cases sent
  | succ turns ih =>
      rw [sendContent] at sent
      rw [Nat.add_right_comm, sendContent]
      split at sent
      · rename_i ended
        rwa [if_pos ended]
      · rename_i open_
        obtain ⟨later, rest, result⟩ := Option.bind_eq_some_iff.mp sent
        rw [if_neg open_]
        exact Option.bind_eq_some_iff.mpr ⟨later, ih rest, result⟩

theorem sendContent_only {content : List UInt8} {turns : ℕ} {packets : List Packet}
    (sent : sendContent turns { rest := content } = some packets) :
    packets = contentBlocks content := by
  have longer := sendContent_more sent (content.length / 16 + 2)
  rw [sendContent_eq content (by omega)] at longer
  exact (Option.some.inj longer).symm

theorem contentBlocks_length (content : List UInt8) :
    (contentBlocks content).length = content.length / 16 + 1 := by
  induction content using contentBlocks.induct with
  | case1 content short =>
      rw [contentBlocks, if_pos short, List.length_singleton]
      omega
  | case2 content long ih =>
      rw [contentBlocks, if_neg long, List.length_cons, ih, List.length_drop]
      omega

theorem contentBlocks_le (content : List UInt8) :
    ∀ block ∈ contentBlocks content, block.length ≤ 16 := by
  induction content using contentBlocks.induct with
  | case1 content short =>
      rw [contentBlocks, if_pos short]
      intro block member
      rw [List.mem_singleton.mp member]
      omega
  | case2 content long ih =>
      rw [contentBlocks, if_neg long]
      intro block member
      rcases List.mem_cons.mp member with rfl | later
      · exact List.length_take_le 16 content
      · exact ih block later

theorem contentBlocks_filled {content : List UInt8} (part : content.length % 16 ≠ 0) :
    ∀ block ∈ contentBlocks content, block ≠ [] := by
  induction content using contentBlocks.induct with
  | case1 content short =>
      rw [contentBlocks, if_pos short]
      intro block member
      rw [List.mem_singleton.mp member]
      rintro rfl
      exact part rfl
  | case2 content long ih =>
      rw [contentBlocks, if_neg long]
      intro block member
      rcases List.mem_cons.mp member with rfl | later
      · refine List.ne_nil_of_length_pos ?_
        rw [List.length_take]
        omega
      · refine ih ?_ block later
        rw [List.length_drop]
        omega

/-- The packets are the content in as few chunks of 16 bytes as there can be. -/
structure Chunked (content : List UInt8) (packets : List Packet) : Prop where
  filled : ∀ packet ∈ packets, packet ≠ [] ∧ packet.length ≤ 16
  count : packets.length = (content.length + 15) / 16
  content : packets.flatten = content

theorem contentBlocks_chunked_iff (content : List UInt8) :
    Chunked content (contentBlocks content) ↔ content.length % 16 ≠ 0 := by
  constructor
  · intro chunked
    have count := chunked.count
    rw [contentBlocks_length] at count
    omega
  · intro part
    refine ⟨?_, ?_, contentBlocks_flatten content⟩
    · intro packet member
      exact ⟨contentBlocks_filled part packet member, contentBlocks_le content packet member⟩
    · rw [contentBlocks_length]
      omega

/-- The loop always ends; the end of a file whose size is a multiple of 16 is met in an empty
chunk of its own. -/
theorem chunked_iff (content : List UInt8) :
    (∃ turns packets, sendContent turns { rest := content } = some packets) ∧
      ((∃ turns packets, sendContent turns { rest := content } = some packets ∧
        Chunked content packets) ↔ content.length % 16 ≠ 0) := by
  have ends := sendContent_eq content (Nat.le_refl _)
  refine ⟨⟨_, _, ends⟩, ?_⟩
  rw [← contentBlocks_chunked_iff]
  constructor
  · rintro ⟨turns, packets, sent, chunked⟩
    rwa [← sendContent_only sent]
  · intro chunked
    exact ⟨_, _, ends, chunked⟩

/-- The response to a file without any content is one empty packet. -/
theorem emptyFile_answered : sendContent 2 { rest := [] } = some [[]] ∧
    ¬ ∃ turns packets, sendContent turns { rest := [] } = some packets ∧ Chunked [] packets := by
  refine ⟨rfl, ?_⟩
  rintro ⟨turns, packets, sent, chunked⟩
  have count := chunked.count
  rw [sendContent_only sent, contentBlocks_length] at count
  cases count

end FISim.ContentCentric
