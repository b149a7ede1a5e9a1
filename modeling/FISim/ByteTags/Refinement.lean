import FISim.ByteTags.Following

/-!
Families of packets report for each of their bytes the tags that the byte carries.
-/

namespace FISim.ByteTags

open Cells SharedLogs Transition ByteTagList

/-- The tags of the items that are for the byte at the offset. -/
def reported (items : List (Item × List UInt8)) (offset : ℤ) : List Tag :=
  (items.filter fun entry => entry.1.start ≤ offset ∧ offset < entry.1.stop).map fun entry =>
    ⟨entry.1.tid, entry.2⟩

theorem reported_append (first second : List (Item × List UInt8)) (offset : ℤ) :
    reported (first ++ second) offset = reported first offset ++ reported second offset := by
  simp [reported]

/-- The items are for bytes of the packet only, and for each byte they give its tags. -/
structure Reports (items : List (Item × List UInt8)) (bytes : List (List Tag)) : Prop where
  inside : ∀ entry ∈ items, 0 ≤ entry.1.start ∧ entry.1.stop ≤ bytes.length
  tags : ∀ index < bytes.length, bytes[index]? = some (reported items index)

theorem marks_between {low high offset : ℤ} (spans : List Span) (lower : low ≤ offset)
    (upper : offset < high) :
    marks (spans.filter (Span.Between low high)) offset = marks spans offset := by
  unfold marks
  rw [List.filter_filter]
  congr 1
  apply List.filter_congr
  intro span _
  by_cases covers : span.Covers offset
  · have between : span.Between low high := by
      unfold Span.Between
      unfold Span.Covers at covers
      omega
    simp [covers, between]
  · simp [covers]

theorem Packet.byteTags_spec {mem : Memory} {p : Packet} {q : TaggedBytes}
    (represents : p.Represents mem q) (small : q.Small) :
    ∃ items, p.byteTags mem = some items ∧ Reports items q.bytes := by
  obtain ⟨spans, isSize, shows, within, size_le, stored_le, marks⟩ := represents
  obtain ⟨near, room⟩ := small
  obtain ⟨it, items, begun, ended, inside, whole⟩ := p.tags.forEach_beginAt
    (fun _ => mem) (readItem mem)
    (fun rest items =>
      (∀ entry ∈ items, 0 ≤ entry.1.start ∧ entry.1.stop ≤ p.size) ∧
      ∀ offset : ℤ, 0 ≤ offset → offset < p.size →
        reported items offset ++ ByteTags.marks rest offset = ByteTags.marks spans offset)
    0 p.size [] shows (by rw [shows.used]; omega) (within.inRange (by omega))
    (by
      rintro span rest item items ⟨inside, whole⟩ shown
      have item₁ := shown mem rfl
      have ordered := item₁.ordered
      have start := item₁.start
      have stop := item₁.stop
      refine ⟨items ++ [(item, span.payload)], ?_, ?_, ?_⟩
      · have room : item.buf.current + (item.buf.stop - item.buf.current) ≤ item.buf.stop := by omega
        simp only [readItem, TagBuffer.read, guard_of room, item₁.payload, Option.bind_eq_bind,
          Option.bind_some, Option.pure_def]
      · intro entry member
        rcases List.mem_append.mp member with old | new
        · exact inside entry old
        · rw [List.mem_singleton.mp new]
          simp only
          omega
      · intro offset lower upper
        have first : reported [(item, span.payload)] offset =
            if span.Covers offset then [span.toTag] else [] := by
          have same : (item.start ≤ offset ∧ offset < item.stop) ↔ span.Covers offset := by
            unfold Span.Covers
            omega
          simp only [reported, List.filter_cons, List.filter_nil, same, decide_eq_true_eq]
          split
          · simp only [List.map_cons, List.map_nil, item₁.tid]
          · rfl
        rw [reported_append, first, List.append_assoc, ← marks_cons]
        exact whole offset lower upper)
    (fun _ _ _ => rfl)
    ⟨by simp, fun offset lower upper => by
      rw [marks_between spans lower upper]
      rfl⟩
  refine ⟨items, ?_, ?_, ?_⟩
  · have size : int32 p.size = p.size := Packet.int32_ofNat (by omega)
    simp only [Packet.byteTags, size, begun, Option.bind_eq_bind, Option.bind_some]
    exact ended
  · rw [← isSize]
    exact inside
  · intro index below
    have same := whole index (by omega) (by omega)
    rw [marks_nil, List.append_nil] at same
    rw [same, marks index (by omega)]

def Family.logs (family : Family) : List Log := family.packets.flatMap fun p => p.tags.logs

structure Family.Shows (family : Family) (plain : List TaggedBytes) : Prop where
  holds : family.memory.Holds family.logs
  length : family.packets.length = plain.length
  represents : ∀ (index : ℕ) (p : Packet) (q : TaggedBytes), family.packets[index]? = some p →
    plain[index]? = some q → p.Represents family.memory q

namespace Family.Shows

variable {family : Family} {plain : List TaggedBytes} {index : ℕ} {p o : Packet} {q r : TaggedBytes}

def others (family : Family) (index : ℕ) : List Log :=
  (family.packets.eraseIdx index).flatMap fun p => p.tags.logs

theorem at_bytes (shows : family.Shows plain) (found : plain[index]? = some q) :
    ∃ p, family.packets[index]? = some p ∧ p.Represents family.memory q := by
  have inside := (List.getElem?_eq_some_iff.mp found).1
  rw [← shows.length] at inside
  exact ⟨family.packets[index], List.getElem?_eq_getElem inside,
    shows.represents index _ q (List.getElem?_eq_getElem inside) found⟩

theorem focus (shows : family.Shows plain) (found : family.packets[index]? = some p) :
    family.memory.Holds (p.tags.logs ++ others family index) := by
  obtain ⟨inside, rfl⟩ := List.getElem?_eq_some_iff.mp found
  have same := (List.getElem_cons_eraseIdx_perm inside).symm.flatMap_right fun p => p.tags.logs
  exact shows.holds.perm same

theorem mem_others {place : ℕ} (different : place ≠ index)
    (found : family.packets[place]? = some o) : o.tags.logs ⊆ others family index := by
  intro log member
  exact List.mem_flatMap.mpr ⟨o, List.mem_eraseIdx_iff_getElem?.mpr ⟨place, different, found⟩,
    member⟩

theorem mem_logs (found : family.packets[index]? = some o) : o.tags.logs ⊆ family.logs := by
  intro log member
  exact List.mem_flatMap.mpr ⟨o, List.mem_of_getElem? found, member⟩

theorem put {last : Memory} {p' : Packet} {q' : TaggedBytes} (shows : family.Shows plain)
    (found : family.packets[index]? = some p)
    (does : Packet.Does family.memory last p' q' (others family index)) :
    (family.put index (last, p')).Shows (plain.set index q') := by
  have length := shows.length
  have inside := (List.getElem?_eq_some_iff.mp found).1
  refine ⟨does.holds.perm ?_, ?_, ?_⟩
  · exact ((List.set_perm_cons_eraseIdx inside p').symm).flatMap_right fun p => p.tags.logs
  · simp only [Family.put, List.length_set, length]
  · intro place p₁ q₁ isPacket isBytes
    simp only [Family.put, List.getElem?_set] at isPacket isBytes
    by_cases here : index = place
    · rw [if_pos here, if_pos inside] at isPacket
      rw [if_pos here, if_pos (by rwa [← length])] at isBytes
      obtain rfl := Option.some.inj isPacket
      obtain rfl := Option.some.inj isBytes
      exact does.represents
    · rw [if_neg here] at isPacket isBytes
      exact (shows.represents place p₁ q₁ isPacket isBytes).kept
        (does.kept.subset (mem_others (Ne.symm here) isPacket))

theorem push {last : Memory} {p' : Packet} {q' : TaggedBytes} (shows : family.Shows plain)
    (does : Packet.Does family.memory last p' q' family.logs) :
    (family.push (last, p')).Shows (plain ++ [q']) := by
  have length := shows.length
  refine ⟨does.holds.perm ?_, ?_, ?_⟩
  · simp only [Family.logs, Family.push, List.flatMap_append, List.flatMap_singleton]
    exact List.perm_append_comm
  · simp only [Family.push, List.length_append, List.length_singleton, length]
  · intro place p₁ q₁ isPacket isBytes
    simp only [Family.push, List.getElem?_append, List.getElem?_singleton] at isPacket isBytes
    rw [length] at isPacket
    split at isPacket
    · rename_i old
      rw [if_pos old] at isBytes
      exact (shows.represents place p₁ q₁ isPacket isBytes).kept
        (does.kept.subset (mem_logs isPacket))
    · rename_i new
      rw [if_neg new] at isBytes
      split at isPacket
      · rename_i here
        rw [if_pos here] at isBytes
        obtain rfl := Option.some.inj isPacket
        obtain rfl := Option.some.inj isBytes
        exact does.represents
      · cases isPacket

theorem erase {last : Memory} (shows : family.Shows plain)
    (holds : last.Holds (others family index))
    (kept : family.memory.Kept last (others family index)) :
    Family.Shows { memory := last, packets := family.packets.eraseIdx index }
      (plain.eraseIdx index) := by
  have length := shows.length
  refine ⟨holds, ?_, ?_⟩
  · simp only [List.length_eraseIdx, length]
  · intro place p₁ q₁ isPacket isBytes
    have member : p₁.tags.logs ⊆ others family index := fun log inLogs =>
      List.mem_flatMap.mpr ⟨p₁, List.mem_of_getElem? isPacket, inLogs⟩
    simp only [List.getElem?_eraseIdx] at isPacket isBytes
    split at isPacket
    · rename_i before
      rw [if_pos before] at isBytes
      exact (shows.represents place p₁ q₁ isPacket isBytes).kept (kept.subset member)
    · rename_i behind
      rw [if_neg behind] at isBytes
      exact (shows.represents (place + 1) p₁ q₁ isPacket isBytes).kept (kept.subset member)

theorem step {operation : Operation} {reached : List TaggedBytes} (shows : family.Shows plain)
    (small : ∀ p ∈ reached, p.Small) (stepped : TaggedBytes.step plain operation = some reached) :
    ∃ next, family.step operation = some next ∧ next.Shows reached := by
  cases operation with
  | create size =>
      obtain rfl := Option.some.inj stepped
      exact ⟨_, rfl, shows.push (Packet.create_spec size shows.holds)⟩
  | copy source =>
      simp only [TaggedBytes.step, Option.bind_eq_bind, Option.bind_eq_some_iff] at stepped
      obtain ⟨r, isBytes, same⟩ := stepped
      obtain ⟨o, isPacket, represents⟩ := shows.at_bytes isBytes
      obtain rfl := Option.some.inj same
      exact ⟨_, by simp only [Family.step, isPacket]; rfl,
        shows.push (Packet.copy_spec shows.holds (mem_logs isPacket) represents)⟩
  | assign target source =>
      simp only [TaggedBytes.step, Option.bind_eq_bind, Option.bind_eq_some_iff] at stepped
      obtain ⟨q, isTarget, r, isSource, same⟩ := stepped
      obtain ⟨p, isPacket, -⟩ := shows.at_bytes isTarget
      obtain ⟨o, isOther, represents⟩ := shows.at_bytes isSource
      obtain rfl := Option.some.inj same
      by_cases self : target = source
      · subst self
        obtain rfl := Option.some.inj (isTarget.symm.trans isSource)
        refine ⟨family, by simp [Family.step, isPacket], ?_⟩
        obtain ⟨inside, isHere⟩ := List.getElem?_eq_some_iff.mp isTarget
        rw [← isHere, List.set_getElem_self]
        exact shows
      · refine ⟨_, by simp only [Family.step, isPacket, isOther, Option.bind_eq_bind,
          Option.bind_some, if_neg self]; rfl, ?_⟩
        exact shows.put isPacket (Packet.assign_spec (shows.focus isPacket)
          (mem_others (Ne.symm self) isOther) represents)
  | destroy target =>
      simp only [TaggedBytes.step, Option.bind_eq_bind, Option.bind_eq_some_iff] at stepped
      obtain ⟨q, isTarget, same⟩ := stepped
      obtain ⟨p, isPacket, -⟩ := shows.at_bytes isTarget
      obtain ⟨held, kept⟩ := holds_deallocate _ (shows.focus isPacket)
      obtain rfl := Option.some.inj same
      exact ⟨_, by simp only [Family.step, isPacket]; rfl, shows.erase held (kept _)⟩
  | createFragment source start length =>
      simp only [TaggedBytes.step, Option.bind_eq_bind, Option.bind_eq_some_iff,
        Option.guard_eq_some'] at stepped
      obtain ⟨r, isBytes, -, inside, same⟩ := stepped
      obtain ⟨o, isPacket, represents⟩ := shows.at_bytes isBytes
      obtain rfl := Option.some.inj same
      obtain ⟨near, -⟩ := small _ (List.mem_append_right _ List.mem_cons_self)
      obtain ⟨last, p', made, does⟩ := Packet.createFragment_spec shows.holds (mem_logs isPacket)
        represents inside near
      exact ⟨_, by simp only [Family.step, isPacket, made, Option.bind_eq_bind,
        Option.bind_some]; rfl, shows.push does⟩
  | addAtEnd target other =>
      simp only [TaggedBytes.step, Option.bind_eq_bind, Option.bind_eq_some_iff,
        Option.guard_eq_some'] at stepped
      obtain ⟨-, different, q, isTarget, r, isOther, same⟩ := stepped
      obtain ⟨p, isPacket, represents⟩ := shows.at_bytes isTarget
      obtain ⟨o, isAppended, representsO⟩ := shows.at_bytes isOther
      obtain rfl := Option.some.inj same
      have inside := (List.getElem?_eq_some_iff.mp isTarget).1
      obtain ⟨near, room⟩ := small _ (List.mem_set inside _)
      obtain ⟨last, p', made, does⟩ := Packet.addAtEnd_spec (shows.focus isPacket)
        (mem_others (Ne.symm different) isAppended) represents representsO near room
      refine ⟨family.put target (last, p'), ?_, shows.put isPacket does⟩
      simp only [Family.step, Option.bind_eq_bind]
      rw [guard_of different, Option.bind_some, isPacket, Option.bind_some, isAppended,
        Option.bind_some, made, Option.bind_some]
      rfl
  | edit target edit =>
      simp only [TaggedBytes.step, Option.bind_eq_bind, Option.bind_eq_some_iff] at stepped
      obtain ⟨q, isTarget, q', edited, same⟩ := stepped
      obtain ⟨p, isPacket, represents⟩ := shows.at_bytes isTarget
      obtain rfl := Option.some.inj same
      have inside := (List.getElem?_eq_some_iff.mp isTarget).1
      obtain ⟨last, p', made, does⟩ := Packet.edit_spec (shows.focus isPacket) represents edited
        (small _ (List.mem_set inside _))
      exact ⟨_, by simp only [Family.step, isPacket, made, Option.bind_eq_bind,
        Option.bind_some]; rfl, shows.put isPacket does⟩

end Family.Shows

def Family.empty (contents : ℕ → ℕ → UInt8) : Family where
  memory := { data := fun address => { data := contents address } }
  packets := []

theorem Family.Shows.empty (contents : ℕ → ℕ → UInt8) : (Family.empty contents).Shows [] where
  holds := ⟨⟨by simp [Family.empty, Family.logs], by simp [Family.empty, Family.logs],
    by simp [Family.empty, Family.logs]⟩, by simp [Family.empty], by simp [Family.empty],
      List.nodup_nil⟩
  length := rfl
  represents := by simp [Family.empty]

/-- Whatever the memory held, each packet of a run reports the tags that the same run on tagged
bytes gives to its bytes. -/
theorem tags_follow_bytes (contents : ℕ → ℕ → UInt8) (operations : List Operation)
    {packets : List TaggedBytes} (ran : run TaggedBytes.step [] operations = some packets)
    (fits : Guarded TaggedBytes.step TaggedBytes.Fits [] operations) :
    ∃ family, run Family.step (Family.empty contents) operations = some family ∧
      family.packets.length = packets.length ∧
      ∀ (index : ℕ) (p : Packet) (q : TaggedBytes), family.packets[index]? = some p →
        packets[index]? = some q → p.size = q.bytes.length ∧
          ∃ items, p.byteTags family.memory = some items ∧ Reports items q.bytes := by
  have follows : ∀ (family : Family) (operation : Operation) (plain reached : List TaggedBytes),
      (family.Shows plain ∧ ∀ q ∈ plain, q.Small) → TaggedBytes.Fits plain operation →
        TaggedBytes.step plain operation = some reached →
          ∃ next, family.step operation = some next ∧
            (next.Shows reached ∧ ∀ q ∈ reached, q.Small) := by
    rintro family operation plain reached ⟨shows, -⟩ fits stepped
    have small := fits reached stepped
    obtain ⟨next, done, shown⟩ := shows.step small stepped
    exact ⟨next, done, shown, small⟩
  obtain ⟨family, reached, shows, small⟩ := run_refines_guarded follows
    ⟨Family.Shows.empty contents, by simp⟩ fits ran
  refine ⟨family, reached, shows.length, ?_⟩
  intro index p q isPacket isBytes
  have represents := shows.represents index p q isPacket isBytes
  refine ⟨?_, Packet.byteTags_spec represents (small q (List.mem_of_getElem? isBytes))⟩
  obtain ⟨spans, carries⟩ := represents
  exact carries.size

def taggedRun : List Operation :=
  [.create 4, .edit 0 (.addByteTag ⟨7, [1, 2]⟩), .copy 0, .edit 0 (.addHeader 2),
    .edit 1 (.addByteTag ⟨8, [3]⟩), .edit 0 (.removeAtEnd 1), .edit 0 (.addTrailer 3),
    .addAtEnd 1 0, .createFragment 1 2 6, .edit 2 (.removeHeader 1),
    .edit 2 (.addByteTagTo ⟨9, []⟩ 0 1), .destroy 0]

def taggedBytes : List TaggedBytes :=
  [⟨[[⟨7, [1, 2]⟩, ⟨8, [3]⟩], [⟨7, [1, 2]⟩, ⟨8, [3]⟩], [⟨7, [1, 2]⟩, ⟨8, [3]⟩],
      [⟨7, [1, 2]⟩, ⟨8, [3]⟩], [], [], [⟨7, [1, 2]⟩], [⟨7, [1, 2]⟩], [⟨7, [1, 2]⟩], [], [], []],
      13, 53⟩,
    ⟨[[⟨7, [1, 2]⟩, ⟨8, [3]⟩, ⟨9, []⟩], [], [], [⟨7, [1, 2]⟩], [⟨7, [1, 2]⟩]], 17, 69⟩]

theorem tags_follow_bytes_tagged : ∃ family,
    run Family.step (Family.empty fun _ _ => 7) taggedRun = some family ∧
      family.packets.length = taggedBytes.length ∧
      ∀ (index : ℕ) (p : Packet) (q : TaggedBytes), family.packets[index]? = some p →
        taggedBytes[index]? = some q → p.size = q.bytes.length ∧
          ∃ items, p.byteTags family.memory = some items ∧ Reports items q.bytes :=
  tags_follow_bytes (fun _ _ => 7) taggedRun (by decide +kernel) (by decide +kernel)

end FISim.ByteTags
