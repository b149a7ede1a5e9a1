import FISim.Buffers.Family

/-!
Buffers that share their blocks yield the bytes of plain byte strings.
-/

namespace FISim.Buffers

open Cells Transition

/-- The buffers of the family show the strings, each its own. -/
structure Family.Shows (family : Family) (strings : List ByteString) : Prop where
  holds : family.memory.Holds family.buffers []
  length : family.buffers.length = strings.length
  shows : ∀ (index : ℕ) (b : Buffer) (string : ByteString), family.buffers[index]? = some b →
    strings[index]? = some string → b.Shows family.memory string

namespace Family.Shows

variable {family : Family} {strings : List ByteString} {index : ℕ} {b : Buffer}
  {string : ByteString}

theorem at_string (shows : family.Shows strings) (found : strings[index]? = some string) :
    ∃ b, family.buffers[index]? = some b ∧ b.Shows family.memory string := by
  have inside := (List.getElem?_eq_some_iff.mp found).1
  rw [← shows.length] at inside
  exact ⟨family.buffers[index], List.getElem?_eq_getElem inside,
    shows.shows index _ string (List.getElem?_eq_getElem inside) found⟩

theorem others_perm (found : family.buffers[index]? = some b) :
    family.buffers.Perm (b :: family.buffers.eraseIdx index) := by
  obtain ⟨inside, rfl⟩ := List.getElem?_eq_some_iff.mp found
  exact (List.getElem_cons_eraseIdx_perm inside).symm

theorem set_perm (found : family.buffers[index]? = some b) (c : Buffer) :
    (family.buffers.set index c).Perm (c :: family.buffers.eraseIdx index) :=
  List.set_perm_cons_eraseIdx (List.getElem?_eq_some_iff.mp found).1 c

theorem other_mem {place : ℕ} {c : Buffer} (different : place ≠ index)
    (found : family.buffers[place]? = some c) : c ∈ family.buffers.eraseIdx index :=
  List.mem_eraseIdx_iff_getElem?.mpr ⟨place, different, found⟩

theorem focus (shows : family.Shows strings) (found : family.buffers[index]? = some b) :
    family.memory.Holds (b :: family.buffers.eraseIdx index) [] :=
  shows.holds.perm (others_perm found)

theorem push (shows : family.Shows strings) {memory : Memory}
    (holds : memory.Holds (b :: family.buffers) [])
    (kept : ∀ c ∈ family.buffers, c.Kept family.memory memory) (shown : b.Shows memory string) :
    (family.push memory b).Shows (strings ++ [string]) := by
  have length := shows.length
  refine ⟨holds.perm (List.perm_append_singleton b family.buffers).symm, ?_, ?_⟩
  · simp only [Family.push, List.length_append, List.length_singleton, length]
  · intro place c other isBuffer isString
    simp only [Family.push, List.getElem?_append, List.getElem?_singleton] at isBuffer isString
    rw [length] at isBuffer
    split at isBuffer
    · rename_i old
      rw [if_pos old] at isString
      exact (shows.shows place c other isBuffer isString).kept
        (kept c (List.mem_of_getElem? isBuffer))
        (shows.holds.formed c (List.mem_of_getElem? isBuffer))
    · rename_i new
      rw [if_neg new] at isString
      split at isBuffer
      · rename_i here
        rw [if_pos here] at isString
        obtain rfl := Option.some.inj isBuffer
        obtain rfl := Option.some.inj isString
        exact shown
      · cases isBuffer

theorem put (shows : family.Shows strings) {memory : Memory} {c : Buffer}
    (found : family.buffers[index]? = some b)
    (holds : memory.Holds (c :: family.buffers.eraseIdx index) [])
    (kept : ∀ d ∈ family.buffers.eraseIdx index, d.Kept family.memory memory)
    (shown : c.Shows memory string) :
    (family.put index memory c).Shows (strings.set index string) := by
  have length := shows.length
  refine ⟨holds.perm (set_perm found c).symm, ?_, ?_⟩
  · simp only [Family.put, List.length_set, length]
  · intro place d other isBuffer isString
    simp only [Family.put, List.getElem?_set] at isBuffer isString
    by_cases here : index = place
    · have inside := (List.getElem?_eq_some_iff.mp found).1
      rw [if_pos here, if_pos inside] at isBuffer
      rw [if_pos here, if_pos (by rwa [← length])] at isString
      obtain rfl := Option.some.inj isBuffer
      obtain rfl := Option.some.inj isString
      exact shown
    · rw [if_neg here] at isBuffer isString
      exact (shows.shows place d other isBuffer isString).kept
        (kept d (other_mem (Ne.symm here) isBuffer))
        (shows.holds.formed d (List.mem_of_getElem? isBuffer))

theorem erase (shows : family.Shows strings) {memory : Memory}
    (found : family.buffers[index]? = some b)
    (holds : memory.Holds (family.buffers.eraseIdx index) [])
    (kept : ∀ c : Buffer, c.Kept family.memory memory) :
    Family.Shows { memory, buffers := family.buffers.eraseIdx index } (strings.eraseIdx index) := by
  have length := shows.length
  have inside := (List.getElem?_eq_some_iff.mp found).1
  refine ⟨holds, ?_, ?_⟩
  · simp only [List.length_eraseIdx, length]
  · intro place c other isBuffer isString
    simp only [List.getElem?_eraseIdx] at isBuffer isString
    split at isBuffer
    · rename_i before
      rw [if_pos before] at isString
      exact (shows.shows place c other isBuffer isString).kept (kept c)
        (shows.holds.formed c (List.mem_of_getElem? isBuffer))
    · rename_i behind
      rw [if_neg behind] at isString
      exact (shows.shows (place + 1) c other isBuffer isString).kept (kept c)
        (shows.holds.formed c (List.mem_of_getElem? isBuffer))

theorem write (shows : family.Shows strings) {made : Memory} {c : Buffer} {front back low high : ℕ}
    {behind stays : Bool} {it : Iterator} {commands : List Command}
    {start reached : ByteString × ℕ} (found : family.buffers[index]? = some b)
    (grown : Buffer.Grown family.memory made b c (family.buffers.eraseIdx index) [] front back)
    (settled : Buffer.Settled stays b c (family.buffers.eraseIdx index))
    (window : Command.Window c behind front back low high) (shown : c.Shows made start.1)
    (points : c.Points it start.2)
    (fits : ∀ command ∈ commands, command.Fits family.buffers b stays behind)
    (ran : run (Command.plain strings index low high) start commands = some reached) :
    ∃ next, (family.put index made c).write it commands = some next ∧
      next.Shows (strings.set index reached.1) := by
  have elsewhere : ∀ other, other ≠ index →
      (family.buffers.set index c)[other]? = family.buffers[other]? := by
    intro other different
    rw [List.getElem?_set, if_neg (Ne.symm different)]
  have sources : ∀ (other : ℕ) (source : ByteString), other ≠ index →
      strings[other]? = some source → ∃ o, (family.buffers.set index c)[other]? = some o ∧
        family.buffers[other]? = some o ∧ o ∈ family.buffers.eraseIdx index ∧
          o.Shows made source := by
    intro other source different isString
    obtain ⟨o, isOther, shownO⟩ := shows.at_string isString
    have member := other_mem different isOther
    exact ⟨o, by rwa [elsewhere other different], isOther, member, shownO.kept (grown.kept o member)
      (shows.holds.formed o (List.mem_of_getElem? isOther))⟩
  have writing : Command.Writing made c (family.buffers.eraseIdx index) [] (made, it) start :=
    ⟨grown.holds, fun _ _ => .refl _ _, shown, points⟩
  obtain ⟨⟨memory, moved⟩, wrote, written⟩ := writing.run grown window settled sources fits ran
  refine ⟨family.put index memory c, ?_, ?_⟩
  · simp only [Family.write, Family.put, wrote, Option.bind_eq_bind, Option.bind_some]
    rfl
  · refine shows.put found written.holds ?_ written.shows
    intro d member
    exact (grown.kept d member).trans (written.kept d member)

theorem assign {target source : ℕ} {o : Buffer} (shows : family.Shows strings)
    (found : family.buffers[target]? = some b) (isOther : family.buffers[source]? = some o)
    (shown : o.Shows family.memory string) :
    (family.put target (b.assign family.memory o).1 o).Shows (strings.set target string) := by
  by_cases same : source = target
  · subst same
    obtain rfl := Option.some.inj (found.symm.trans isOther)
    have self : (b.assign family.memory b).1 = family.memory.recommend b.maxZeroAreaStart := by
      simp only [Buffer.assign, ne_eq, not_true_eq_false, ↓reduceIte]
    have unchanged : ∀ c : Buffer, c.Kept family.memory (b.assign family.memory b).1 := by
      rw [self]
      exact fun c => .of_eq rfl
    refine shows.put found ?_ (fun c _ => unchanged c)
      (shown.kept (unchanged b) (shows.holds.formed b (List.mem_of_getElem? found)))
    rw [self]
    exact (shows.focus found).recommend _
  · obtain ⟨holds, kept⟩ := (shows.focus found).assign (other_mem same isOther)
    exact shows.put found holds (fun c _ => kept c)
      (shown.kept (kept o) (shows.holds.formed o (List.mem_of_getElem? isOther)))

theorem addAtStart {target : ℕ} {start : UInt32} {commands : List Command}
    {reached : ByteString × ℕ} (shows : family.Shows strings)
    (found : family.buffers[target]? = some b) (shown : b.Shows family.memory string)
    (fits : b.FitsAtStart family.memory start)
    (ranges : ∀ command ∈ commands,
      command.Fits family.buffers b (b.roomAtStart family.memory start) false)
    (ran : run (Command.plain strings target 0 start.toNat)
      (ByteString.unwritten start.toNat ++ string, 0) commands = some reached) :
    ∃ next, family.step (.addAtStart target start commands) = some next ∧
      next.Shows (strings.set target reached.1) := by
  obtain ⟨made, c, added, grown, settled⟩ := Buffer.addAtStart_spec start (shows.focus found) fits
  have shownC := shown.grown grown
  rw [List.replicate_zero, List.append_nil] at shownC
  have size := grown.size
  have window : Command.Window c false start.toNat 0 0 start.toNat :=
    ⟨fun _ => Nat.le_refl _, by simp, by omega⟩
  obtain ⟨next, wrote, reaches⟩ := shows.write found grown settled window shownC
    c.points_atBegin ranges ran
  exact ⟨next, by simpa [Family.step, found, added] using wrote, reaches⟩

theorem addAtEnd {target : ℕ} {count : UInt32} {commands : List Command}
    {reached : ByteString × ℕ} (shows : family.Shows strings)
    (found : family.buffers[target]? = some b) (shown : b.Shows family.memory string)
    (fits : b.FitsAtEnd family.memory count)
    (ranges : ∀ command ∈ commands,
      command.Fits family.buffers b (b.roomAtEnd family.memory count) true)
    (ran : run (Command.plain strings target string.length (string.length + count.toNat))
      (string ++ ByteString.unwritten count.toNat, string.length + count.toNat) commands =
        some reached) :
    ∃ next, family.step (.addAtEnd target count commands) = some next ∧
      next.Shows (strings.set target reached.1) := by
  obtain ⟨made, c, added, grown, settled⟩ := Buffer.addAtEnd_spec count (shows.focus found) fits
  have shownC := shown.grown grown
  rw [List.replicate_zero, List.nil_append] at shownC
  have size := grown.size
  have length := shown.1
  have window : Command.Window c true 0 count.toNat string.length
      (string.length + count.toNat) := ⟨by simp, fun _ => ⟨by omega, by omega⟩, by omega⟩
  have points := Buffer.points_atEnd (grown.holds.formed c List.mem_cons_self)
  rw [show c.size = string.length + count.toNat by omega] at points
  obtain ⟨next, wrote, reaches⟩ := shows.write found grown settled window shownC points ranges ran
  exact ⟨next, by simpa [Family.step, found, added] using wrote, reaches⟩

theorem step {operation : Operation} {reached : List ByteString} (shows : family.Shows strings)
    (fits : family.Fits operation) (stepped : ByteString.step strings operation = some reached) :
    ∃ next, family.step operation = some next ∧ next.Shows reached := by
  cases operation with
  | create zeroSize =>
      obtain ⟨memory, b, made, fresh⟩ := Buffer.initializeData_spec zeroSize shows.holds fits
      rw [← Option.some.inj stepped]
      refine ⟨family.push memory b, by simp [Family.step, made],
        shows.push fresh.holds fresh.kept ⟨?_, ?_⟩⟩
      · rw [fresh.size, List.length_replicate]
      · intro index byte known
        rw [List.getElem?_replicate] at known
        split at known
        · rename_i inside
          rw [fresh.byteAt inside, ← Option.some.inj (Option.some.inj known)]
        · cases known
  | copy source =>
      simp only [ByteString.step, Option.bind_eq_bind, Option.bind_eq_some_iff] at stepped
      obtain ⟨string, found, same⟩ := stepped
      obtain ⟨o, isBuffer, shown⟩ := shows.at_string found
      rw [← Option.some.inj same]
      exact ⟨_, by simp [Family.step, isBuffer], shows.push
        (shows.holds.copy (List.mem_of_getElem? isBuffer)) (fun c _ => Buffer.copy_kept _ o c)
        (Buffer.copy_shows shown)⟩
  | assign target source =>
      simp only [ByteString.step, Option.bind_eq_bind, Option.bind_eq_some_iff] at stepped
      obtain ⟨_, found, string, isString, same⟩ := stepped
      obtain ⟨b, isBuffer, -⟩ := shows.at_string found
      obtain ⟨o, isOther, shown⟩ := shows.at_string isString
      rw [← Option.some.inj same]
      refine ⟨_, ?_, shows.assign isBuffer isOther shown⟩
      simp only [Family.step, isBuffer, isOther, Option.bind_eq_bind, Option.bind_some]
      rfl
  | destroy target =>
      simp only [ByteString.step, Option.bind_eq_bind, Option.bind_eq_some_iff] at stepped
      obtain ⟨_, found, same⟩ := stepped
      obtain ⟨b, isBuffer, -⟩ := shows.at_string found
      obtain ⟨holds, kept⟩ := (shows.focus isBuffer).destroy
      rw [← Option.some.inj same]
      exact ⟨_, by simp [Family.step, isBuffer], shows.erase isBuffer holds kept⟩
  | addAtStart target start commands =>
      simp only [ByteString.step, Option.bind_eq_bind, Option.bind_eq_some_iff] at stepped
      obtain ⟨string, found, reached, ran, same⟩ := stepped
      obtain ⟨b, isBuffer, shown⟩ := shows.at_string found
      rw [← Option.some.inj same]
      obtain ⟨enough, ranges⟩ := fits b isBuffer
      exact shows.addAtStart isBuffer shown enough ranges ran
  | addAtEnd target count commands =>
      simp only [ByteString.step, Option.bind_eq_bind, Option.bind_eq_some_iff] at stepped
      obtain ⟨string, found, reached, ran, same⟩ := stepped
      obtain ⟨b, isBuffer, shown⟩ := shows.at_string found
      rw [← Option.some.inj same]
      obtain ⟨enough, ranges⟩ := fits b isBuffer
      exact shows.addAtEnd isBuffer shown enough ranges ran
  | addBufferAtEnd target other =>
      simp only [ByteString.step, Option.bind_eq_bind, Option.bind_eq_some_iff,
        Option.guard_eq_some'] at stepped
      obtain ⟨-, different, string, found, suffix, isSuffix, same⟩ := stepped
      obtain ⟨b, isBuffer, shown⟩ := shows.at_string found
      obtain ⟨o, isOther, shownO⟩ := shows.at_string isSuffix
      obtain ⟨memory, c, added, holds, kept, reaches⟩ := Buffer.addBufferAtEnd_spec
        (shows.focus isBuffer) (other_mem different isOther) (fits b isBuffer o isOther) shown shownO
      rw [← Option.some.inj same]
      exact ⟨_, by simp [Family.step, isBuffer, isOther, added],
        shows.put isBuffer holds kept reaches⟩
  | removeAtStart target start =>
      simp only [ByteString.step, Option.bind_eq_bind, Option.bind_eq_some_iff] at stepped
      obtain ⟨string, found, same⟩ := stepped
      obtain ⟨b, isBuffer, shown⟩ := shows.at_string found
      obtain ⟨trimmed, size, bytes⟩ := Buffer.removeAtStart_spec start
        (shows.holds.formed b (List.mem_of_getElem? isBuffer)) (fits b isBuffer)
      rw [← Option.some.inj same]
      exact ⟨_, by simp [Family.step, isBuffer], shows.put isBuffer
        (trimmed.holds (shows.focus isBuffer)) (fun c _ => .refl _ c) (shown.drop size bytes)⟩
  | removeAtEnd target count =>
      simp only [ByteString.step, Option.bind_eq_bind, Option.bind_eq_some_iff] at stepped
      obtain ⟨string, found, same⟩ := stepped
      obtain ⟨b, isBuffer, shown⟩ := shows.at_string found
      obtain ⟨trimmed, size, bytes⟩ := Buffer.removeAtEnd_spec
        (shows.holds.formed b (List.mem_of_getElem? isBuffer)) count
      rw [← Option.some.inj same]
      exact ⟨_, by simp [Family.step, isBuffer], shows.put isBuffer
        (trimmed.holds (shows.focus isBuffer)) (fun c _ => .refl _ c) (shown.take size bytes)⟩
  | createFragment source start length =>
      simp only [ByteString.step, Option.bind_eq_bind, Option.bind_eq_some_iff,
        Option.guard_eq_some'] at stepped
      obtain ⟨string, found, -, inside, same⟩ := stepped
      obtain ⟨o, isBuffer, shown⟩ := shows.at_string found
      rw [← shown.1] at inside
      obtain ⟨holds, kept, reaches⟩ := Buffer.createFragment_spec shows.holds
        (List.mem_of_getElem? isBuffer) inside
      rw [← Option.some.inj same]
      exact ⟨_, by simp [Family.step, isBuffer],
        shows.push holds (fun c _ => kept c) (reaches string shown)⟩
  | createFullCopy source =>
      simp only [ByteString.step, Option.bind_eq_bind, Option.bind_eq_some_iff] at stepped
      obtain ⟨string, found, same⟩ := stepped
      obtain ⟨o, isBuffer, shown⟩ := shows.at_string found
      obtain ⟨memory, full, made, copied⟩ := Buffer.fullCopy_spec shows.holds
        (List.mem_of_getElem? isBuffer) (fits o isBuffer)
      rw [← Option.some.inj same]
      exact ⟨_, by simp [Family.step, isBuffer, made],
        shows.push copied.holds copied.kept (copied.shows string shown)⟩

end Family.Shows

/-- The readings of the buffer are the string's, wherever the bytes of the string are known. -/
structure Yields (mem : Memory) (b : Buffer) (string : ByteString) : Prop where
  getSize : b.getSize.toNat = string.length
  atBegin : b.Points b.atBegin 0
  atEnd : b.Points b.atEnd string.length
  next : ∀ it offset delta, b.Points it offset → offset + delta.toNat ≤ string.length →
    ∃ moved, it.next delta = some moved ∧ b.Points moved (offset + delta.toNat)
  prev : ∀ it offset delta, b.Points it offset → delta.toNat ≤ offset →
    ∃ moved, it.prev delta = some moved ∧ b.Points moved (offset - delta.toNat)
  peekU8 : ∀ it offset byte, b.Points it offset → string[offset]? = some (some byte) →
    it.peekU8 mem = some byte
  readU8 : ∀ it offset byte, b.Points it offset → string[offset]? = some (some byte) →
    ∃ moved, it.readU8 mem = some (byte, moved) ∧ b.Points moved (offset + 1)
  readNtohU16 : ∀ it offset bytes, b.Points it offset → bytes.length = 2 →
    bytes.map some <+: string.drop offset →
      ∃ moved, it.readNtohU16 mem = some (UInt16.ofNat (BigEndian.ofBytes bytes), moved) ∧
        b.Points moved (offset + 2)
  readNtohU32 : ∀ it offset bytes, b.Points it offset → bytes.length = 4 →
    bytes.map some <+: string.drop offset →
      ∃ moved, it.readNtohU32 mem = some (UInt32.ofNat (BigEndian.ofBytes bytes), moved) ∧
        b.Points moved (offset + 4)

section Yielding

open Buffer

variable {mem : Memory} {b : Buffer} {string : ByteString} {it : Iterator} {offset : ℕ}

theorem readNtoh_known {bytes : List UInt8} {count : ℕ} (shows : b.Shows mem string)
    (formed : b.Formed mem) (points : b.Points it offset) (length : bytes.length = count + 1)
    (known : bytes.map some <+: string.drop offset) :
    ∃ moved, it.readNtoh mem (count + 1) = some (bytes, moved) ∧
      b.Points moved (offset + (count + 1)) := by
  have size := shows.1
  have short := known.length_le
  rw [List.length_map, List.length_drop, length] at short
  have same : b.bytesFrom mem offset (count + 1) = bytes := by
    apply List.ext_getElem?
    intro index
    by_cases inside : index < count + 1
    · have written : bytes[index]? = some bytes[index] := List.getElem?_eq_getElem (by omega)
      have found : (string.drop offset)[index]? = some (some bytes[index]) := by
        obtain ⟨rest, whole⟩ := known
        rw [← whole, List.getElem?_append_left (by rw [List.length_map]; omega),
          List.getElem?_map, written]
        rfl
      rw [List.getElem?_drop] at found
      rw [bytesFrom_getElem? inside, written, shows.2 _ _ found]
    · rw [List.getElem?_eq_none (by rw [bytesFrom_length]; omega),
        List.getElem?_eq_none (by omega)]
  rw [← same]
  exact Iterator.readNtoh_spec points formed (by omega)

theorem yields_of_shows (shows : b.Shows mem string) (formed : b.Formed mem) :
    Yields mem b string where
  getSize := formed.getSize.trans shows.1
  atBegin := b.points_atBegin
  atEnd := shows.1 ▸ points_atEnd formed
  next it offset delta points within := points.next formed delta (by rwa [shows.1])
  prev it offset delta points within := points.prev delta within
  peekU8 it offset byte points known := by
    rw [Iterator.peekU8_spec points formed (shows.inside known), shows.2 offset byte known]
  readU8 it offset byte points known := by
    rw [← shows.2 offset byte known]
    exact Iterator.readU8_spec points formed (shows.inside known)
  readNtohU16 it offset bytes points length known := by
    obtain ⟨moved, read, reaches⟩ := readNtoh_known shows formed points length known
    exact ⟨moved, by simp [Iterator.readNtohU16, read], reaches⟩
  readNtohU32 it offset bytes points length known := by
    obtain ⟨moved, read, reaches⟩ := readNtoh_known shows formed points length known
    exact ⟨moved, by simp [Iterator.readNtohU32, read], reaches⟩

end Yielding

def Family.empty (contents : ℕ → ℕ → UInt8) : Family where
  memory := { data := fun address => { data := contents address } }
  buffers := []

theorem Family.Shows.empty (contents : ℕ → ℕ → UInt8) : (Family.empty contents).Shows [] where
  holds := ⟨by simp [Family.empty], by simp [Family.empty], by simp [Family.empty],
    by simp [Family.empty], by simp [Family.empty], List.nodup_nil⟩
  length := rfl
  shows := by simp [Family.empty]

/-- Whatever the memory held, the buffers of a fitting run yield the bytes of the same run on byte
strings. -/
theorem buffers_yield_strings (contents : ℕ → ℕ → UInt8) (operations : List Operation)
    {strings : List ByteString} (ran : run ByteString.step [] operations = some strings)
    (fits : Guarded Family.step Family.Fits (Family.empty contents) operations) :
    ∃ family, run Family.step (Family.empty contents) operations = some family ∧
      family.buffers.length = strings.length ∧
      ∀ (index : ℕ) (b : Buffer) (string : ByteString), family.buffers[index]? = some b →
        strings[index]? = some string → Yields family.memory b string := by
  have follows : ∀ (family : Family) (operation : Operation) (strings reached : List ByteString),
      family.Shows strings → family.Fits operation →
        ByteString.step strings operation = some reached →
          ∃ next, family.step operation = some next ∧ next.Shows reached :=
    fun _ _ _ _ shows fits stepped => shows.step fits stepped
  obtain ⟨family, reached, shows⟩ := run_refines follows (Family.Shows.empty contents) fits ran
  refine ⟨family, reached, shows.length, ?_⟩
  intro index b string isBuffer isString
  exact yields_of_shows (shows.shows index b string isBuffer isString)
    (shows.holds.formed b (List.mem_of_getElem? isBuffer))

def sharedRun : List Operation :=
  [.create 3, .addAtStart 0 2 [.write (.writeHtonU16 0x0102)], .copy 0,
    .addAtEnd 1 1 [.prev 1, .write (.writeU8 9)], .addAtStart 0 4 [.write (.writeHtonU32 5)],
    .createFragment 1 1 4, .create 0, .addAtEnd 3 5 [.prev 5, .writeRange 1 1 5],
    .removeAtStart 1 3, .addBufferAtEnd 1 0, .createFullCopy 0, .destroy 3, .assign 2 0]

def sharedStrings : List ByteString :=
  [[0, 0, 0, 5, 1, 2, 0, 0, 0], [0, 0, 9, 0, 0, 0, 5, 1, 2, 0, 0, 0], [0, 0, 0, 5, 1, 2, 0, 0, 0],
    [0, 0, 0, 5, 1, 2, 0, 0, 0]].map (List.map some)

theorem buffers_yield_strings_shared : ∃ family,
    run Family.step (Family.empty fun _ _ => 7) sharedRun = some family ∧
      family.buffers.length = sharedStrings.length ∧
      ∀ (index : ℕ) (b : Buffer) (string : ByteString), family.buffers[index]? = some b →
        sharedStrings[index]? = some string → Yields family.memory b string :=
  buffers_yield_strings (fun _ _ => 7) sharedRun (by decide +kernel) (by decide +kernel)

/-- A block that had a buffer before, whose zero area another buffer then lengthens. -/
def lengthenedRun : List Operation :=
  [.create 0, .addAtEnd 0 4 [.prev 4, .write (.writeHtonU32 0x01020304)], .destroy 0, .create 0,
    .create 1, .addAtEnd 1 1 [.prev 1, .write (.writeU8 9)], .addBufferAtEnd 0 1]

/-- The byte behind the zeros is written where the zeros would be if a block held them. -/
theorem trailing_byte_lost : ¬ ∀ (contents : ℕ → ℕ → UInt8) (operations : List Operation)
    (strings : List ByteString), run ByteString.step [] operations = some strings →
      ∃ family, run Family.step (Family.empty contents) operations = some family ∧
        family.buffers.length = strings.length ∧
        ∀ (index : ℕ) (b : Buffer) (string : ByteString), family.buffers[index]? = some b →
          strings[index]? = some string → Yields family.memory b string := by
  intro holds
  obtain ⟨family, ran, length, yields⟩ := holds (fun _ _ => 7) lengthenedRun
    [[some 0, some 9], [some 0, some 9]] (by decide +kernel)
  have read : (run Family.step (Family.empty fun _ _ => 7) lengthenedRun).bind (fun family =>
      family.buffers[0]?.bind fun b => (b.atBegin.next 1).bind fun it =>
        it.peekU8 family.memory) = some 1 := by decide +kernel
  have inside : 0 < family.buffers.length := by
    rw [length]
    decide
  have first : family.buffers[0]? = some family.buffers[0] := List.getElem?_eq_getElem inside
  have shown := yields 0 _ [some 0, some 9] first rfl
  obtain ⟨it, moved, points⟩ := shown.next _ 0 1 shown.atBegin (by decide)
  rw [ran, Option.bind_some, first, Option.bind_some, moved, Option.bind_some,
    shown.peekU8 it _ 9 points rfl] at read
  exact absurd read (by decide)

end FISim.Buffers
