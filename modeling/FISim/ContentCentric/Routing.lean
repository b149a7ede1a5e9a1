import FISim.ContentCentric.Protocol
import Mathlib.Order.Bounds.Basic

/-!
The two tables of `CCNL4Protocol`: which host a content name leads to, and which
packets are handed to the lower layer.
-/

namespace FISim.ContentCentric

def slash : UInt8 := 47

/-- `contentName.find("/", pos)`, without a place where that is `npos`. -/
def findSlash (contentName : ContentName) (pos : ℕ) : Option ℕ :=
  ((contentName.drop pos).findIdx? fun character => character = slash).map (pos + ·)

theorem findSlash_some {contentName : ContentName} {pos next : ℕ}
    (found : findSlash contentName pos = some next) :
    pos ≤ next ∧ contentName[next]? = some slash ∧
      ∀ place, pos ≤ place → place < next → contentName[place]? ≠ some slash := by
  obtain ⟨index, first, rfl⟩ := Option.map_eq_some_iff.mp found
  obtain ⟨below, here, before⟩ := List.findIdx?_eq_some_iff_getElem.mp first
  simp only [decide_eq_true_eq, List.getElem_drop] at here before
  rw [List.length_drop] at below
  refine ⟨Nat.le_add_right pos index, ?_, ?_⟩
  · rw [List.getElem?_eq_getElem (by omega), here]
  · intro place lower upper same
    obtain ⟨inside, same⟩ := List.getElem?_eq_some_iff.mp same
    refine before (place - pos) (by omega) ?_
    simpa [show pos + (place - pos) = place by omega] using same

theorem findSlash_none {contentName : ContentName} {pos : ℕ}
    (missing : findSlash contentName pos = none) (place : ℕ) (lower : pos ≤ place) :
    contentName[place]? ≠ some slash := by
  rw [findSlash, Option.map_eq_none_iff, List.findIdx?_eq_none_iff] at missing
  intro same
  have member : slash ∈ contentName.drop pos := by
    refine List.mem_of_getElem? (i := place - pos) ?_
    rwa [List.getElem?_drop, show pos + (place - pos) = place by omega]
  simpa using missing slash member

theorem lt_length_of_slash {contentName : ContentName} {place : ℕ}
    (here : contentName[place]? = some slash) : place < contentName.length :=
  (List.getElem?_eq_some_iff.mp here).1

/-- The loop of `GetHostAddressFromContentName`. -/
def scanPrefixes (table : PrefixTable) (contentName : ContentName) (pos : ℕ)
    (hostAddress : UInt32) : UInt32 :=
  match _found : findSlash contentName (pos + 1) with
  | none => hostAddress
  | some next =>
      scanPrefixes table contentName next ((table (contentName.take next)).getD hostAddress)
termination_by contentName.length - pos
decreasing_by
  have later := (findSlash_some _found).1
  have inside := lt_length_of_slash (findSlash_some _found).2.1
  omega

/-- The registered prefixes that end before a slash behind `pos`, by their lengths. -/
def slashPrefixes (table : PrefixTable) (contentName : ContentName) (pos : ℕ) : Set ℕ :=
  {length | pos < length ∧ contentName[length]? = some slash ∧
    (table (contentName.take length)).isSome}

theorem slashPrefixes_next {table : PrefixTable} {contentName : ContentName} {pos next : ℕ}
    (found : findSlash contentName (pos + 1) = some next) :
    slashPrefixes table contentName pos =
      slashPrefixes table contentName next ∪
        {length | length = next ∧ (table (contentName.take next)).isSome} := by
  obtain ⟨later, here, between⟩ := findSlash_some found
  ext length
  constructor
  · rintro ⟨behind, ends, registered⟩
    rcases Nat.lt_trichotomy length next with before | rfl | after
    · exact absurd ends (between length behind before)
    · exact Or.inr ⟨rfl, registered⟩
    · exact Or.inl ⟨after, ends, registered⟩
  · rintro (⟨behind, ends, registered⟩ | ⟨rfl, registered⟩)
    · exact ⟨by omega, ends, registered⟩
    · exact ⟨later, here, registered⟩

/-- The loop leaves the address of the longest prefix that it meets, or the one it starts with. -/
theorem scanPrefixes_spec (table : PrefixTable) (contentName : ContentName) (pos : ℕ)
    (hostAddress : UInt32) :
    (∃ length, IsGreatest (slashPrefixes table contentName pos) length ∧
      table (contentName.take length) = some (scanPrefixes table contentName pos hostAddress)) ∨
    slashPrefixes table contentName pos = ∅ ∧
      scanPrefixes table contentName pos hostAddress = hostAddress := by
  induction pos, hostAddress using scanPrefixes.induct table contentName with
  | case1 pos hostAddress missing =>
      right
      refine ⟨?_, ?_⟩
      · rw [Set.eq_empty_iff_forall_notMem]
        rintro length ⟨behind, ends, -⟩
        exact findSlash_none missing length behind ends
      · rw [scanPrefixes]
        split
        · rfl
        · rename_i found
          rw [missing] at found
          cases found
  | case2 pos hostAddress next found ih =>
      have turn : scanPrefixes table contentName pos hostAddress =
          scanPrefixes table contentName next
            ((table (contentName.take next)).getD hostAddress) := by
        rw [scanPrefixes]
        split
        · rename_i missing
          rw [missing] at found
          cases found
        · rename_i other again
          rw [found] at again
          rw [Option.some.inj again]
      rw [turn, slashPrefixes_next found]
      rcases ih with ⟨length, greatest, address⟩ | ⟨empty, same⟩
      · left
        refine ⟨length, ⟨Or.inl greatest.1, ?_⟩, address⟩
        rintro other (later | ⟨rfl, -⟩)
        · exact greatest.2 later
        · exact Nat.le_of_lt greatest.1.1
      · rw [empty, Set.empty_union, same]
        cases registered : table (contentName.take next) with
        | none => exact Or.inr ⟨by simp, rfl⟩
        | some address =>
            left
            refine ⟨next, ⟨⟨rfl, rfl⟩, ?_⟩, registered⟩
            rintro other ⟨rfl, -⟩
            exact Nat.le_refl _

section Fold

variable (table : PrefixTable) (contentName : ContentName)

def lookAt (hostAddress : UInt32) (pos : ℕ) : UInt32 :=
  if contentName[pos]? = some slash then (table (contentName.take pos)).getD hostAddress
  else hostAddress

theorem foldl_lookAt_idle (start count : ℕ) (hostAddress : UInt32)
    (idle : ∀ place, start ≤ place → place < start + count →
      contentName[place]? ≠ some slash) :
    (List.range' start count).foldl (lookAt table contentName) hostAddress = hostAddress := by
  induction count generalizing start with
  | zero => rfl
  | succ count ih =>
      rw [List.range'_succ, List.foldl_cons, lookAt,
        if_neg (idle start (Nat.le_refl _) (by omega))]
      exact ih (start + 1) fun place lower upper => idle place (by omega) (by omega)

theorem foldl_lookAt (pos : ℕ) (hostAddress : UInt32) :
    (List.range' (pos + 1) (contentName.length - (pos + 1))).foldl (lookAt table contentName)
      hostAddress = scanPrefixes table contentName pos hostAddress := by
  induction pos, hostAddress using scanPrefixes.induct table contentName with
  | case1 pos hostAddress missing =>
      rw [foldl_lookAt_idle _ _ _ _ _ fun place lower _ => findSlash_none missing place lower,
        scanPrefixes]
      split
      · rfl
      · rename_i found
        rw [missing] at found
        cases found
  | case2 pos hostAddress next found ih =>
      obtain ⟨later, here, between⟩ := findSlash_some found
      have inside := lt_length_of_slash here
      have parts : List.range' (pos + 1) (contentName.length - (pos + 1)) =
          List.range' (pos + 1) (next - (pos + 1)) ++
            next :: List.range' (next + 1) (contentName.length - (next + 1)) := by
        obtain ⟨gap, rfl⟩ : ∃ gap, next = pos + 1 + gap := ⟨next - (pos + 1), by omega⟩
        rw [← List.range'_succ, Nat.add_sub_cancel_left, List.range'_append_1]
        congr 1
        omega
      rw [parts, List.foldl_append, foldl_lookAt_idle _ _ _ _ _
        fun place lower upper => between place lower (by omega), List.foldl_cons, lookAt,
        if_pos here, ih]
      conv_rhs => rw [scanPrefixes]
      split
      · rename_i missing
        rw [missing] at found
        cases found
      · rename_i other again
        rw [found] at again
        rw [Option.some.inj again]

/-- The fold over the places of the name is the loop of the source. -/
theorem getHostAddressFromContentName_eq :
    getHostAddressFromContentName table contentName =
      scanPrefixes table contentName 0 uninitialized :=
  foldl_lookAt table contentName 0 uninitialized

end Fold

section Longest

variable (table : PrefixTable) (contentName : ContentName)

/-- The registered prefixes from layer 1 on: those that end before a slash, and the whole name. -/
def registeredPrefixes : Set ℕ :=
  {length | (0 < length ∧ contentName[length]? = some slash ∨ length = contentName.length) ∧
    (table (contentName.take length)).isSome}

structure LongestMatch (hostAddress : UInt32) : Prop where
  longest : ∀ length address, IsGreatest (registeredPrefixes table contentName) length →
    table (contentName.take length) = some address → hostAddress = address
  missing : hostAddress = uninitialized ↔ registeredPrefixes table contentName = ∅

/-- A name that is registered itself has the address of its longest shorter prefix, and the longest
prefix does not have the address that stands for none. -/
structure ShorterServes : Prop where
  whole : ∀ address, table contentName = some address →
    ∃ length, IsGreatest (slashPrefixes table contentName 0) length ∧
      table (contentName.take length) = some address
  proper : ∀ length, IsGreatest (registeredPrefixes table contentName) length →
    table (contentName.take length) ≠ some uninitialized

variable {table contentName}

theorem registeredPrefixes_of_whole {address : UInt32}
    (registered : table contentName = some address) :
    IsGreatest (registeredPrefixes table contentName) contentName.length := by
  refine ⟨⟨Or.inr rfl, by simp [registered]⟩, ?_⟩
  rintro length ⟨⟨-, ends⟩ | rfl, -⟩
  · exact Nat.le_of_lt (lt_length_of_slash ends)
  · exact Nat.le_refl _

theorem registeredPrefixes_of_not_whole (unregistered : table contentName = none) :
    registeredPrefixes table contentName = slashPrefixes table contentName 0 := by
  ext length
  constructor
  · rintro ⟨⟨positive, ends⟩ | rfl, registered⟩
    · exact ⟨positive, ends, registered⟩
    · rw [List.take_length, unregistered] at registered
      cases registered
  · rintro ⟨positive, ends, registered⟩
    exact ⟨Or.inl ⟨positive, ends⟩, registered⟩

end Longest

/-- The address found is the one of the longest registered prefix exactly when a shorter prefix
serves a name that is itself registered. -/
theorem longestMatch_iff (table : PrefixTable) (contentName : ContentName) :
    LongestMatch table contentName (getHostAddressFromContentName table contentName) ↔
      ShorterServes table contentName := by
  rw [getHostAddressFromContentName_eq]
  have scanned := scanPrefixes_spec table contentName 0 uninitialized
  generalize scanPrefixes table contentName 0 uninitialized = hostAddress at scanned
  cases registered : table contentName with
  | some address =>
      have greatest := registeredPrefixes_of_whole registered
      have filled : registeredPrefixes table contentName ≠ ∅ :=
        Set.nonempty_iff_ne_empty.mp ⟨_, greatest.1⟩
      constructor
      · intro matched
        have same := matched.longest _ address greatest (by rwa [List.take_length])
        have named : hostAddress ≠ uninitialized := fun none_ => filled (matched.missing.mp none_)
        refine ⟨?_, ?_⟩
        · rintro other isOther
          obtain rfl := Option.some.inj (registered.symm.trans isOther)
          rcases scanned with ⟨length, longest, found⟩ | ⟨-, none_⟩
          · exact ⟨length, longest, by rw [found, same]⟩
          · exact absurd none_ named
        · intro length longest
          rw [longest.unique greatest, List.take_length, registered, ← same]
          exact fun none_ => named (Option.some.inj none_)
      · intro serves
        obtain ⟨length, longest, found⟩ := serves.whole address registered
        have same : hostAddress = address := by
          rcases scanned with ⟨other, longestToo, foundToo⟩ | ⟨empty, -⟩
          · rw [longest.unique longestToo, foundToo] at found
            exact Option.some.inj found
          · have member := longest.1
            rw [empty] at member
            cases member
        have named := serves.proper _ greatest
        rw [List.take_length, registered, ← same] at named
        refine ⟨?_, ?_⟩
        · intro other isOther otherGreatest isAddress
          rw [otherGreatest.unique greatest, List.take_length, registered] at isAddress
          rw [same]
          exact Option.some.inj isAddress
        · exact ⟨fun none_ => absurd (congrArg some none_) named, fun empty => absurd empty filled⟩
  | none =>
      have only := registeredPrefixes_of_not_whole registered
      rcases scanned with ⟨length, longest, found⟩ | ⟨empty, same⟩
      · have filled : registeredPrefixes table contentName ≠ ∅ := by
          rw [only]
          exact Set.nonempty_iff_ne_empty.mp ⟨_, longest.1⟩
        constructor
        · intro matched
          refine ⟨by simp [registered], ?_⟩
          intro other otherLongest
          rw [only] at otherLongest
          rw [otherLongest.unique longest, found]
          exact fun none_ => filled (matched.missing.mp (Option.some.inj none_))
        · intro serves
          have named := serves.proper length (by rwa [only])
          rw [found] at named
          refine ⟨?_, fun none_ => absurd (congrArg some none_) named,
            fun empty => absurd empty filled⟩
          intro other address otherLongest isAddress
          rw [only] at otherLongest
          rw [otherLongest.unique longest, found] at isAddress
          exact Option.some.inj isAddress
      · rw [← only] at empty
        constructor
        · intro _
          refine ⟨by simp [registered], ?_⟩
          intro other longest
          have member := longest.1
          rw [empty] at member
          cases member
        · intro _
          refine ⟨?_, fun _ => empty, fun _ => same⟩
          intro other address longest
          have member := longest.1
          rw [empty] at member
          cases member

/-- A name that is registered itself and has no other registered prefix. -/
theorem wholeName_missed :
    ¬ LongestMatch (fun contentPrefix => if contentPrefix = [47, 97] then some 0x0a000001 else none) [47, 97]
      (getHostAddressFromContentName
        (fun contentPrefix => if contentPrefix = [47, 97] then some 0x0a000001 else none) [47, 97]) := by
  intro matched
  have empty := matched.missing.mp (by decide)
  have member : 2 ∈ registeredPrefixes
      (fun contentPrefix => if contentPrefix = [47, 97] then some 0x0a000001 else none) [47, 97] :=
    ⟨Or.inr rfl, rfl⟩
  rw [empty] at member
  cases member

/-- What a call leaves when it hands nothing down, and when it may hand something down. -/
structure Careful (protocol : CCNL4Protocol) (allowed : Prop)
    (call : Packet → Option (CCNL4Protocol × Option Handed)) : Prop where
  sent : ∀ packet next handed, call packet = some (next, some handed) → allowed
  refused : ∀ packet next, call packet = some (next, none) → next = protocol

/-- An interest is sent only along a route, and data only where an interest is pending; otherwise
the tables stay as they are. -/
structure SendsOnRoutes (protocol : CCNL4Protocol) (contentName : ContentName) : Prop where
  interest : Careful protocol
    (registeredPrefixes protocol.contentPrefixToHostAddress contentName).Nonempty
    fun packet => protocol.sendInterest packet contentName
  data : Careful protocol (protocol.pendingInterestTable contentName).isSome
    fun packet => protocol.sendData packet contentName

/-- No header is made of a longer name, and none of its packets is sent. -/
def Sendable (contentName : ContentName) : Prop := contentName.length ≤ CCNHeader.nameLength

theorem serialize_isSome (contentName : ContentName) (type : UInt8) :
    (CCNHeader.serialize { contentName, type }).isSome ↔ Sendable contentName := by
  rw [CCNHeader.serialize, Sendable]
  split
  · rename_i short
    simpa using short
  · rename_i long
    simpa using long

theorem scan_unmatched {table : PrefixTable} {contentName : ContentName}
    (empty : registeredPrefixes table contentName = ∅) :
    getHostAddressFromContentName table contentName = uninitialized := by
  rw [getHostAddressFromContentName_eq]
  rcases scanPrefixes_spec table contentName 0 uninitialized with ⟨length, longest, -⟩ | ⟨-, same⟩
  · obtain ⟨positive, ends, registered⟩ := longest.1
    have member : length ∈ registeredPrefixes table contentName :=
      ⟨Or.inl ⟨positive, ends⟩, registered⟩
    rw [empty] at member
    cases member
  · exact same

theorem sendInterest_careful_iff (protocol : CCNL4Protocol) (contentName : ContentName) :
    (Careful protocol
      (registeredPrefixes protocol.contentPrefixToHostAddress contentName).Nonempty
      fun packet => protocol.sendInterest packet contentName) ↔
    (Sendable contentName →
      (registeredPrefixes protocol.contentPrefixToHostAddress contentName).Nonempty) := by
  constructor
  · intro careful sendable
    by_contra unmatched
    rw [Set.not_nonempty_iff_eq_empty] at unmatched
    obtain ⟨header, written⟩ :=
      Option.isSome_iff_exists.mp ((serialize_isSome contentName CCNHeader.interest).mpr sendable)
    have matched := careful.sent [] protocol (header ++ [], uninitialized) (by
      simp only [CCNL4Protocol.sendInterest, written, Option.bind_eq_bind, Option.bind_some,
        scan_unmatched unmatched, Option.pure_def]
      rfl)
    rw [unmatched] at matched
    exact Set.not_nonempty_empty matched
  · intro routed
    refine ⟨?_, ?_⟩
    · intro packet next handed called
      obtain ⟨header, written, -⟩ := Option.bind_eq_some_iff.mp called
      exact routed ((serialize_isSome contentName CCNHeader.interest).mp (by simp [written]))
    · intro packet next called
      obtain ⟨header, -, result⟩ := Option.bind_eq_some_iff.mp called
      exact (congrArg Prod.fst (Option.some.inj result)).symm

theorem sendData_careful_iff (protocol : CCNL4Protocol) (contentName : ContentName) :
    (Careful protocol (protocol.pendingInterestTable contentName).isSome
      fun packet => protocol.sendData packet contentName) ↔
    (Sendable contentName → (protocol.pendingInterestTable contentName).isSome) := by
  constructor
  · intro careful sendable
    by_contra unasked
    rw [Option.not_isSome_iff_eq_none] at unasked
    obtain ⟨header, written⟩ :=
      Option.isSome_iff_exists.mp ((serialize_isSome contentName CCNHeader.data).mpr sendable)
    have pending := careful.sent [] _ (header ++ [], uninitialized) (by
      simp only [CCNL4Protocol.sendData, written, Option.bind_eq_bind, Option.bind_some, unasked,
        Option.getD_none, Option.pure_def]
      rfl)
    simp [unasked] at pending
  · intro asked
    refine ⟨?_, ?_⟩
    · intro packet next handed called
      obtain ⟨header, written, -⟩ := Option.bind_eq_some_iff.mp called
      exact asked ((serialize_isSome contentName CCNHeader.data).mp (by simp [written]))
    · intro packet next called
      obtain ⟨header, written, result⟩ := Option.bind_eq_some_iff.mp called
      have pending := asked ((serialize_isSome contentName CCNHeader.data).mp (by simp [written]))
      obtain ⟨address, found⟩ := Option.isSome_iff_exists.mp pending
      obtain rfl := congrArg Prod.fst (Option.some.inj result)
      simp only [found, Option.getD_some]
      rw [← found, Function.update_eq_self]

/-- The refusals never happen where there is nothing to send along: the address that stands for
none is not the zero that they look for. -/
theorem sendsOnRoutes_iff (protocol : CCNL4Protocol) (contentName : ContentName) :
    SendsOnRoutes protocol contentName ↔
      (Sendable contentName →
        (registeredPrefixes protocol.contentPrefixToHostAddress contentName).Nonempty ∧
          (protocol.pendingInterestTable contentName).isSome) := by
  constructor
  · rintro ⟨interest, data⟩ sendable
    exact ⟨(sendInterest_careful_iff protocol contentName).mp interest sendable,
      (sendData_careful_iff protocol contentName).mp data sendable⟩
  · intro both
    exact ⟨(sendInterest_careful_iff protocol contentName).mpr fun sendable => (both sendable).1,
      (sendData_careful_iff protocol contentName).mpr fun sendable => (both sendable).2⟩

theorem unrouted_sent : ¬ SendsOnRoutes ⟨fun _ => none, fun _ => none⟩ [47, 97] := by
  intro sends
  have pending := sends.data.sent [] _ (_, uninitialized) rfl
  cases pending

end FISim.ContentCentric
