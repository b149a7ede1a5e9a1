import FISim.Lib.Transition
import FISim.Lib.Turns
import FISim.Multipath.Connection

/-!
`ChoosePathRoundRobin`: when it returns, and how it shares the bursts of
`SendData` out among the connected paths.
-/

namespace FISim.PathChoice

open Transition Turns

variable {Path : Type}

-- The `int32_t` counter is converted to the `size_t` of the size, the remainder to `uint32_t`.
def unsigned (counter : Int32) : ℕ := counter.toInt64.toUInt64.toNat

def pathIdx (size : ℕ) (counter : Int32) : UInt32 := UInt32.ofNat (unsigned counter % size)

/-- The loop of `ChoosePathRoundRobin` as the source has it; `none` is a loop that has not come to
its end after that many rounds. -/
def chooseIndex (conn : MultipathConnection Path) (memory : Path → SinglePath) :
    ℕ → Int32 → Option (UInt32 × Int32)
  | 0, _ => none
  | rounds + 1, lastPathIndex =>
      let idx := pathIdx conn.paths.length lastPathIndex
      match conn.paths[idx.toNat]? with
      | none => none
      | some pointer =>
          if (memory pointer).pathState = .connected then some (idx, lastPathIndex + 1)
          else chooseIndex conn memory rounds (lastPathIndex + 1)

def Connected (conn : MultipathConnection Path) (memory : Path → SinglePath) (idx : ℕ) : Prop :=
  ∃ pointer ∈ conn.paths[idx]?, (memory pointer).pathState = .connected

instance (conn : MultipathConnection Path) (memory : Path → SinglePath) :
    DecidablePred (Connected conn memory) :=
  fun idx => inferInstanceAs (Decidable (∃ pointer ∈ conn.paths[idx]?, _))

def Hits (conn : MultipathConnection Path) (memory : Path → SinglePath) (counter : Int32) : Prop :=
  Connected conn memory (pathIdx conn.paths.length counter).toNat

instance (conn : MultipathConnection Path) (memory : Path → SinglePath) :
    DecidablePred (Hits conn memory) :=
  fun _ => inferInstanceAs (Decidable (Connected _ _ _))

/-- What is asked of the choice: it returns, with a connected path if there is one and else with
-1, which keeps `SendData` from taking packets out of the buffer. -/
structure Chooses [DecidableEq Path] (conn : MultipathConnection Path)
    (memory : Path → SinglePath) : Prop where
  connected : (∃ pointer ∈ conn.paths, (memory pointer).pathState = .connected) →
    ∃ rounds idx counter, chooseIndex conn memory rounds conn.lastPathIndex = some (idx, counter) ∧
      Connected conn memory idx.toNat
  nonePath : (∀ pointer ∈ conn.paths, (memory pointer).pathState ≠ .connected) →
    (∃ rounds counter, chooseIndex conn memory rounds conn.lastPathIndex = some (-1, counter)) ∧
      ∀ answer, ∃ ran, conn.sendData memory answer = some ran ∧ ran.conn.txBuffer = conn.txBuffer

theorem unsigned_eq (counter : Int32) :
    (unsigned counter : ℤ) =
      if 0 ≤ counter.toInt then counter.toInt else counter.toInt + 2 ^ 64 :=
  toUInt64_toInt64 counter

theorem unsigned_ofNat {idx : ℕ} (small : idx < 2 ^ 31) : unsigned (Int32.ofNat idx) = idx := by
  have number := unsigned_eq (Int32.ofNat idx)
  rw [Int32.toInt_ofNat_of_lt small, if_pos (by omega)] at number
  omega

theorem toInt_counter {start : Int32} {turn : ℕ} (fits : start.toInt + turn < 2 ^ 31) :
    (start + Int32.ofNat turn).toInt = start.toInt + turn := by
  have low := start.le_toInt
  have whole : (Int32.size : ℤ) = 2 ^ 32 := rfl
  rw [Int32.toInt_add, Int32.toInt_ofNat', Int.add_bmod_bmod]
  apply Int.bmod_eq_of_le <;> omega

/-- The counter goes round the paths one by one as long as it does not overflow and does not come
from below to zero, or the number of paths divides 2^64. -/
theorem unsigned_counter_mod {size turn : ℕ} {start : Int32} (fits : start.toInt + turn < 2 ^ 31)
    (straight : 0 ≤ start.toInt ∨ size ∣ 2 ^ 64 ∨ start.toInt + turn < 0) :
    unsigned (start + Int32.ofNat turn) % size = (unsigned start + turn) % size := by
  have before := unsigned_eq start
  have after := unsigned_eq (start + Int32.ofNat turn)
  rw [toInt_counter fits] at after
  rcases straight with positive | divides | negative
  · rw [if_pos positive] at before
    rw [if_pos (by omega)] at after
    congr 1
    omega
  · by_cases crossing : start.toInt < 0 ∧ 0 ≤ start.toInt + turn
    · rw [if_neg (by omega)] at before
      rw [if_pos crossing.2] at after
      obtain ⟨rounds, whole⟩ := divides
      have total : unsigned start + turn = unsigned (start + Int32.ofNat turn) + size * rounds := by
        rw [← whole]
        omega
      rw [total, Nat.add_mul_mod_self_left]
    · congr 1
      split at before <;> split at after <;> omega
  · rw [if_neg (by omega)] at before after
    congr 1
    omega

theorem pathIdx_lt {size : ℕ} (counter : Int32) (filled : 0 < size) :
    (pathIdx size counter).toNat < size := by
  have within := Nat.mod_lt (unsigned counter) filled
  have small := Nat.mod_le (unsigned counter % size) (2 ^ 32)
  rw [pathIdx, UInt32.toNat_ofNat']
  omega

theorem Connected.exists_path {conn : MultipathConnection Path} {memory : Path → SinglePath}
    {idx : ℕ} (connected : Connected conn memory idx) :
    ∃ pointer ∈ conn.paths, (memory pointer).pathState = .connected := by
  obtain ⟨pointer, found, isConnected⟩ := connected
  exact ⟨pointer, List.mem_of_getElem? found, isConnected⟩

theorem Connected.lt {conn : MultipathConnection Path} {memory : Path → SinglePath} {idx : ℕ}
    (connected : Connected conn memory idx) : idx < conn.paths.length := by
  obtain ⟨pointer, found, -⟩ := connected
  exact (List.getElem?_eq_some_iff.mp found).1

theorem chooseIndex_step (conn : MultipathConnection Path) (memory : Path → SinglePath)
    (rounds : ℕ) (counter : Int32) (filled : conn.paths ≠ []) :
    chooseIndex conn memory (rounds + 1) counter =
      if Hits conn memory counter then some (pathIdx conn.paths.length counter, counter + 1)
      else chooseIndex conn memory rounds (counter + 1) := by
  have inside := pathIdx_lt counter (List.length_pos_iff.mpr filled)
  obtain ⟨pointer, found⟩ : ∃ pointer,
      conn.paths[(pathIdx conn.paths.length counter).toNat]? = some pointer :=
    ⟨_, List.getElem?_eq_getElem inside⟩
  simp only [chooseIndex, Hits, Connected, found, Option.mem_def, Option.some.injEq,
    exists_eq_left']

theorem chooseIndex_hits {conn : MultipathConnection Path} {memory : Path → SinglePath}
    {rounds : ℕ} {start : Int32} {found : UInt32 × Int32}
    (chosen : chooseIndex conn memory rounds start = some found) :
    ∃ counter, Hits conn memory counter ∧ found.1 = pathIdx conn.paths.length counter := by
  induction rounds generalizing start with
  | zero => simp [chooseIndex] at chosen
  | succ rounds ih =>
      by_cases empty : conn.paths = []
      · simp [chooseIndex, empty] at chosen
      · rw [chooseIndex_step conn memory rounds start empty] at chosen
        split at chosen
        · rename_i hits
          exact ⟨start, hits, by rw [← Option.some.inj chosen]⟩
        · exact ih chosen

theorem counter_next (start : Int32) (turn : ℕ) :
    start + Int32.ofNat (turn + 1) = start + 1 + Int32.ofNat turn := by
  rw [Nat.add_comm, Int32.ofNat_add, Int32.add_assoc]
  rfl

theorem chooseIndex_eq {conn : MultipathConnection Path} {memory : Path → SinglePath}
    {rounds turn : ℕ} {start : Int32} (enough : turn < rounds) (filled : conn.paths ≠ [])
    (missed : ∀ earlier < turn, ¬ Hits conn memory (start + Int32.ofNat earlier))
    (hits : Hits conn memory (start + Int32.ofNat turn)) :
    chooseIndex conn memory rounds start =
      some (pathIdx conn.paths.length (start + Int32.ofNat turn),
        start + Int32.ofNat (turn + 1)) := by
  induction turn generalizing rounds start with
  | zero =>
      obtain ⟨rounds, rfl⟩ := Nat.exists_eq_succ_of_ne_zero (by omega : rounds ≠ 0)
      rw [counter_next]
      have stays : ∀ counter : Int32, counter + Int32.ofNat 0 = counter := Int32.add_zero
      rw [stays] at hits ⊢
      rw [chooseIndex_step _ _ _ _ filled, if_pos hits, stays]
  | succ turn ih =>
      obtain ⟨rounds, rfl⟩ := Nat.exists_eq_succ_of_ne_zero (by omega : rounds ≠ 0)
      have first : ¬ Hits conn memory start := by
        have now := missed 0 (by omega)
        rwa [show start + Int32.ofNat 0 = start from Int32.add_zero start] at now
      rw [counter_next] at hits ⊢
      have later : ∀ earlier < turn, ¬ Hits conn memory (start + 1 + Int32.ofNat earlier) := by
        intro earlier before
        rw [← counter_next]
        exact missed (earlier + 1) (by omega)
      rw [chooseIndex_step _ _ _ _ filled, if_neg first, ih (by omega) later hits,
        ← counter_next start (turn + 1)]

theorem counter_reached (start counter : Int32) :
    ∃ turn : ℕ, start + Int32.ofNat turn = counter := by
  refine ⟨(counter - start).toUInt32.toNat, ?_⟩
  have back : Int32.ofNat (counter - start).toUInt32.toNat = counter - start := by
    apply congrArg UInt32.toInt32 (UInt32.ofNat_toNat (x := (counter - start).toUInt32))
  rw [back, Int32.add_comm, Int32.sub_add_cancel]

theorem exists_first {conn : MultipathConnection Path} {memory : Path → SinglePath}
    {start : Int32} {turn : ℕ} (hits : Hits conn memory (start + Int32.ofNat turn)) :
    ∃ first ≤ turn, Hits conn memory (start + Int32.ofNat first) ∧
      ∀ earlier < first, ¬ Hits conn memory (start + Int32.ofNat earlier) := by
  have some_ : ∃ turn : ℕ, Hits conn memory (start + Int32.ofNat turn) := ⟨turn, hits⟩
  exact ⟨Nat.find some_, Nat.find_min' some_ hits, Nat.find_spec some_,
    fun earlier before => Nat.find_min some_ before⟩

theorem Hits.filled {conn : MultipathConnection Path} {memory : Path → SinglePath}
    {counter : Int32} (hits : Hits conn memory counter) : conn.paths ≠ [] :=
  List.ne_nil_of_length_pos (Nat.zero_lt_of_lt hits.lt)

theorem Chooses.hits [DecidableEq Path] {conn : MultipathConnection Path}
    {memory : Path → SinglePath} (chooses : Chooses conn memory) :
    ∃ counter, Hits conn memory counter := by
  by_cases connected : ∃ pointer ∈ conn.paths, (memory pointer).pathState = .connected
  · obtain ⟨rounds, idx, counter, chosen, -⟩ := chooses.connected connected
    obtain ⟨hit, hits, -⟩ := chooseIndex_hits chosen
    exact ⟨hit, hits⟩
  · push Not at connected
    obtain ⟨⟨rounds, counter, chosen⟩, -⟩ := chooses.nonePath connected
    obtain ⟨hit, hits, -⟩ := chooseIndex_hits chosen
    exact ⟨hit, hits⟩

/-- The choice returns as asked exactly if some counter stands at a connected path: without one the
loop has no exit. -/
theorem chooses_iff [DecidableEq Path] (conn : MultipathConnection Path)
    (memory : Path → SinglePath) :
    Chooses conn memory ↔ ∃ counter, Hits conn memory counter := by
  constructor
  · exact Chooses.hits
  · rintro ⟨counter, hits⟩
    constructor
    · intro _
      obtain ⟨turn, rfl⟩ := counter_reached conn.lastPathIndex counter
      obtain ⟨first, -, found, missed⟩ := exists_first hits
      exact ⟨first + 1, _, _, chooseIndex_eq (Nat.lt_succ_self first) hits.filled missed found,
        found⟩
    · intro unconnected
      obtain ⟨pointer, member, connected⟩ := hits.exists_path
      exact absurd connected (unconnected pointer member)

theorem hits_iff (conn : MultipathConnection Path) (memory : Path → SinglePath)
    (few : conn.paths.length ≤ 2 ^ 31) :
    (∃ counter, Hits conn memory counter) ↔
      ∃ pointer ∈ conn.paths, (memory pointer).pathState = .connected := by
  constructor
  · rintro ⟨counter, hits⟩
    exact hits.exists_path
  · rintro ⟨pointer, member, connected⟩
    obtain ⟨idx, inside, found⟩ := List.getElem_of_mem member
    refine ⟨Int32.ofNat idx, pointer, ?_, connected⟩
    have same : (pathIdx conn.paths.length (Int32.ofNat idx)).toNat = idx := by
      have small : idx < UInt32.size := by
        have whole : UInt32.size = 2 ^ 32 := rfl
        omega
      rw [pathIdx, unsigned_ofNat (by omega), Nat.mod_eq_of_lt inside,
        UInt32.toNat_ofNat_of_lt' small]
    rw [same, Option.mem_def, List.getElem?_eq_getElem inside, found]

/-- Data for a connection whose only path has been closed: the loop never ends. -/
theorem closed_never_returns :
    ∃ (conn : MultipathConnection Unit) (memory : Unit → SinglePath),
      (∀ pointer ∈ conn.paths, (memory pointer).pathState ≠ .connected) ∧
      (∀ rounds, chooseIndex conn memory rounds conn.lastPathIndex = none) ∧
      ¬ Chooses conn memory := by
  let conn : MultipathConnection Unit := { paths := [()], connState := .connect }
  let memory : Unit → SinglePath := fun _ => { pathState := .closed }
  have unconnected : ¬ ∃ counter, Hits conn memory counter := by
    rw [hits_iff conn memory (by decide)]
    decide
  refine ⟨conn, memory, by decide, ?_, fun chooses => unconnected chooses.hits⟩
  intro rounds
  cases chosen : chooseIndex conn memory rounds conn.lastPathIndex with
  | none => rfl
  | some found =>
      obtain ⟨counter, hits, -⟩ := chooseIndex_hits chosen
      exact absurd ⟨counter, hits⟩ unconnected

theorem choosePathLoop_step {conn : MultipathConnection Path} (memory : Path → SinglePath)
    {counter : Int32} (small : unsigned counter % conn.paths.length < 2 ^ 32)
    (filled : conn.paths ≠ []) :
    ∃ pointer, ∀ rounds, conn.choosePathLoop memory (rounds + 1) counter =
      if Hits conn memory counter then some (pointer, counter + 1)
      else conn.choosePathLoop memory rounds (counter + 1) := by
  have same : (pathIdx conn.paths.length counter).toNat = unsigned counter % conn.paths.length :=
    UInt32.toNat_ofNat_of_lt' small
  have inside := Nat.mod_lt (unsigned counter) (List.length_pos_iff.mpr filled)
  obtain ⟨pointer, found⟩ : ∃ pointer,
      conn.paths[unsigned counter % conn.paths.length]? = some pointer :=
    ⟨_, List.getElem?_eq_getElem inside⟩
  refine ⟨pointer, fun rounds => ?_⟩
  have choice : conn.paths[counter.toInt64.toUInt64.toNat % conn.paths.length]? = some pointer :=
    found
  simp only [MultipathConnection.choosePathLoop, choice, Hits, Connected, same, found,
    Option.mem_def, Option.some.injEq, exists_eq_left']

theorem choosePathLoop_eq {conn : MultipathConnection Path} {memory : Path → SinglePath}
    {rounds turn : ℕ} {start : Int32} (enough : turn < rounds) (filled : conn.paths ≠ [])
    (small : ∀ earlier ≤ turn,
      unsigned (start + Int32.ofNat earlier) % conn.paths.length < 2 ^ 32)
    (missed : ∀ earlier < turn, ¬ Hits conn memory (start + Int32.ofNat earlier))
    (hits : Hits conn memory (start + Int32.ofNat turn)) :
    ∃ pointer, conn.choosePathLoop memory rounds start =
      some (pointer, start + Int32.ofNat (turn + 1)) := by
  have stays : ∀ counter : Int32, counter + Int32.ofNat 0 = counter := Int32.add_zero
  induction turn generalizing rounds start with
  | zero =>
      obtain ⟨rounds, rfl⟩ := Nat.exists_eq_succ_of_ne_zero (by omega : rounds ≠ 0)
      have within := small 0 (by omega)
      rw [stays] at hits within
      obtain ⟨pointer, looped⟩ := choosePathLoop_step memory within filled
      refine ⟨pointer, ?_⟩
      rw [looped, if_pos hits, counter_next, stays]
  | succ turn ih =>
      obtain ⟨rounds, rfl⟩ := Nat.exists_eq_succ_of_ne_zero (by omega : rounds ≠ 0)
      have within := small 0 (by omega)
      have first := missed 0 (by omega)
      rw [stays] at within first
      rw [counter_next] at hits
      obtain ⟨pointer, later⟩ : ∃ pointer, conn.choosePathLoop memory rounds (start + 1) =
          some (pointer, start + 1 + Int32.ofNat (turn + 1)) := by
        apply ih (by omega)
        · intro earlier before
          rw [← counter_next]
          exact small (earlier + 1) (by omega)
        · intro earlier before
          rw [← counter_next]
          exact missed (earlier + 1) (by omega)
        · exact hits
      obtain ⟨other, looped⟩ := choosePathLoop_step memory within filled
      refine ⟨pointer, ?_⟩
      rw [looped, if_neg first, later, ← counter_next start (turn + 1)]

structure Bursts (Path : Type) where
  conn : MultipathConnection Path
  memory : Path → SinglePath
  -- history: the indices of the paths that the bursts were given to
  chosen : List ℕ := []

inductive Action
  | send (payload : Packet)
  | sendData (answer : ℕ → SocketAnswer)

def Bursts.burst (state : Bursts Path) : List ℕ :=
  if state.conn.txBuffer = [] then []
  else (chooseIndex state.conn state.memory (2 * state.conn.paths.length)
    state.conn.lastPathIndex).toList.map fun found => found.1.toNat

def step [DecidableEq Path] (before : Bursts Path) : Action → Option (Bursts Path)
  | .send payload => some { before with conn := (before.conn.send payload).conn }
  | .sendData answer => do
      let ran ← before.conn.sendData before.memory answer
      return { conn := ran.conn, memory := ran.memory, chosen := before.chosen ++ before.burst }

/-- A burst finds a connected path before the counter overflows; and where the counter started
below zero, it does so before zero, unless the number of paths divides 2^64. -/
def Fits (first : Int32) (state : Bursts Path) : Action → Prop
  | .send _ => True
  | .sendData _ => state.conn.txBuffer ≠ [] → ∃ turn : ℕ,
      state.conn.lastPathIndex.toInt + turn + 1 < 2 ^ 31 ∧
      Hits state.conn state.memory (state.conn.lastPathIndex + Int32.ofNat turn) ∧
      (0 ≤ first.toInt ∨ state.conn.paths.length ≤ 2 ^ 32 ∧
        (state.conn.paths.length ∣ 2 ^ 64 ∨ state.conn.lastPathIndex.toInt + turn < 0))

/-- The counter has gone round the paths, and the bursts were given to the connected ones. -/
structure Turned (start state : Bursts Path) : Prop where
  paths : state.conn.paths = start.conn.paths
  fixed : ∀ pointer, (state.memory pointer).pathState = (start.memory pointer).pathState
  ahead : 0 ≤ start.conn.lastPathIndex.toInt → 0 ≤ state.conn.lastPathIndex.toInt
  turned : ∃ count,
    state.chosen = (turns start.conn.paths.length (unsigned start.conn.lastPathIndex) count).filter
      (fun idx => Connected start.conn start.memory idx) ∧
    (0 ≤ start.conn.lastPathIndex.toInt ∨ start.conn.paths.length ∣ 2 ^ 64 ∨
        state.conn.lastPathIndex.toInt < 0 →
      unsigned state.conn.lastPathIndex % start.conn.paths.length =
        (unsigned start.conn.lastPathIndex + count) % start.conn.paths.length)

theorem Turned.connected_iff {start state : Bursts Path} (turned : Turned start state) (idx : ℕ) :
    Connected state.conn state.memory idx ↔ Connected start.conn start.memory idx := by
  simp only [Connected, turned.paths, turned.fixed]

theorem sendData_filled [DecidableEq Path] {conn : MultipathConnection Path}
    {memory : Path → SinglePath} (answer : ℕ → SocketAnswer) (filled : conn.txBuffer ≠ [])
    {pointer : Path} {counter : Int32}
    (chosen : conn.choosePathLoop memory (2 * conn.paths.length) conn.lastPathIndex =
      some (pointer, counter)) :
    ∃ ran, conn.sendData memory answer = some ran ∧ ran.conn.paths = conn.paths ∧
      ran.conn.lastPathIndex = counter ∧
      ∀ other, (ran.memory other).pathState = (memory other).pathState := by
  have choice : conn.choosePathRoundRobin memory =
      some (pointer, { conn with lastPathIndex := counter }) := by
    simp only [MultipathConnection.choosePathRoundRobin, chosen]
    rfl
  obtain ⟨ran, happened⟩ : ∃ ran, conn.sendData memory answer = some ran := by
    simp only [MultipathConnection.sendData, if_neg filled, choice]
    exact ⟨_, rfl⟩
  refine ⟨ran, happened, ?_⟩
  rcases MultipathConnection.sendData_cases happened with
    ⟨empty, -⟩ | ⟨-, found, index, bytes, again, rfl⟩
  · exact absurd empty filled
  · have same := congrArg (fun choice => choice.map fun choice => choice.2.lastPathIndex)
      (again.symm.trans choice)
    refine ⟨rfl, Option.some.inj same, fun other => ?_⟩
    by_cases here : other = found
    · subst here
      simp
    · simp [here]

theorem Hits.congr {conn : MultipathConnection Path} {memory : Path → SinglePath}
    {first second : Int32} (hits : Hits conn memory first)
    (same : unsigned first % conn.paths.length = unsigned second % conn.paths.length) :
    Hits conn memory second := by
  unfold Hits pathIdx at *
  rwa [← same]

theorem filter_turns {size start turn : ℕ} {meets : ℕ → Prop} [DecidablePred meets]
    (missed : ∀ earlier < turn, ¬ meets ((start + earlier) % size))
    (met : meets ((start + turn) % size)) :
    (turns size start (turn + 1)).filter (fun place => meets place) = [(start + turn) % size] := by
  have none : (turns size start turn).filter (fun place => meets place) = [] := by
    rw [List.filter_eq_nil_iff]
    intro place member
    obtain ⟨earlier, before, rfl⟩ := mem_turns.mp member
    simpa using missed earlier before
  rw [turns_succ, List.filter_append, none, List.nil_append, List.filter_singleton]
  simp [met]

theorem counter_places {size turn : ℕ} {counter : Int32} (room : counter.toInt + turn + 1 < 2 ^ 31)
    (positive : 0 < size)
    (straight : 0 ≤ counter.toInt ∨ size ≤ 2 ^ 32 ∧ (size ∣ 2 ^ 64 ∨ counter.toInt + turn < 0)) :
    ∀ earlier ≤ turn,
      unsigned (counter + Int32.ofNat earlier) % size = (unsigned counter + earlier) % size ∧
      unsigned (counter + Int32.ofNat earlier) % size < 2 ^ 32 := by
  intro earlier before_
  constructor
  · apply unsigned_counter_mod (by omega)
    rcases straight with ahead | ⟨-, divides | below⟩
    · exact Or.inl ahead
    · exact Or.inr (Or.inl divides)
    · exact Or.inr (Or.inr (by omega))
  · rcases straight with ahead | ⟨few, -⟩
    · have number := unsigned_eq (counter + Int32.ofNat earlier)
      rw [toInt_counter (by omega), if_pos (by omega)] at number
      have least := Nat.mod_le (unsigned (counter + Int32.ofNat earlier)) size
      omega
    · have below := Nat.mod_lt (unsigned (counter + Int32.ofNat earlier)) positive
      omega

theorem first_soon {conn : MultipathConnection Path} {memory : Path → SinglePath} {turn : ℕ}
    (positive : 0 < conn.paths.length)
    (places : ∀ earlier ≤ turn,
      unsigned (conn.lastPathIndex + Int32.ofNat earlier) % conn.paths.length =
        (unsigned conn.lastPathIndex + earlier) % conn.paths.length)
    (hits : Hits conn memory (conn.lastPathIndex + Int32.ofNat turn))
    (missed : ∀ earlier < turn, ¬ Hits conn memory (conn.lastPathIndex + Int32.ofNat earlier)) :
    turn < 2 * conn.paths.length := by
  by_contra late
  apply missed (turn - conn.paths.length) (by omega)
  apply hits.congr
  rw [places turn (Nat.le_refl turn), places _ (Nat.sub_le _ _)]
  have split : unsigned conn.lastPathIndex + turn =
      unsigned conn.lastPathIndex + (turn - conn.paths.length) + conn.paths.length := by omega
  rw [split, Nat.add_mod_right]

theorem step_burst [DecidableEq Path] {start before : Bursts Path} (turned : Turned start before)
    (answer : ℕ → SocketAnswer) (filled : before.conn.txBuffer ≠ [])
    (fits : ∃ turn : ℕ, before.conn.lastPathIndex.toInt + turn + 1 < 2 ^ 31 ∧
      Hits before.conn before.memory (before.conn.lastPathIndex + Int32.ofNat turn) ∧
      (0 ≤ start.conn.lastPathIndex.toInt ∨ before.conn.paths.length ≤ 2 ^ 32 ∧
        (before.conn.paths.length ∣ 2 ^ 64 ∨ before.conn.lastPathIndex.toInt + turn < 0))) :
    ∃ after, step before (.sendData answer) = some after ∧ Turned start after := by
  obtain ⟨bound, room, hit, straight⟩ := fits
  obtain ⟨turn, within, hits, missed⟩ := exists_first hit
  have nonempty := hits.filled
  have positive : 0 < before.conn.paths.length := List.length_pos_iff.mpr nonempty
  have nearer : before.conn.lastPathIndex.toInt + turn + 1 < 2 ^ 31 := by omega
  have ahead_or : 0 ≤ before.conn.lastPathIndex.toInt ∨ before.conn.paths.length ≤ 2 ^ 32 ∧
      (before.conn.paths.length ∣ 2 ^ 64 ∨ before.conn.lastPathIndex.toInt + turn < 0) := by
    rcases straight with ahead | ⟨few, divides | below⟩
    · exact Or.inl (turned.ahead ahead)
    · exact Or.inr ⟨few, Or.inl divides⟩
    · exact Or.inr ⟨few, Or.inr (by omega)⟩
  have places := counter_places nearer positive ahead_or
  have residue := fun earlier before_ => (places earlier before_).1
  have small := fun earlier before_ => (places earlier before_).2
  have soon := first_soon positive residue hits missed
  obtain ⟨pointer, looped⟩ := choosePathLoop_eq soon nonempty small missed hits
  obtain ⟨ran, happened, samePaths, counter, sameStates⟩ := sendData_filled answer filled looped
  have index : before.burst =
      [(unsigned before.conn.lastPathIndex + turn) % before.conn.paths.length] := by
    have same : (pathIdx before.conn.paths.length
        (before.conn.lastPathIndex + Int32.ofNat turn)).toNat = _ :=
      UInt32.toNat_ofNat_of_lt' (small turn (Nat.le_refl turn))
    simp only [Bursts.burst, if_neg filled, chooseIndex_eq soon nonempty missed hits,
      Option.toList_some, List.map_cons, List.map_nil, same, residue turn (Nat.le_refl turn)]
  refine ⟨_, by simp only [step, happened]; rfl, ?_, ?_, ?_, ?_⟩
  · exact samePaths.trans turned.paths
  · exact fun other => (sameStates other).trans (turned.fixed other)
  · intro ahead
    have low := turned.ahead ahead
    change 0 ≤ ran.conn.lastPathIndex.toInt
    rw [counter, toInt_counter (by omega)]
    omega
  · obtain ⟨count, chosen, reached⟩ := turned.turned
    have aligned : unsigned before.conn.lastPathIndex ≡
        unsigned start.conn.lastPathIndex + count [MOD before.conn.paths.length] := by
      rw [turned.paths]
      apply reached
      rw [← turned.paths]
      rcases straight with ahead | ⟨-, divides | below⟩
      · exact Or.inl ahead
      · exact Or.inr (Or.inl divides)
      · exact Or.inr (Or.inr (by omega))
    have shifted : ∀ earlier, (unsigned before.conn.lastPathIndex + earlier) %
        before.conn.paths.length =
          (unsigned start.conn.lastPathIndex + count + earlier) % before.conn.paths.length :=
      fun earlier => aligned.add_right earlier
    have place : ∀ earlier ≤ turn,
        Hits before.conn before.memory (before.conn.lastPathIndex + Int32.ofNat earlier) ↔
          Connected start.conn start.memory ((unsigned start.conn.lastPathIndex + count + earlier) %
            start.conn.paths.length) := by
      intro earlier before_
      have same : (pathIdx before.conn.paths.length
          (before.conn.lastPathIndex + Int32.ofNat earlier)).toNat = _ :=
        UInt32.toNat_ofNat_of_lt' (small earlier before_)
      rw [Hits, same, residue earlier before_, shifted, turned.paths]
      exact turned.connected_iff _
    refine ⟨count + (turn + 1), ?_, ?_⟩
    · change before.chosen ++ before.burst = _
      rw [index, chosen, turns_add, List.filter_append, shifted, turned.paths]
      congr 1
      apply (filter_turns _ _).symm
      · exact fun earlier before_ => (place earlier (by omega)).not.mp (missed earlier before_)
      · exact (place turn (Nat.le_refl turn)).mp hits
    · intro goesOn
      change unsigned ran.conn.lastPathIndex % _ = _
      have after : ran.conn.lastPathIndex.toInt = before.conn.lastPathIndex.toInt + (turn + 1) := by
        rw [counter, toInt_counter (by omega)]
        rfl
      rw [counter, unsigned_counter_mod (by omega), ← turned.paths, shifted, Nat.add_assoc]
      rcases goesOn with ahead | divides | below
      · exact Or.inl (turned.ahead ahead)
      · exact Or.inr (Or.inl divides)
      · change ran.conn.lastPathIndex.toInt < 0 at below
        exact Or.inr (Or.inr (by omega))

theorem step_turned [DecidableEq Path] {start before : Bursts Path} {action : Action}
    (turned : Turned start before) (fits : Fits start.conn.lastPathIndex before action) :
    ∃ after, step before action = some after ∧ Turned start after := by
  cases action with
  | send payload =>
      refine ⟨_, rfl, ?_⟩
      by_cases empty : getSize payload = 0
      · rw [MultipathConnection.send_empty _ empty]
        exact turned
      · rw [MultipathConnection.send_filled _ empty]
        exact ⟨turned.paths, turned.fixed, turned.ahead, turned.turned⟩
  | sendData answer =>
      by_cases empty : before.conn.txBuffer = []
      · refine ⟨_, by simp only [step, MultipathConnection.sendData, if_pos empty]; rfl, ?_⟩
        simpa only [Bursts.burst, if_pos empty, List.append_nil] using turned
      · exact step_burst turned answer empty (fits empty)

theorem Turned.fair {start state : Bursts Path} (turned : Turned start state) :
    Fair (Connected state.conn state.memory) state.chosen := by
  have same : Connected state.conn state.memory = Connected start.conn start.memory :=
    funext fun idx => propext (turned.connected_iff idx)
  obtain ⟨count, chosen, -⟩ := turned.turned
  rw [same, chosen]
  exact fair_filter fun idx connected => connected.lt

/-- As long as the bursts fit, each of them finds its path and the connected paths get them in
turn. -/
theorem bursts_fair [DecidableEq Path] (start : Bursts Path) (fresh : start.chosen = [])
    {actions : List Action}
    (guarded : Guarded step (Fits start.conn.lastPathIndex) start actions) :
    (run step start actions).isSome ∧
      Throughout step (fun state => Fair (Connected state.conn state.memory) state.chosen) start
        actions := by
  have initial : Turned start start := ⟨rfl, fun _ => rfl, fun ahead => ahead, 0, fresh, fun _ => rfl⟩
  obtain ⟨ends, turned⟩ := run_progress (fun _ _ => step_turned) initial guarded
  refine ⟨ends, fun first second middle split ran => ?_⟩
  exact (turned first second middle split ran).fair

def threePaths : MultipathConnection (Fin 3) := { paths := [0, 1, 2], connState := .connect }

theorem bursts_fair_first :
    (run step (Bursts.mk threePaths (fun _ => { pathState := .connected }) [])
        [.send [1], .sendData fun _ => .accepted]).isSome ∧
      Throughout step (fun state => Fair (Connected state.conn state.memory) state.chosen)
        (Bursts.mk threePaths (fun _ => { pathState := .connected }) [])
        [.send [1], .sendData fun _ => .accepted] := by
  apply bursts_fair _ rfl
  refine ⟨trivial, fun next stepped => ⟨fun _ => ⟨0, ?_⟩, fun _ _ => trivial⟩⟩
  obtain rfl := Option.some.inj stepped
  exact ⟨by decide, by decide, Or.inl (by decide)⟩

/-- Nothing gives the counter its first value.  From -1, two bursts in a row go to path 0. -/
theorem starts_below_zero :
    ∃ (start : Bursts (Fin 3)) (actions : List Action) (last : Bursts (Fin 3)),
      start.chosen = [] ∧ start.conn.lastPathIndex = -1 ∧
      (∀ pointer ∈ start.conn.paths, (start.memory pointer).pathState = .connected) ∧
      run step start actions = some last ∧ last.conn.lastPathIndex = 1 ∧
      last.chosen = [0, 0] ∧ ¬ Fair (Connected last.conn last.memory) last.chosen := by
  let start : Bursts (Fin 3) :=
    { conn := { threePaths with lastPathIndex := -1 }
      memory := fun _ => { pathState := .connected } }
  let actions : List Action :=
    [.send [1], .sendData fun _ => .accepted, .send [1], .sendData fun _ => .accepted]
  have ran : (run step start actions).isSome := by decide +kernel
  obtain ⟨last, reached⟩ := Option.isSome_iff_exists.mp ran
  have seen : (run step start actions).map (fun last =>
      (last.conn.lastPathIndex, last.chosen, decide (Connected last.conn last.memory 0),
        decide (Connected last.conn last.memory 1))) = some (1, [0, 0], true, true) := by
    decide +kernel
  rw [reached, Option.map_some, Option.some.injEq, Prod.mk.injEq, Prod.mk.injEq, Prod.mk.injEq]
    at seen
  obtain ⟨counter, chosen, zero, one⟩ := seen
  refine ⟨start, actions, last, rfl, rfl, by decide, reached, counter, chosen, fun fair => ?_⟩
  have balanced := fair.even 0 1 (of_decide_eq_true zero) (of_decide_eq_true one)
  rw [chosen] at balanced
  revert balanced
  decide

end FISim.PathChoice
