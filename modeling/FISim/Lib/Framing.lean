import Mathlib.Algebra.Order.Ring.Nat
import Mathlib.Algebra.Order.BigOperators.Group.List
import Mathlib.Logic.Nontrivial.Basic

/-!
Streams of records, cut into chunks.  A record is a header of a known size and a
body.  A receiver that drops the header's size from every chunk sees the bodies
when every chunk is a record, and for no other way to cut does it see them
whatever they hold.
-/

namespace Framing

universe u

variable {α : Type u}

def cut : List ℕ → List α → List (List α)
  | [], _ => []
  | length :: rest, stream => stream.take length :: cut rest (stream.drop length)

theorem cut_flatten {lengths : List ℕ} {stream : List α}
    (total : lengths.sum = stream.length) : (cut lengths stream).flatten = stream := by
  induction lengths generalizing stream with
  | nil => simpa [cut, eq_comm] using total
  | cons length rest ih =>
      rw [List.sum_cons] at total
      rw [cut, List.flatten_cons, ih (by rw [List.length_drop]; omega), List.take_append_drop]

theorem cut_lengths {lengths : List ℕ} {stream : List α}
    (total : lengths.sum ≤ stream.length) : (cut lengths stream).map List.length = lengths := by
  induction lengths generalizing stream with
  | nil => rfl
  | cons length rest ih =>
      rw [List.sum_cons] at total
      rw [cut, List.map_cons, ih (by rw [List.length_drop]; omega), List.length_take,
        Nat.min_eq_left (by omega)]

theorem cut_append {lengths : List ℕ} {front : List α} (others : List ℕ) (back : List α)
    (total : lengths.sum = front.length) :
    cut (lengths ++ others) (front ++ back) = cut lengths front ++ cut others back := by
  induction lengths generalizing front with
  | nil =>
      obtain rfl : front = [] := by simpa [eq_comm] using total
      rfl
  | cons length rest ih =>
      rw [List.sum_cons] at total
      have inside : length ≤ front.length := by omega
      rw [List.cons_append, cut, cut, List.take_append_of_le_length inside,
        List.drop_append_of_le_length inside, ih (by rw [List.length_drop]; omega),
        List.cons_append]

theorem cut_of_lengths (chunks : List (List α)) :
    cut (chunks.map List.length) chunks.flatten = chunks := by
  induction chunks with
  | nil => rfl
  | cons chunk rest ih =>
      rw [List.map_cons, List.flatten_cons, cut, List.take_left, List.drop_left, ih]

theorem eq_of_flatten_eq {chunks other : List (List α)} (stream : chunks.flatten = other.flatten)
    (lengths : chunks.map List.length = other.map List.length) : chunks = other := by
  rw [← cut_of_lengths chunks, ← cut_of_lengths other, stream, lengths]

/-- The lengths of the chunks that a stream of this size is cut into. -/
structure Cuts (size : ℕ) where
  lengths : List ℕ
  positive : ∀ length ∈ lengths, 0 < length
  total : lengths.sum = size

def Cuts.chunks {stream : List α} (cuts : Cuts stream.length) : List (List α) :=
  cut cuts.lengths stream

theorem Cuts.chunks_flatten {stream : List α} (cuts : Cuts stream.length) :
    cuts.chunks.flatten = stream := cut_flatten cuts.total

theorem Cuts.chunks_lengths {stream : List α} (cuts : Cuts stream.length) :
    cuts.chunks.map List.length = cuts.lengths := cut_lengths cuts.total.le

/-- What a receiver finds that reads one value off the front of each chunk. -/
def heads {β : Type*} (head : List α → Option β) : List (List α) → Option (List β)
  | [] => some []
  | chunk :: rest => do
      let first ← head chunk
      let later ← heads head rest
      return first :: later

theorem heads_encode {β : Type*} {head : List α → Option β} {encode : β → List α}
    {values : List β} (reads : ∀ value ∈ values, head (encode value) = some value) :
    heads head (values.map encode) = some values := by
  induction values with
  | nil => rfl
  | cons value rest ih =>
      rw [List.map_cons, heads, reads value (by simp),
        ih fun other inside => reads other (by simp [inside])]
      rfl

theorem heads_covered {β : Type*} {head : List α → Option β} {encode : β → List α}
    {fits : β → Prop} (covers : ∀ chunk value, head chunk = some value →
      fits value ∧ (encode value).length ≤ chunk.length)
    {chunks : List (List α)} {values : List β} (found : heads head chunks = some values) :
    (∀ value ∈ values, fits value) ∧
      List.Forall₂ (· ≤ ·) (values.map fun value => (encode value).length)
        (chunks.map List.length) := by
  induction chunks generalizing values with
  | nil =>
      obtain rfl := Option.some.inj found
      exact ⟨by simp, List.Forall₂.nil⟩
  | cons chunk rest ih =>
      obtain ⟨first, here, found⟩ := Option.bind_eq_some_iff.mp found
      obtain ⟨later, there, found⟩ := Option.bind_eq_some_iff.mp found
      obtain rfl := Option.some.inj found
      obtain ⟨fit, covered⟩ := covers chunk first here
      obtain ⟨fitting, below⟩ := ih there
      refine ⟨?_, List.Forall₂.cons covered below⟩
      intro value inside
      rcases List.mem_cons.mp inside with rfl | inside
      · exact fit
      · exact fitting value inside

theorem eq_of_sum_eq {below above : List ℕ} (ordered : List.Forall₂ (· ≤ ·) below above)
    (total : below.sum = above.sum) : below = above := by
  induction ordered with
  | nil => rfl
  | cons first rest ih =>
      have later := rest.sum_le_sum
      rw [List.sum_cons, List.sum_cons] at total
      rw [ih (by omega), Nat.le_antisymm first (by omega)]

/-- Such a receiver finds the values of a stream exactly when every chunk is one encoding. -/
theorem heads_eq_some_iff {β : Type*} {head : List α → Option β} {encode : β → List α}
    {fits : β → Prop} (reads : ∀ value, fits value → head (encode value) = some value)
    (covers : ∀ chunk value, head chunk = some value →
      fits value ∧ (encode value).length ≤ chunk.length)
    {chunks : List (List α)} {values : List β} (stream : chunks.flatten = values.flatMap encode) :
    heads head chunks = some values ↔ (∀ value ∈ values, fits value) ∧
      chunks.map List.length = values.map fun value => (encode value).length := by
  have whole : chunks.flatten = (values.map encode).flatten := by
    rw [stream, List.flatMap_def]
  constructor
  · intro found
    obtain ⟨fitting, ordered⟩ := heads_covered covers found
    refine ⟨fitting, (eq_of_sum_eq ordered ?_).symm⟩
    have size := congrArg List.length whole
    rw [List.length_flatten, List.length_flatten, List.map_map] at size
    exact size.symm
  · rintro ⟨fitting, lengths⟩
    have same : chunks = values.map encode := by
      refine eq_of_flatten_eq whole ?_
      rw [lengths, List.map_map]
      rfl
    rw [same]
    exact heads_encode fun value inside => reads value (fitting value inside)

def records (shape : List (List α × ℕ)) (bodies : List (List α)) : List (List α) :=
  List.zipWith (fun record body => record.1 ++ body) shape bodies

def strip (size : ℕ) (chunks : List (List α)) : List α :=
  (chunks.map fun chunk => chunk.drop size).flatten

@[simp] theorem strip_cons (size : ℕ) (chunk : List α) (rest : List (List α)) :
    strip size (chunk :: rest) = chunk.drop size ++ strip size rest := rfl

@[simp] theorem records_cons (record : List α × ℕ) (shape : List (List α × ℕ)) (body : List α)
    (bodies : List (List α)) :
    records (record :: shape) (body :: bodies) = (record.1 ++ body) :: records shape bodies := rfl

def Fills (bodies : List (List α)) (shape : List (List α × ℕ)) : Prop :=
  bodies.map List.length = shape.map Prod.snd

theorem Fills.cons {record : List α × ℕ} {shape : List (List α × ℕ)} {body : List α}
    {bodies : List (List α)} (size : body.length = record.2) (rest : Fills bodies shape) :
    Fills (body :: bodies) (record :: shape) := by
  simp only [Fills, List.map_cons, size, List.cons.injEq, true_and]
  exact rest

theorem fills_replicate (filler : α) (shape : List (List α × ℕ)) :
    Fills (shape.map fun record => List.replicate record.2 filler) shape := by
  simp [Fills, Function.comp_def]

variable {size : ℕ} {shape : List (List α × ℕ)}

theorem records_lengths {bodies : List (List α)} (fills : Fills bodies shape)
    (headers : ∀ record ∈ shape, record.1.length = size) :
    (records shape bodies).map List.length = shape.map fun record => size + record.2 := by
  induction shape generalizing bodies with
  | nil => rfl
  | cons record shape ih =>
      cases bodies with
      | nil => simp [Fills] at fills
      | cons body bodies =>
          simp only [Fills, List.map_cons, List.cons.injEq] at fills
          rw [records_cons, List.map_cons, List.map_cons, List.length_append, fills.1,
            headers record (by simp), ih fills.2 fun other member => headers other (by simp [member])]

theorem strip_records {bodies : List (List α)} (fills : Fills bodies shape)
    (headers : ∀ record ∈ shape, record.1.length = size) :
    strip size (records shape bodies) = bodies.flatten := by
  induction shape generalizing bodies with
  | nil =>
      cases bodies with
      | nil => rfl
      | cons body bodies => simp [Fills] at fills
  | cons record shape ih =>
      cases bodies with
      | nil => simp [Fills] at fills
      | cons body bodies =>
          simp only [Fills, List.map_cons, List.cons.injEq] at fills
          rw [records_cons, strip_cons, List.flatten_cons,
            ih fills.2 fun other member => headers other (by simp [member]),
            ← headers record (by simp), List.drop_left]

/-- A chunk that ends inside a body loses the body's next element to the next chunk's header:
nothing that is left depends on it. -/
theorem strip_cut_forgets (positive : 0 < size) (front rest : List α) (first second : ℕ)
    (lengths : List ℕ) (here : first = front.length) (some other : α) (large : size ≤ second) :
    strip size (cut (first :: second :: lengths) (front ++ some :: rest)) =
      strip size (cut (first :: second :: lengths) (front ++ other :: rest)) := by
  subst here
  obtain ⟨headerRest, rfl⟩ := Nat.exists_eq_add_of_lt positive
  obtain ⟨more, rfl⟩ := Nat.exists_eq_add_of_le large
  simp [cut, Nat.add_right_comm]

/-- A chunk that goes on after a record shows the next header's first element as a body's. -/
theorem strip_cut_reveals (header body rest : List α) (next : α) (beyond : ℕ) (lengths : List ℕ)
    (width : header.length = size) :
    strip size (cut ((size + body.length + (beyond + 1)) :: lengths)
        (header ++ (body ++ next :: rest))) =
      body ++ next :: (rest.take beyond ++ strip size (cut lengths (rest.drop beyond))) := by
  subst width
  have front : header.length + body.length + (beyond + 1) =
      header.length + (body.length + (beyond + 1)) := Nat.add_assoc _ _ _
  rw [cut, strip_cons, front, List.take_length_add_append, List.drop_length_add_append,
    List.drop_left, List.take_length_add_append, List.drop_length_add_append]
  simp

theorem strip_cut_record (header body rest : List α) (lengths : List ℕ) {count : ℕ}
    (width : header.length = size) (counted : body.length = count) :
    strip size (cut ((size + count) :: lengths) (header ++ body ++ rest)) =
      body ++ strip size (cut lengths rest) := by
  subst width counted
  rw [cut, strip_cons, ← List.length_append, List.take_left, List.drop_left, List.drop_left]

theorem records_flatten_length {bodies : List (List α)} (fills : Fills bodies shape)
    (headers : ∀ record ∈ shape, record.1.length = size) :
    (records shape bodies).flatten.length = (shape.map fun record => size + record.2).sum := by
  rw [List.length_flatten, records_lengths fills headers]

theorem not_strip_of_short [Nontrivial α] (positive : 0 < size) {record : List α × ℕ}
    {first : ℕ} {lengths : List ℕ} (headers : ∀ other ∈ record :: shape, other.1.length = size)
    (large : ∀ length ∈ first :: lengths, size ≤ length)
    (total : (first :: lengths).sum = ((record :: shape).map fun other => size + other.2).sum)
    (short : first < size + record.2) :
    ∃ bodies, Fills bodies (record :: shape) ∧
      strip size (cut (first :: lengths) (records (record :: shape) bodies).flatten) ≠
        bodies.flatten := by
  obtain ⟨filler, marker, different⟩ := exists_pair_ne α
  have firstLarge := large first (by simp)
  obtain ⟨ahead, rfl⟩ := Nat.exists_eq_add_of_le firstLarge
  have width : record.1.length = size := headers record (by simp)
  obtain ⟨behind, behindEq⟩ : ∃ behind, record.2 = ahead + (1 + behind) :=
    ⟨record.2 - ahead - 1, by omega⟩
  cases lengths with
  | nil =>
      simp only [List.sum_cons, List.sum_nil, List.map_cons] at total
      omega
  | cons second lengths =>
      let rest := shape.map fun other => List.replicate other.2 filler
      let body := fun value : α =>
        List.replicate ahead filler ++ value :: List.replicate behind filler
      have fills : ∀ value, Fills (body value :: rest) (record :: shape) := fun value =>
        (fills_replicate filler shape).cons (by simp [body]; omega)
      have stream : ∀ value, (records (record :: shape) (body value :: rest)).flatten =
          (record.1 ++ List.replicate ahead filler) ++
            value :: (List.replicate behind filler ++ (records shape rest).flatten) := by
        intro value
        simp [body]
      have forgets := strip_cut_forgets positive (record.1 ++ List.replicate ahead filler)
        (List.replicate behind filler ++ (records shape rest).flatten) (size + ahead) second
        lengths (by simp [width]) filler marker (large second (by simp))
      by_contra kept
      push Not at kept
      have one := kept _ (fills filler)
      have two := kept _ (fills marker)
      rw [stream] at one two
      rw [forgets, two, List.flatten_cons, List.flatten_cons, List.append_cancel_right_eq] at one
      have same : marker = filler := by simpa [body] using one
      exact different same.symm

theorem not_strip_of_long [Nontrivial α] (positive : 0 < size) {record : List α × ℕ}
    {first : ℕ} {lengths : List ℕ} (headers : ∀ other ∈ record :: shape, other.1.length = size)
    (filled : ∀ other ∈ record :: shape, 0 < other.2)
    (total : (first :: lengths).sum = ((record :: shape).map fun other => size + other.2).sum)
    (long : size + record.2 < first) :
    ∃ bodies, Fills bodies (record :: shape) ∧
      strip size (cut (first :: lengths) (records (record :: shape) bodies).flatten) ≠
        bodies.flatten := by
  have width : record.1.length = size := headers record (by simp)
  cases shape with
  | nil =>
      simp only [List.sum_cons, List.map_cons, List.map_nil, List.sum_nil] at total
      omega
  | cons next shape =>
      have nextWidth : next.1.length = size := headers next (by simp)
      obtain ⟨byte, headerRest, nextHeader⟩ : ∃ byte headerRest, next.1 = byte :: headerRest := by
        cases shown : next.1 with
        | nil =>
            rw [shown, List.length_nil] at nextWidth
            omega
        | cons byte headerRest => exact ⟨byte, headerRest, rfl⟩
      obtain ⟨other, different⟩ := exists_ne byte
      obtain ⟨more, moreEq⟩ : ∃ more, next.2 = more + 1 :=
        ⟨next.2 - 1, by have := filled next (by simp); omega⟩
      obtain ⟨beyond, rfl⟩ : ∃ beyond, first = size + record.2 + (beyond + 1) :=
        ⟨first - size - record.2 - 1, by omega⟩
      let rest := shape.map fun other => List.replicate other.2 byte
      let body := List.replicate record.2 byte
      refine ⟨body :: (other :: List.replicate more byte) :: rest,
        ((fills_replicate byte shape).cons (by simp [moreEq])).cons (by simp [body]), ?_⟩
      intro kept
      have bodySize : body.length = record.2 := by simp [body]
      have stream : (records (record :: next :: shape)
          (body :: (other :: List.replicate more byte) :: rest)).flatten =
          record.1 ++ (body ++ byte :: (headerRest ++ (other :: List.replicate more byte ++
            (records shape rest).flatten))) := by
        simp [nextHeader]
      rw [stream, ← bodySize, strip_cut_reveals _ _ _ _ _ _ width, List.flatten_cons,
        List.flatten_cons, List.append_cancel_left_eq, List.cons_append, List.cons_append] at kept
      exact different (List.cons.inj kept).1.symm

/-- The receiver sees the bodies, whatever they hold, exactly when every chunk is a record. -/
theorem strip_cut_iff [Nontrivial α] (positive : 0 < size) {lengths : List ℕ}
    (headers : ∀ record ∈ shape, record.1.length = size)
    (filled : ∀ record ∈ shape, 0 < record.2)
    (large : ∀ length ∈ lengths, size ≤ length)
    (total : lengths.sum = (shape.map fun record => size + record.2).sum) :
    (∀ bodies, Fills bodies shape →
        strip size (cut lengths (records shape bodies).flatten) = bodies.flatten) ↔
      lengths = shape.map fun record => size + record.2 := by
  constructor
  · induction shape generalizing lengths with
    | nil =>
        intro _
        cases lengths with
        | nil => rfl
        | cons first lengths =>
            have := large first (by simp)
            simp only [List.sum_cons, List.map_nil, List.sum_nil] at total
            omega
    | cons record shape ih =>
        intro kept
        cases lengths with
        | nil =>
            simp only [List.sum_nil, List.map_cons, List.sum_cons] at total
            omega
        | cons first lengths =>
            rcases Nat.lt_trichotomy first (size + record.2) with short | exact_ | long
            · obtain ⟨bodies, fills, lost⟩ := not_strip_of_short positive headers large total short
              exact absurd (kept bodies fills) lost
            · subst exact_
              rw [List.map_cons]
              refine congrArg _ (ih (fun other member => headers other (by simp [member]))
                (fun other member => filled other (by simp [member]))
                (fun length member => large length (by simp [member]))
                (by simpa using total) ?_)
              intro bodies fills
              obtain ⟨body, counted⟩ : ∃ body : List α, body.length = record.2 :=
                ⟨List.replicate record.2 (Classical.arbitrary α), List.length_replicate⟩
              have whole := kept _ (fills.cons counted)
              rw [records_cons, List.flatten_cons, List.flatten_cons,
                strip_cut_record _ _ _ _ (headers record (by simp)) counted,
                List.append_cancel_left_eq] at whole
              exact whole
            · obtain ⟨bodies, fills, lost⟩ := not_strip_of_long positive headers filled total long
              exact absurd (kept bodies fills) lost
  · rintro rfl bodies fills
    rw [← records_lengths fills headers, cut_of_lengths, strip_records fills headers]

end Framing
