import Mathlib.Algebra.Order.Ring.Nat
import Mathlib.Control.Monad.Basic
import Mathlib.Tactic.Ring

/-!
Numbers written most significant byte first, and readers that take such numbers
off the front of a byte list and fail when it is too short.
-/

namespace BigEndian

def toBytes : ℕ → ℕ → List UInt8
  | 0, _ => []
  | size + 1, value => UInt8.ofNat (value / 256 ^ size) :: toBytes size value

def ofBytes : List UInt8 → ℕ
  | [] => 0
  | byte :: rest => byte.toNat * 256 ^ rest.length + ofBytes rest

@[simp] theorem toBytes_length (size value : ℕ) : (toBytes size value).length = size := by
  induction size with
  | zero => rfl
  | succ size ih => simp [toBytes, ih]

theorem ofBytes_lt (bytes : List UInt8) : ofBytes bytes < 256 ^ bytes.length := by
  induction bytes with
  | nil => simp [ofBytes]
  | cons byte rest ih =>
      have small : byte.toNat ≤ 255 := Nat.le_of_lt_succ byte.toNat_lt
      have scaled : byte.toNat * 256 ^ rest.length ≤ 255 * 256 ^ rest.length :=
        Nat.mul_le_mul_right _ small
      simp only [ofBytes, List.length_cons, pow_succ]
      omega

theorem ofBytes_toBytes_mod (size value : ℕ) :
    ofBytes (toBytes size value) = value % 256 ^ size := by
  induction size with
  | zero => simp [toBytes, ofBytes, Nat.mod_one]
  | succ size ih =>
      rw [pow_succ, Nat.mod_mul]
      simp only [toBytes, ofBytes, toBytes_length, ih, UInt8.toNat_ofNat', Nat.reducePow]
      rw [Nat.mul_comm, Nat.add_comm]

theorem ofBytes_toBytes {size value : ℕ} (fits : value < 256 ^ size) :
    ofBytes (toBytes size value) = value := by
  rw [ofBytes_toBytes_mod, Nat.mod_eq_of_lt fits]

abbrev Reader := StateT (List UInt8) Option

@[simp] theorem pure_apply {α : Type} (value : α) (bytes : List UInt8) :
    (pure value : Reader α) bytes = some (value, bytes) := rfl

@[simp] theorem bind_apply {α β : Type} (reader : Reader α) (next : α → Reader β)
    (bytes : List UInt8) :
    (reader >>= next) bytes = (reader bytes).bind fun result => next result.1 result.2 := rfl

@[simp] theorem map_apply {α β : Type} (reader : Reader α) (image : α → β) (bytes : List UInt8) :
    (image <$> reader) bytes = (reader bytes).map fun result => (image result.1, result.2) := by
  change (reader bytes).bind (fun result => some (image result.1, result.2)) = _
  cases reader bytes <;> rfl

def readNat (size : ℕ) : Reader ℕ := fun bytes =>
  if size ≤ bytes.length then some (ofBytes (bytes.take size), bytes.drop size) else none

def readBytes (count : ℕ) : Reader (List UInt8) := fun bytes =>
  if count ≤ bytes.length then some (bytes.take count, bytes.drop count) else none

def readMany {α : Type} (reader : Reader α) : ℕ → Reader (List α)
  | 0 => pure []
  | count + 1 => do
      let first ← reader
      let rest ← readMany reader count
      return first :: rest

/-- The reader finds the value in its encoding and leaves what follows. -/
def Reads {α : Type} (reader : Reader α) (encoded : List UInt8) (value : α) : Prop :=
  ∀ rest, reader (encoded ++ rest) = some (value, rest)

theorem Reads.pure {α : Type} (value : α) : Reads (pure value) [] value := fun _ => rfl

theorem Reads.bind {α β : Type} {reader : Reader α} {next : α → Reader β}
    {first second : List UInt8} {value : α} {result : β} (head : Reads reader first value)
    (tail : Reads (next value) second result) :
    Reads (reader >>= next) (first ++ second) result := by
  intro rest
  rw [bind_apply, List.append_assoc, head (second ++ rest)]
  exact tail rest

theorem Reads.map {α β : Type} {reader : Reader α} {encoded : List UInt8} {value : α}
    (reads : Reads reader encoded value) (image : α → β) :
    Reads (image <$> reader) encoded (image value) := by
  intro rest
  simp only [map_apply, reads rest, Option.map_some]

theorem Reads.bind_pure {α β : Type} {reader : Reader α} {encoded : List UInt8} {value : α}
    (reads : Reads reader encoded value) (image : α → β) :
    Reads (reader >>= fun found => Pure.pure (image found)) encoded (image value) := by
  intro rest
  rw [bind_apply, reads rest]
  rfl

theorem reads_readMany {α : Type} {reader : Reader α} {encode : α → List UInt8}
    (reads : ∀ value, Reads reader (encode value) value) (values : List α) :
    Reads (readMany reader values.length) (values.flatMap encode) values := by
  induction values with
  | nil => exact Reads.pure []
  | cons first rest ih => exact (reads first).bind (ih.bind_pure _)

theorem reads_readNat (size : ℕ) {value : ℕ} (fits : value < 256 ^ size) :
    Reads (readNat size) (toBytes size value) value := by
  intro rest
  have enough : size ≤ (toBytes size value ++ rest).length := by simp
  have front : (toBytes size value ++ rest).take size = toBytes size value := by simp
  have back : (toBytes size value ++ rest).drop size = rest := by simp
  simp only [readNat, enough, if_true, front, back, ofBytes_toBytes fits]

theorem reads_readBytes {count : ℕ} {bytes : List UInt8} (size : bytes.length = count) :
    Reads (readBytes count) bytes bytes := by
  intro rest
  subst size
  simp [readBytes]

/-- The reader takes exactly `size` bytes, whatever they are, and fails on fewer. -/
structure Takes {α : Type} (reader : Reader α) (size : ℕ) : Prop where
  enough : ∀ bytes, size ≤ bytes.length → ∃ value, reader bytes = some (value, bytes.drop size)
  short : ∀ bytes, bytes.length < size → reader bytes = none

theorem Takes.pure {α : Type} (value : α) : Takes (pure value) 0 where
  enough _ _ := ⟨value, rfl⟩
  short _ few := absurd few (Nat.not_lt_zero _)

theorem Takes.bind {α β : Type} {reader : Reader α} {next : α → Reader β} {first second : ℕ}
    (head : Takes reader first) (tail : ∀ value, Takes (next value) second) :
    Takes (reader >>= next) (first + second) where
  enough bytes long := by
    obtain ⟨value, found⟩ := head.enough bytes (by omega)
    obtain ⟨result, after⟩ := (tail value).enough (bytes.drop first) (by simp; omega)
    refine ⟨result, ?_⟩
    simp only [bind_apply, found, Option.bind_some, after, List.drop_drop]
  short bytes few := by
    by_cases reached : first ≤ bytes.length
    · obtain ⟨value, found⟩ := head.enough bytes reached
      simp only [bind_apply, found, Option.bind_some]
      exact (tail value).short _ (by simp; omega)
    · simp only [bind_apply, head.short bytes (by omega), Option.bind_none]

theorem Takes.map {α β : Type} {reader : Reader α} {size : ℕ} (takes : Takes reader size)
    (image : α → β) : Takes (image <$> reader) size where
  enough bytes long := by
    obtain ⟨value, found⟩ := takes.enough bytes long
    exact ⟨image value, by simp only [map_apply, found, Option.map_some]⟩
  short bytes few := by simp only [map_apply, takes.short bytes few, Option.map_none]

theorem takes_readNat (size : ℕ) : Takes (readNat size) size where
  enough bytes long := ⟨ofBytes (bytes.take size), by simp only [readNat, long, if_true]⟩
  short bytes few := by simp only [readNat, Nat.not_le.mpr few, if_false]

theorem takes_readBytes (count : ℕ) : Takes (readBytes count) count where
  enough bytes long := ⟨bytes.take count, by simp only [readBytes, long, if_true]⟩
  short bytes few := by simp only [readBytes, Nat.not_le.mpr few, if_false]

theorem Takes.rest {α : Type} {reader : Reader α} {size : ℕ} (takes : Takes reader size)
    {bytes rest : List UInt8} {value : α} (found : reader bytes = some (value, rest)) :
    bytes.length = size + rest.length := by
  by_cases long : size ≤ bytes.length
  · obtain ⟨other, known⟩ := takes.enough bytes long
    rw [known, Option.some.injEq, Prod.mk.injEq] at found
    rw [← found.2, List.length_drop]
    omega
  · rw [takes.short bytes (by omega)] at found
    cases found

theorem readBytes_length {count : ℕ} {bytes value rest : List UInt8}
    (found : readBytes count bytes = some (value, rest)) : value.length = count := by
  unfold readBytes at found
  split at found
  · rename_i long
    rw [Option.some.injEq, Prod.mk.injEq] at found
    rw [← found.1, List.length_take, Nat.min_eq_left long]
  · cases found

theorem Takes.isSome_iff {α : Type} {reader : Reader α} {size : ℕ} (takes : Takes reader size)
    (bytes : List UInt8) : (reader bytes).isSome ↔ size ≤ bytes.length := by
  by_cases long : size ≤ bytes.length
  · obtain ⟨value, found⟩ := takes.enough bytes long
    simp [found, long]
  · simp [takes.short bytes (by omega), long]

/-- Whatever the reader finds, the bytes that came before and the bytes that it takes spell it. -/
def Spells {α : Type} (before : List UInt8) (reader : Reader α) (encode : α → List UInt8) : Prop :=
  ∀ bytes value rest, reader bytes = some (value, rest) → before ++ bytes = encode value ++ rest

theorem Spells.pure {α : Type} {before : List UInt8} {value : α} {encode : α → List UInt8}
    (spelled : before = encode value) : Spells before (pure value) encode := by
  intro bytes found rest read
  obtain ⟨rfl, rfl⟩ := Prod.mk.inj (Option.some.inj read)
  rw [spelled]

theorem Spells.bind_found {α β : Type} {before : List UInt8} {reader : Reader α}
    {next : α → Reader β} {encode : α → List UInt8} {whole : β → List UInt8}
    (head : Spells [] reader encode)
    (tail : ∀ value bytes rest, reader bytes = some (value, rest) →
      Spells (before ++ encode value) (next value) whole) :
    Spells before (reader >>= next) whole := by
  intro bytes result rest read
  obtain ⟨⟨value, middle⟩, first, second⟩ := Option.bind_eq_some_iff.mp read
  have spelled := head bytes value middle first
  rw [List.nil_append] at spelled
  rw [spelled, ← List.append_assoc]
  exact tail value bytes middle first middle result rest second

theorem Spells.bind {α β : Type} {before : List UInt8} {reader : Reader α} {next : α → Reader β}
    {encode : α → List UInt8} {whole : β → List UInt8} (head : Spells [] reader encode)
    (tail : ∀ value, Spells (before ++ encode value) (next value) whole) :
    Spells before (reader >>= next) whole :=
  head.bind_found fun value _ _ _ => tail value

theorem toBytes_ofBytes (bytes : List UInt8) : toBytes bytes.length (ofBytes bytes) = bytes := by
  have prefixed : ∀ (bytes : List UInt8) (high : ℕ),
      toBytes bytes.length (high * 256 ^ bytes.length + ofBytes bytes) = bytes := by
    intro bytes
    induction bytes with
    | nil => exact fun _ => rfl
    | cons byte rest ih =>
        intro high
        have below := ofBytes_lt rest
        have positive : 0 < 256 ^ rest.length := Nat.pow_pos (by decide)
        have split : high * 256 ^ (rest.length + 1) +
            (byte.toNat * 256 ^ rest.length + ofBytes rest) =
              (high * 256 + byte.toNat) * 256 ^ rest.length + ofBytes rest := by ring
        simp only [List.length_cons, toBytes, ofBytes, split, ih]
        congr 1
        rw [Nat.add_comm, Nat.add_mul_div_right _ _ positive, Nat.div_eq_of_lt below, Nat.zero_add]
        apply UInt8.toNat_inj.mp
        have := byte.toNat_lt
        rw [UInt8.toNat_ofNat']
        omega
  have whole := prefixed bytes 0
  rwa [Nat.zero_mul, Nat.zero_add] at whole

theorem spells_readNat (size : ℕ) : Spells [] (readNat size) (toBytes size) := by
  intro bytes value rest read
  unfold readNat at read
  split at read
  · rename_i long
    obtain ⟨rfl, rfl⟩ := Prod.mk.inj (Option.some.inj read)
    have exact := toBytes_ofBytes (bytes.take size)
    rw [List.length_take, Nat.min_eq_left long] at exact
    rw [exact, List.take_append_drop, List.nil_append]
  · cases read

theorem readNat_lt {size value : ℕ} {bytes rest : List UInt8}
    (read : readNat size bytes = some (value, rest)) : value < 256 ^ size := by
  unfold readNat at read
  split at read
  · rename_i long
    obtain ⟨rfl, rfl⟩ := Prod.mk.inj (Option.some.inj read)
    have below := ofBytes_lt (bytes.take size)
    rwa [List.length_take, Nat.min_eq_left long] at below
  · cases read

theorem spells_word {α : Type} {size : ℕ} {word : ℕ → α} {number : α → ℕ}
    (kept : ∀ value, value < 256 ^ size → number (word value) = value) :
    Spells [] (word <$> readNat size) fun found => toBytes size (number found) := by
  intro bytes found rest read
  rw [map_apply, Option.map_eq_some_iff] at read
  obtain ⟨⟨value, after⟩, taken, same⟩ := read
  obtain ⟨rfl, rfl⟩ := Prod.mk.inj same
  simp only [kept value (readNat_lt taken)]
  exact spells_readNat size bytes value after taken

theorem spells_readBytes (count : ℕ) : Spells [] (readBytes count) id := by
  intro bytes value rest read
  unfold readBytes at read
  split at read
  · obtain ⟨rfl, rfl⟩ := Prod.mk.inj (Option.some.inj read)
    rw [id, List.take_append_drop, List.nil_append]
  · cases read

end BigEndian
