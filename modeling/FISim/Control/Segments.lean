import FISim.Control.Download
import FISim.Control.EndHostDaemon
import FISim.Control.Manager
import FISim.Lib.Framing

/-!
The receive loops of the control plane against the ways to cut their streams.
Each of them reads one header per chunk.
-/

namespace FISim.Control

open Framing BigEndian

def peekManagerHeader (packet : Packet) : Option CybertwinManagerHeader :=
  (CybertwinManagerHeader.deserialize packet).map Prod.fst

def managerStream (messages : List CybertwinManagerHeader) : List UInt8 :=
  messages.flatMap CybertwinManagerHeader.serialize

/-- The loop sees every message once and in order, and ends as it does for one message a chunk. -/
def Handles {Outcome : Type} (receive : List Packet → Outcome)
    (messages : List CybertwinManagerHeader) (packets : List Packet) : Prop :=
  heads peekManagerHeader packets = some messages ∧
    receive packets = receive (messages.map CybertwinManagerHeader.serialize)

theorem handles_iff {Outcome : Type} (receive : List Packet → Outcome)
    (messages : List CybertwinManagerHeader) (cuts : Cuts (managerStream messages).length) :
    Handles receive messages cuts.chunks ↔
      (∀ message ∈ messages, message.cname.length ≤ 65535) ∧
        cuts.lengths = messages.map CybertwinManagerHeader.getSerializedSize := by
  have reads : ∀ message : CybertwinManagerHeader, message.cname.length ≤ 65535 →
      peekManagerHeader message.serialize = some message := by
    intro message fits
    have found := CybertwinManagerHeader.reads fits []
    rw [List.append_nil] at found
    rw [peekManagerHeader, found]
    rfl
  have covers : ∀ packet message, peekManagerHeader packet = some message →
      message.cname.length ≤ 65535 ∧ message.serialize.length ≤ packet.length := by
    intro packet message found
    obtain ⟨⟨header, rest⟩, read, rfl⟩ := Option.map_eq_some_iff.mp found
    obtain ⟨fits, size⟩ := CybertwinManagerHeader.deserialize_spec read
    rw [CybertwinManagerHeader.serialize_length, size]
    exact ⟨fits, Nat.le_add_right _ _⟩
  have sizes : (messages.map fun message => message.serialize.length) =
      messages.map CybertwinManagerHeader.getSerializedSize :=
    List.map_congr_left fun message _ => message.serialize_length
  have found := heads_eq_some_iff reads covers cuts.chunks_flatten
  rw [cuts.chunks_lengths, sizes] at found
  constructor
  · exact fun handles => found.mp handles.1
  · intro exact_
    refine ⟨found.mpr exact_, congrArg receive ?_⟩
    refine eq_of_flatten_eq ?_ ?_
    · rw [cuts.chunks_flatten, managerStream, List.flatMap_def]
    · rw [cuts.chunks_lengths, List.map_map, exact_.2, ← sizes]
      rfl

/-- A request of an end host with padding after the header. -/
def padded (header : EndHostHeader) (padding : ℕ) : Packet :=
  header.serialize ++ List.replicate padding 0

def requests (headers : List EndHostHeader) (paddings : List ℕ) : List Packet :=
  List.zipWith padded headers paddings

def downloads (headers : List EndHostHeader) : List CybertwinId :=
  (headers.filter fun header => header.command = EndHostCommand.downloadRequest.code).map
    EndHostHeader.targetID

theorem localRecvCallback_append (first second : List Packet) :
    localRecvCallback (first ++ second) = (localRecvCallback first).bind fun early =>
      (localRecvCallback second).map fun late => early ++ late := by
  induction first with
  | nil =>
      change localRecvCallback second = (localRecvCallback second).map id
      rw [Option.map_id]
      rfl
  | cons packet rest ih =>
      rw [List.cons_append, localRecvCallback, localRecvCallback, ih]
      cases EndHostHeader.deserialize packet with
      | none => rfl
      | some read =>
          cases localRecvCallback rest with
          | none => rfl
          | some early =>
              cases localRecvCallback second with
              | none => rfl
              | some late =>
                  simp only [Option.bind_eq_bind, Option.bind_some, Option.map_some,
                    Option.pure_def]
                  split <;> rfl

theorem localRecvCallback_long {packets : List Packet}
    (finished : (localRecvCallback packets).isSome) : ∀ packet ∈ packets, 9 ≤ packet.length := by
  induction packets with
  | nil => simp
  | cons packet rest ih =>
      obtain ⟨result, happened⟩ := Option.isSome_iff_exists.mp finished
      obtain ⟨read, here, happened⟩ := Option.bind_eq_some_iff.mp happened
      obtain ⟨later, there, _⟩ := Option.bind_eq_some_iff.mp happened
      intro other inside
      rcases List.mem_cons.mp inside with rfl | inside
      · exact (EndHostHeader.takes.isSome_iff _).mp (by rw [here]; rfl)
      · exact ih (by rw [there]; rfl) other inside

theorem localRecvCallback_idle {bytes : List UInt8} {rest : List Packet}
    (long : 8 ≤ bytes.length) :
    localRecvCallback ((0 :: bytes) :: rest) = localRecvCallback rest := by
  obtain ⟨header, read⟩ := EndHostHeader.takes.enough (0 :: bytes) (by simpa using long)
  have heartbeat : header.command = 0 := by
    have known : readU8 (0 :: bytes) = some (0, bytes) := reads_readU8 0 bytes
    rw [EndHostHeader.deserialize, bind_apply, known, Option.bind_some, bind_apply] at read
    obtain ⟨target, _, found⟩ := Option.bind_eq_some_iff.mp read
    exact (congrArg (fun pair => pair.1.command) (Option.some.inj found)).symm
  rw [localRecvCallback, read]
  cases localRecvCallback rest with
  | none => rfl
  | some later => simp [heartbeat, EndHostCommand.code]

theorem localRecvCallback_zeros {lengths : List ℕ} (large : ∀ length ∈ lengths, 9 ≤ length)
    {count : ℕ} (total : lengths.sum = count) :
    localRecvCallback (cut lengths (List.replicate count 0)) = some [] := by
  induction lengths generalizing count with
  | nil => rfl
  | cons length rest ih =>
      rw [List.sum_cons] at total
      obtain ⟨more, rfl⟩ := Nat.exists_eq_add_of_le (large length (by simp))
      have chunk : (List.replicate count (0 : UInt8)).take (9 + more) =
          0 :: List.replicate (8 + more) 0 := by
        rw [List.take_replicate, Nat.min_eq_left (by omega),
          show 9 + more = (8 + more) + 1 by omega, List.replicate_succ]
      rw [cut, chunk, localRecvCallback_idle (by simp), List.drop_replicate]
      exact ih (fun other inside => large other (by simp [inside])) (by omega)

theorem localRecvCallback_unseen {lengths : List ℕ} (large : ∀ length ∈ lengths, 9 ≤ length)
    {before after : ℕ} (apart : ∀ count, (lengths.take count).sum ≠ before) (byte : UInt8)
    (total : lengths.sum = before + (1 + after)) :
    localRecvCallback (cut lengths (List.replicate before 0 ++ byte :: List.replicate after 0)) =
      some [] := by
  induction lengths generalizing before with
  | nil =>
      rw [List.sum_nil] at total
      omega
  | cons length rest ih =>
      have largeRest : ∀ other ∈ rest, 9 ≤ other := fun other inside => large other (by simp [inside])
      rw [List.sum_cons] at total
      obtain ⟨more, rfl⟩ := Nat.exists_eq_add_of_le (large length (by simp))
      have started : before ≠ 0 := fun zero => apart 0 (by simp [zero])
      by_cases inside : 9 + more ≤ before
      · obtain ⟨left, rfl⟩ := Nat.exists_eq_add_of_le inside
        have chunk : (List.replicate (9 + more + left) (0 : UInt8) ++
            byte :: List.replicate after 0).take (9 + more) = 0 :: List.replicate (8 + more) 0 := by
          rw [List.take_append_of_le_length (by simp), List.take_replicate,
            Nat.min_eq_left (by omega), show 9 + more = (8 + more) + 1 by omega,
            List.replicate_succ]
        have later : (List.replicate (9 + more + left) (0 : UInt8) ++
            byte :: List.replicate after 0).drop (9 + more) =
              List.replicate left 0 ++ byte :: List.replicate after 0 := by
          rw [List.drop_append_of_le_length (by simp), List.drop_replicate,
            Nat.add_sub_cancel_left]
        rw [cut, chunk, localRecvCallback_idle (by simp), later]
        refine ih largeRest (fun count same => apart (count + 1) ?_) (by omega)
        rw [List.take_succ_cons, List.sum_cons, same]
      · obtain ⟨front, rfl⟩ := Nat.exists_eq_add_of_lt (Nat.pos_of_ne_zero started)
        have different : 9 + more ≠ 0 + front + 1 := fun same => apart 1 (by simp [same])
        obtain ⟨beyond, reach⟩ : ∃ beyond, 9 + more = (0 + front + 1) + (beyond + 1) :=
          ⟨9 + more - (front + 1) - 1, by omega⟩
        have size : (List.replicate (0 + front + 1) (0 : UInt8)).length = 0 + front + 1 := by simp
        have chunk : (List.replicate (0 + front + 1) (0 : UInt8) ++
            byte :: List.replicate after 0).take (9 + more) =
              0 :: (List.replicate front 0 ++ byte :: (List.replicate after 0).take beyond) := by
          rw [reach]
          nth_rewrite 1 [← size]
          rw [List.take_length_add_append, List.take_succ_cons, Nat.zero_add,
            List.replicate_succ]
          rfl
        have later : (List.replicate (0 + front + 1) (0 : UInt8) ++
            byte :: List.replicate after 0).drop (9 + more) =
              List.replicate (after - beyond) 0 := by
          rw [reach]
          nth_rewrite 1 [← size]
          rw [List.drop_length_add_append, List.drop_succ_cons, List.drop_replicate]
        rw [cut, chunk, localRecvCallback_idle, later]
        · exact localRecvCallback_zeros largeRest (by omega)
        · simp only [List.length_append, List.length_cons, List.length_replicate,
            List.length_take]
          omega

theorem downloads_cons (header : EndHostHeader) (rest : List EndHostHeader) :
    downloads (header :: rest) = downloads [header] ++ downloads rest := by
  by_cases request : header.command = EndHostCommand.downloadRequest.code
  · simp [downloads, request]
  · simp [downloads, request]

theorem localRecvCallback_request (header : EndHostHeader) (padding : ℕ) {group : List ℕ}
    (large : ∀ length ∈ group, 9 ≤ length) (total : group.sum = 9 + padding) :
    localRecvCallback (cut group (padded header padding)) = some (downloads [header]) := by
  cases group with
  | nil =>
      rw [List.sum_nil] at total
      omega
  | cons first rest =>
      obtain ⟨more, rfl⟩ := Nat.exists_eq_add_of_le (large first (by simp))
      rw [List.sum_cons] at total
      have chunk : (padded header padding).take (9 + more) =
          header.serialize ++ List.replicate more 0 := by
        rw [padded, ← header.serialize_length, List.take_length_add_append, List.take_replicate,
          Nat.min_eq_left (by omega)]
      have later : (padded header padding).drop (9 + more) =
          List.replicate (padding - more) 0 := by
        rw [padded, ← header.serialize_length, List.drop_length_add_append, List.drop_replicate]
      have zeros := localRecvCallback_zeros
        (fun other inside => large other (by simp [inside])) (by omega : rest.sum = padding - more)
      rw [cut, chunk, later, localRecvCallback, header.reads (List.replicate more 0), zeros]
      by_cases request : header.command = EndHostCommand.downloadRequest.code
      · simp [downloads, request]
      · simp [downloads, request]

theorem padded_length (header : EndHostHeader) (padding : ℕ) :
    (padded header padding).length = 9 + padding := by
  simp [padded]

theorem localRecvCallback_groups {headers : List EndHostHeader} {paddings : List ℕ}
    (counted : headers.length = paddings.length) {groups : List (List ℕ)}
    (sums : groups.map List.sum = paddings.map (9 + ·))
    (large : ∀ length ∈ groups.flatten, 9 ≤ length) :
    localRecvCallback (cut groups.flatten (requests headers paddings).flatten) =
      some (downloads headers) := by
  induction paddings generalizing headers groups with
  | nil =>
      obtain rfl := List.length_eq_zero_iff.mp counted
      obtain rfl : groups = [] := by simpa using sums
      rfl
  | cons padding paddings ih =>
      obtain ⟨header, headers, rfl⟩ := List.exists_cons_of_length_eq_add_one counted
      cases groups with
      | nil => cases sums
      | cons group groups =>
          rw [List.map_cons, List.map_cons, List.cons.injEq] at sums
          have largeHere : ∀ length ∈ group, 9 ≤ length :=
            fun length inside => large length (List.mem_append_left _ inside)
          have largeThere : ∀ length ∈ groups.flatten, 9 ≤ length :=
            fun length inside => large length (List.mem_append_right _ inside)
          have others : headers.length = paddings.length := by simpa using counted
          have here := localRecvCallback_request header padding largeHere sums.1
          have there := ih others sums.2 largeThere
          have front : group.sum = (padded header padding).length := by
            rw [padded_length, sums.1]
          rw [requests, List.zipWith_cons_cons, List.flatten_cons, List.flatten_cons,
            cut_append _ _ front, localRecvCallback_append, here, ← requests, there,
            downloads_cons header headers]
          rfl

theorem padded_idle (padding : ℕ) : padded {} padding = List.replicate (9 + padding) 0 := by
  rw [List.replicate_add]
  rfl

theorem requests_idle (paddings : List ℕ) :
    (requests (paddings.map fun _ => {}) paddings).flatten =
      List.replicate (paddings.map (9 + ·)).sum 0 := by
  induction paddings with
  | nil => rfl
  | cons padding paddings ih =>
      rw [List.map_cons, requests, List.zipWith_cons_cons, List.flatten_cons, ← requests, ih,
        padded_idle, ← List.replicate_add, List.map_cons, List.sum_cons]

theorem groups_of_seen {paddings lengths : List ℕ} (large : ∀ length ∈ lengths, 9 ≤ length)
    (total : lengths.sum = (paddings.map (9 + ·)).sum)
    (seen : ∀ headers : List EndHostHeader, headers.length = paddings.length →
      localRecvCallback (cut lengths (requests headers paddings).flatten) =
        some (downloads headers)) :
    ∃ groups : List (List ℕ), groups.flatten = lengths ∧
      groups.map List.sum = paddings.map (9 + ·) := by
  induction paddings generalizing lengths with
  | nil =>
      refine ⟨[], ?_, rfl⟩
      cases lengths with
      | nil => rfl
      | cons first rest =>
          have positive := large first (by simp)
          simp only [List.sum_cons, List.map_nil, List.sum_nil] at total
          omega
  | cons padding paddings ih =>
      obtain ⟨count, here⟩ : ∃ count, (lengths.take count).sum = 9 + padding := by
        by_contra apart
        push Not at apart
        cases paddings with
        | nil =>
            refine apart lengths.length ?_
            rw [List.take_length, total]
            simp
        | cons second paddings =>
            let request : EndHostHeader := { command := EndHostCommand.downloadRequest.code }
            let headers := ({} : EndHostHeader) :: request :: paddings.map fun _ => {}
            have stream : (requests headers (padding :: second :: paddings)).flatten =
                List.replicate (9 + padding) 0 ++ 1 ::
                  List.replicate (8 + second + (paddings.map (9 + ·)).sum) 0 := by
              have head : request.serialize = 1 :: List.replicate 8 0 := by decide
              have two : padded request second = 1 :: List.replicate (8 + second) 0 := by
                rw [padded, head, List.replicate_add, List.cons_append]
              simp only [headers, requests, List.zipWith_cons_cons, List.flatten_cons]
              rw [← requests, requests_idle, padded_idle, two, List.cons_append, ← List.replicate_add]
            have unseen := localRecvCallback_unseen large apart 1
              (by simp only [total, List.map_cons, List.sum_cons]; omega :
                lengths.sum = 9 + padding + (1 + (8 + second + (paddings.map (9 + ·)).sum)))
            have all := seen headers (by simp [headers])
            rw [stream, unseen, Option.some.injEq] at all
            have first : downloads headers = request.targetID :: downloads (paddings.map fun _ => {}) := by
              simp [downloads, headers, request, EndHostCommand.code]
            rw [first] at all
            cases all
      have front : (lengths.take count).sum = (padded {} padding).length := by
        rw [here, padded_length]
      have split : lengths = lengths.take count ++ lengths.drop count :=
        (List.take_append_drop count lengths).symm
      have rest : (lengths.drop count).sum = (paddings.map (9 + ·)).sum := by
        have whole := congrArg List.sum split
        rw [List.sum_append, total, List.map_cons, List.sum_cons, here] at whole
        omega
      obtain ⟨groups, flat, sums⟩ := ih
        (fun length inside => large length (List.mem_of_mem_drop inside)) rest (by
          intro headers counted
          have all := seen ({} :: headers) (by simp [counted])
          rw [requests, List.zipWith_cons_cons, List.flatten_cons, ← requests, split,
            cut_append _ _ front, localRecvCallback_append,
            localRecvCallback_request {} padding
              (fun length inside => large length (List.mem_of_mem_take inside)) here,
            downloads_cons {} headers] at all
          have none : downloads [{}] = [] := by decide
          rw [none, Option.bind_some] at all
          simpa using all)
      refine ⟨lengths.take count :: groups, ?_, ?_⟩
      · rw [List.flatten_cons, flat, ← split]
      · rw [List.map_cons, List.map_cons, sums, here]

theorem requests_length (headers : List EndHostHeader) {paddings : List ℕ}
    (counted : headers.length = paddings.length) :
    (requests headers paddings).flatten.length = (paddings.map (9 + ·)).sum := by
  induction paddings generalizing headers with
  | nil => simp [requests]
  | cons padding paddings ih =>
      obtain ⟨header, headers, rfl⟩ := List.exists_cons_of_length_eq_add_one counted
      rw [requests, List.zipWith_cons_cons, List.flatten_cons, List.length_append, ← requests,
        ih headers (by simpa using counted), padded_length, List.map_cons, List.sum_cons]

/-- The manager and the daemon handle their streams exactly when every chunk is one message (with
a name that fits its length field); the requests to a Cybertwin are seen, whatever they are,
exactly when no chunk touches two of them or is shorter than a header. -/
theorem handled_iff_separate (stringToUint64 : List UInt8 → CybertwinId) (localAddr : UInt32)
    (manager : CybertwinManager) (messages : List CybertwinManagerHeader)
    (cuts : Cuts (managerStream messages).length) (daemon : CybertwinEndHostDaemon)
    (replies : List CybertwinManagerHeader) (replyCuts : Cuts (managerStream replies).length)
    (paddings : List ℕ) (requestCuts : Cuts (paddings.map (9 + ·)).sum) :
    (Handles (manager.receiveFromHost stringToUint64 localAddr) messages cuts.chunks ↔
      (∀ message ∈ messages, message.cname.length ≤ 65535) ∧
        cuts.lengths = messages.map CybertwinManagerHeader.getSerializedSize) ∧
    (Handles daemon.recvFromCybertwinManangerCallback replies replyCuts.chunks ↔
      (∀ reply ∈ replies, reply.cname.length ≤ 65535) ∧
        replyCuts.lengths = replies.map CybertwinManagerHeader.getSerializedSize) ∧
    ((∀ headers : List EndHostHeader, headers.length = paddings.length →
        localRecvCallback (cut requestCuts.lengths (requests headers paddings).flatten) =
          some (downloads headers)) ↔
      (∀ length ∈ requestCuts.lengths, 9 ≤ length) ∧
        ∃ groups : List (List ℕ), groups.flatten = requestCuts.lengths ∧
          groups.map List.sum = paddings.map (9 + ·)) := by
  refine ⟨handles_iff _ messages cuts, handles_iff _ replies replyCuts, ?_, ?_⟩
  · intro seen
    have large : ∀ length ∈ requestCuts.lengths, 9 ≤ length := by
      let idle : List EndHostHeader := paddings.map fun _ => {}
      have counted : idle.length = paddings.length := by simp [idle]
      have long := localRecvCallback_long (by rw [seen idle counted]; rfl)
      have enough := requestCuts.total.trans (requests_length idle counted).symm
      intro length inside
      rw [← cut_lengths enough.le] at inside
      obtain ⟨packet, member, rfl⟩ := List.mem_map.mp inside
      exact long packet member
    exact ⟨large, groups_of_seen large requestCuts.total seen⟩
  · rintro ⟨large, groups, flat, sums⟩ headers counted
    rw [← flat] at large ⊢
    exact localRecvCallback_groups counted sums large

def waitingDaemon : CybertwinEndHostDaemon := { endHost := { name := [104] } }

def authentications : List CybertwinManagerHeader :=
  waitingDaemon.authenticate.toList ++ waitingDaemon.authenticate.toList

def together : Cuts (managerStream authentications).length where
  lengths := [28]
  positive := by decide
  total := by decide

-- Two requests of a daemon reach the manager in one chunk: the second one is lost.
theorem authentications_together :
    ¬ Handles (({} : CybertwinManager).receiveFromHost (fun _ => 7) 1) authentications
        together.chunks ∧
      (({} : CybertwinManager).receiveFromHost (fun _ => 7) 1 together.chunks).map
        (fun outcome => outcome.2.length) = some 1 := by
  refine ⟨fun handles => ?_, by decide +kernel⟩
  have one : heads peekManagerHeader together.chunks ≠ some authentications := by decide +kernel
  exact one handles.1

end FISim.Control
