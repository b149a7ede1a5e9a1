import FISim.Common
import FISim.Lib.Transition

/-!
`CybertwinAppDownloadServer`: every connection is sent to by an event that
schedules itself again.
-/

namespace FISim.Control

open Transition

def systemPacketSize : ℕ := 536

/-- Sockets are numbers, and `scheduled` are the sockets of the pending `SendData` events.
`sockets`, `isOpen`, `accepted` and `closedHere` are not the program's: which sockets were made and
are open, how many bytes each has taken, and which ones the server has closed. -/
structure CybertwinAppDownloadServer where
  maxBytes : UInt64
  sendBytes : ℕ → UInt64 := fun _ => 0
  scheduled : List ℕ := []
  sockets : List ℕ := []
  isOpen : ℕ → Bool := fun _ => false
  accepted : ℕ → ℕ := fun _ => 0
  closedHere : List ℕ := []

namespace CybertwinAppDownloadServer

/-- `sendSize` is what the socket answers to `Send`. -/
inductive Event
  | connCreated (socket : ℕ)
  | sendData (socket : ℕ) (sendSize : Int)
  | closed (socket : ℕ)
  deriving DecidableEq, Repr

variable (server : CybertwinAppDownloadServer)

def connCreatedCallback (socket : ℕ) : CybertwinAppDownloadServer :=
  { server with
    sendBytes := Function.update server.sendBytes socket 0
    scheduled := server.scheduled ++ [socket]
    sockets := socket :: server.sockets
    isOpen := Function.update server.isOpen socket true }

def close (socket : ℕ) : CybertwinAppDownloadServer :=
  { server with
    isOpen := Function.update server.isOpen socket false
    closedHere := socket :: server.closedHere }

def sendData (socket : ℕ) (sendSize : Int) : CybertwinAppDownloadServer :=
  if server.sendBytes socket ≥ server.maxBytes then server.close socket
  else if sendSize ≤ 0 then server
  else
    { server with
      sendBytes := Function.update server.sendBytes socket
        (server.sendBytes socket + UInt64.ofInt sendSize)
      accepted := Function.update server.accepted socket
        (server.accepted socket + sendSize.toNat)
      scheduled := server.scheduled ++ [socket] }

-- An open socket takes no more than the packet, and a closed one takes nothing.
def room (socket : ℕ) : ℕ := if server.isOpen socket then systemPacketSize else 0

def step : Event → Option CybertwinAppDownloadServer
  | .connCreated socket =>
      if socket ∈ server.sockets then none else some (server.connCreatedCallback socket)
  | .sendData socket sendSize =>
      if socket ∈ server.scheduled ∧ sendSize ≤ server.room socket then
        some ({ server with scheduled := server.scheduled.erase socket }.sendData socket sendSize)
      else none
  | .closed socket =>
      if server.isOpen socket then
        some { server with isOpen := Function.update server.isOpen socket false }
      else none

def Alive : Prop :=
  ∀ socket, server.isOpen socket = true → server.sendBytes socket < server.maxBytes →
    server.scheduled.count socket = 1

structure Progress : Prop where
  alive : server.Alive
  served : ∀ socket ∈ server.closedHere, server.maxBytes.toNat ≤ server.accepted socket ∧
    server.accepted socket < server.maxBytes.toNat + systemPacketSize

def NotRefused : Event → Prop
  | .sendData socket sendSize =>
      server.isOpen socket = true → server.sendBytes socket < server.maxBytes → 0 < sendSize
  | _ => True

/-- Nothing is refused, and the bytes are counted in 64 bits without a carry. -/
def Counts : Event → Prop
  | .sendData socket sendSize => server.NotRefused (.sendData socket sendSize) ∧
      (server.sendBytes socket < server.maxBytes →
        (server.sendBytes socket).toNat + sendSize.toNat < 2 ^ 64)
  | _ => True

instance (event : Event) : Decidable (server.NotRefused event) := by
  cases event <;> unfold NotRefused <;> infer_instance

instance (event : Event) : Decidable (server.Counts event) := by
  cases event <;> unfold Counts <;> infer_instance

/-- Only sockets that were made are open or sent to. -/
structure Known : Prop where
  scheduled : ∀ socket ∈ server.scheduled, socket ∈ server.sockets
  opened : ∀ socket, server.isOpen socket = true → socket ∈ server.sockets

structure Kept : Prop where
  known : server.Known
  alive : ∀ socket, server.isOpen socket = true → server.scheduled.count socket = 1

structure Counted : Prop where
  known : server.Known
  bytes : ∀ socket, (server.sendBytes socket).toNat = server.accepted socket
  below : ∀ socket, server.accepted socket < server.maxBytes.toNat + systemPacketSize
  served : ∀ socket ∈ server.closedHere, server.maxBytes.toNat ≤ server.accepted socket
  unused : ∀ socket, socket ∉ server.sockets → server.accepted socket = 0

variable {server} {next : CybertwinAppDownloadServer}

theorem sendData_cases {socket : ℕ} {sendSize : Int}
    (stepped : server.step (.sendData socket sendSize) = some next) :
    socket ∈ server.scheduled ∧ sendSize ≤ server.room socket ∧
      (server.maxBytes ≤ server.sendBytes socket ∧
          next = { server with scheduled := server.scheduled.erase socket }.close socket ∨
        server.sendBytes socket < server.maxBytes ∧ sendSize ≤ 0 ∧
          next = { server with scheduled := server.scheduled.erase socket } ∨
        server.sendBytes socket < server.maxBytes ∧ 0 < sendSize ∧
          next = { server with
            sendBytes := Function.update server.sendBytes socket
              (server.sendBytes socket + UInt64.ofInt sendSize)
            accepted := Function.update server.accepted socket
              (server.accepted socket + sendSize.toNat)
            scheduled := server.scheduled.erase socket ++ [socket] }) := by
  simp only [step] at stepped
  split at stepped
  · rename_i pending
    refine ⟨pending.1, pending.2, ?_⟩
    rw [← Option.some.inj stepped, sendData]
    dsimp only
    split
    · rename_i reached
      exact Or.inl ⟨reached, rfl⟩
    · rename_i below
      rw [ge_iff_le, UInt64.not_le] at below
      split
      · rename_i refused
        exact Or.inr (Or.inl ⟨below, refused, rfl⟩)
      · rename_i taken
        exact Or.inr (Or.inr ⟨below, by omega, rfl⟩)
  · cases stepped

theorem connCreated_cases {socket : ℕ} (stepped : server.step (.connCreated socket) = some next) :
    socket ∉ server.sockets ∧ next = server.connCreatedCallback socket := by
  simp only [step] at stepped
  split at stepped
  · cases stepped
  · rename_i fresh
    exact ⟨fresh, (Option.some.inj stepped).symm⟩

theorem closed_cases {socket : ℕ} (stepped : server.step (.closed socket) = some next) :
    next = { server with isOpen := Function.update server.isOpen socket false } := by
  simp only [step] at stepped
  split at stepped
  · exact (Option.some.inj stepped).symm
  · cases stepped

theorem open_before {socket other : ℕ}
    (isOpen : Function.update server.isOpen socket false other = true) :
    other ≠ socket ∧ server.isOpen other = true := by
  by_cases same : other = socket
  · simp [same] at isOpen
  · exact ⟨same, by rwa [Function.update_of_ne same] at isOpen⟩

theorem Known.step (known : server.Known) {event : Event}
    (stepped : server.step event = some next) : next.Known := by
  have shorter : ∀ socket other, other ∈ server.scheduled.erase socket →
      other ∈ server.sockets :=
    fun _ other inside => known.scheduled other (List.mem_of_mem_erase inside)
  cases event with
  | connCreated socket =>
      obtain ⟨-, rfl⟩ := connCreated_cases stepped
      refine ⟨?_, ?_⟩
      · intro other member
        rcases List.mem_append.mp member with before | last
        · exact List.mem_cons_of_mem socket (known.scheduled other before)
        · rw [List.mem_singleton.mp last]
          exact List.mem_cons_self
      · intro other isOpen
        by_cases same : other = socket
        · rw [same]
          exact List.mem_cons_self
        · simp only [connCreatedCallback, Function.update_of_ne same] at isOpen
          exact List.mem_cons_of_mem socket (known.opened other isOpen)
  | sendData socket sendSize =>
      obtain ⟨member, -, ⟨-, rfl⟩ | ⟨-, -, rfl⟩ | ⟨-, -, rfl⟩⟩ := sendData_cases stepped
      · exact ⟨shorter socket, fun other isOpen => known.opened other (open_before isOpen).2⟩
      · exact ⟨shorter socket, known.opened⟩
      · refine ⟨?_, known.opened⟩
        intro other inside
        rcases List.mem_append.mp inside with before | last
        · exact shorter socket other before
        · rw [List.mem_singleton.mp last]
          exact known.scheduled socket member
  | closed socket =>
      obtain rfl := closed_cases stepped
      exact ⟨known.scheduled, fun other isOpen => known.opened other (open_before isOpen).2⟩

theorem count_erase_append {scheduled : List ℕ} {socket : ℕ} (member : socket ∈ scheduled)
    (other : ℕ) : (scheduled.erase socket ++ [socket]).count other = scheduled.count other := by
  have permuted : (scheduled.erase socket ++ [socket]).Perm scheduled :=
    (List.perm_append_singleton socket _).trans (List.perm_cons_erase member).symm
  exact permuted.count_eq other

theorem Kept.step (kept : server.Kept) {event : Event} (taken : server.NotRefused event)
    (stepped : server.step event = some next) : next.Kept := by
  refine ⟨kept.known.step stepped, ?_⟩
  cases event with
  | connCreated socket =>
      obtain ⟨fresh, rfl⟩ := connCreated_cases stepped
      intro other isOpen
      simp only [connCreatedCallback, List.count_append] at isOpen ⊢
      by_cases same : other = socket
      · have unscheduled : server.scheduled.count socket = 0 :=
          List.count_eq_zero.mpr fun member => fresh (kept.known.scheduled socket member)
        rw [same, unscheduled, List.count_singleton_self]
      · rw [Function.update_of_ne same] at isOpen
        rw [kept.alive other isOpen, List.count_singleton, if_neg (by simpa using Ne.symm same)]
  | sendData socket sendSize =>
      obtain ⟨member, -, ⟨-, rfl⟩ | ⟨below, refused, rfl⟩ | ⟨-, -, rfl⟩⟩ := sendData_cases stepped
      · intro other isOpen
        obtain ⟨different, isOpen⟩ := open_before isOpen
        dsimp only [close]
        rw [List.count_erase_of_ne different, kept.alive other isOpen]
      · intro other isOpen
        by_cases same : other = socket
        · subst same
          exact absurd (taken isOpen below) (by omega)
        · dsimp only
          rw [List.count_erase_of_ne same, kept.alive other isOpen]
      · intro other isOpen
        dsimp only
        rw [count_erase_append member, kept.alive other isOpen]
  | closed socket =>
      obtain rfl := closed_cases stepped
      exact fun other isOpen => kept.alive other (open_before isOpen).2

theorem Kept.notRefused (kept : server.Kept) {event : Event}
    (stepped : server.step event = some next) (alive : next.Alive) : server.NotRefused event := by
  cases event with
  | sendData socket sendSize =>
      intro isOpen below
      by_contra refused
      obtain ⟨-, -, ⟨reached, -⟩ | ⟨-, -, rfl⟩ | ⟨-, taken, -⟩⟩ := sendData_cases stepped
      · exact absurd below (UInt64.not_lt.mpr reached)
      · have once := alive socket isOpen below
        dsimp only at once
        rw [List.count_erase_self, kept.alive socket isOpen] at once
        cases once
      · exact refused taken
  | connCreated socket => trivial
  | closed socket => trivial

theorem room_le (socket : ℕ) : server.room socket ≤ systemPacketSize := by
  rw [room]
  split
  · exact Nat.le_refl _
  · exact Nat.zero_le _

theorem Counted.taken (counted : server.Counted) {socket : ℕ} {sendSize : Int}
    (scheduled : socket ∈ server.scheduled) (least : 0 < sendSize)
    (most : sendSize ≤ server.room socket)
    (below : server.sendBytes socket < server.maxBytes)
    (fits : (server.sendBytes socket).toNat + sendSize.toNat < 2 ^ 64)
    (known : next.Known)
    (same : next = { server with
      sendBytes := Function.update server.sendBytes socket
        (server.sendBytes socket + UInt64.ofInt sendSize)
      accepted := Function.update server.accepted socket
        (server.accepted socket + sendSize.toNat)
      scheduled := server.scheduled.erase socket ++ [socket] }) : next.Counted := by
  have size := server.room_le socket
  have bytes := counted.bytes socket
  rw [UInt64.lt_iff_toNat_lt, bytes] at below
  rw [bytes] at fits
  obtain ⟨count, rfl⟩ : ∃ count : ℕ, sendSize = count := ⟨sendSize.toNat, by omega⟩
  rw [Int.toNat_natCast] at fits same
  subst same
  refine ⟨known, ?_, ?_, ?_, ?_⟩
  · intro other
    dsimp only
    by_cases here : other = socket
    · rw [here, Function.update_self, Function.update_self, UInt64.toNat_add, bytes,
        toNat_ofInt]
      omega
    · rw [Function.update_of_ne here, Function.update_of_ne here, counted.bytes]
  · intro other
    dsimp only
    by_cases here : other = socket
    · rw [here, Function.update_self]
      omega
    · rw [Function.update_of_ne here]
      exact counted.below other
  · intro other member
    have served := counted.served other member
    dsimp only
    by_cases here : other = socket
    · rw [here] at served
      omega
    · rw [Function.update_of_ne here]
      exact served
  · intro other unknown
    have here : other ≠ socket := by
      rintro rfl
      exact unknown (counted.known.scheduled other scheduled)
    dsimp only
    rw [Function.update_of_ne here]
    exact counted.unused other unknown

theorem Counted.step (counted : server.Counted) {event : Event} (counts : server.Counts event)
    (stepped : server.step event = some next) : next.Counted := by
  have known := counted.known.step stepped
  cases event with
  | connCreated socket =>
      obtain ⟨fresh, rfl⟩ := connCreated_cases stepped
      refine ⟨known, ?_, counted.below, counted.served, ?_⟩
      · intro other
        by_cases same : other = socket
        · simp [connCreatedCallback, same, counted.unused socket fresh]
        · simp only [connCreatedCallback, Function.update_of_ne same]
          exact counted.bytes other
      · intro other unknown
        simp only [connCreatedCallback, List.mem_cons, not_or] at unknown
        exact counted.unused other unknown.2
  | sendData socket sendSize =>
      obtain ⟨member, most, ⟨reached, rfl⟩ | ⟨-, -, rfl⟩ | ⟨below, least, same⟩⟩ :=
        sendData_cases stepped
      · refine ⟨known, counted.bytes, counted.below, ?_, counted.unused⟩
        intro other listed
        rcases List.mem_cons.mp listed with rfl | earlier
        · rw [UInt64.le_iff_toNat_le, counted.bytes] at reached
          exact reached
        · exact counted.served other earlier
      · exact ⟨known, counted.bytes, counted.below, counted.served, counted.unused⟩
      · exact counted.taken member least most below (counts.2 below) known same
  | closed socket =>
      obtain rfl := closed_cases stepped
      exact ⟨known, counted.bytes, counted.below, counted.served, counted.unused⟩

def initial (maxBytes : UInt64) : CybertwinAppDownloadServer where
  maxBytes

theorem initial_known (maxBytes : UInt64) : (initial maxBytes).Known := by
  refine ⟨?_, ?_⟩
  · rintro socket ⟨⟩
  · rintro socket ⟨⟩

theorem initial_kept (maxBytes : UInt64) : (initial maxBytes).Kept := by
  refine ⟨initial_known maxBytes, ?_⟩
  rintro socket ⟨⟩

theorem initial_counted (maxBytes : UInt64) : (initial maxBytes).Counted := by
  refine ⟨initial_known maxBytes, fun _ => rfl, ?_, ?_, fun _ _ => rfl⟩
  · intro socket
    exact Nat.succ_pos _
  · rintro socket ⟨⟩

theorem Counts.notRefused {event : Event} (counts : server.Counts event) :
    server.NotRefused event := by
  cases event with
  | sendData socket sendSize => exact counts.1
  | connCreated socket => trivial
  | closed socket => trivial

/-- Every open connection keeps its one event where no `Send` is refused, and only there; what is
closed by the server has had its bytes as long as they can be counted. -/
theorem progress_of_notRefused (maxBytes : UInt64) (events : List Event)
    (ran : (run step (initial maxBytes) events).isSome) :
    (Guarded step Counts (initial maxBytes) events →
      Throughout step Progress (initial maxBytes) events) ∧
    (Throughout step Progress (initial maxBytes) events →
      Guarded step NotRefused (initial maxBytes) events) := by
  constructor
  · intro counts first second middle split reached
    have keeps : ∀ server event next, Kept server ∧ Counted server → Counts server event →
        step server event = some next → Kept next ∧ Counted next := by
      rintro server event next ⟨kept, counted⟩ met stepped
      exact ⟨kept.step met.notRefused stepped, counted.step met stepped⟩
    obtain ⟨kept, counted⟩ := throughout_of_guarded keeps
      ⟨initial_kept maxBytes, initial_counted maxBytes⟩ counts first second middle split reached
    exact ⟨fun socket isOpen _ => kept.alive socket isOpen,
      fun socket member => ⟨counted.served socket member, counted.below socket⟩⟩
  · intro progress
    have alive_iff : Throughout step Alive (initial maxBytes) events ↔
        Guarded step NotRefused (initial maxBytes) events :=
      throughout_iff_guarded_of
        (fun server (kept : Kept server) socket isOpen _ => kept.alive socket isOpen)
        (fun server event next kept met stepped => kept.step met stepped)
        (fun server event next kept stepped alive => kept.notRefused stepped alive)
        (initial_kept maxBytes) ran
    exact alive_iff.mp fun first second middle split reached =>
      (progress first second middle split reached).alive

/-- Two connections of which one is closed by its peer. -/
def served : List Event :=
  [.connCreated 0, .connCreated 1, .sendData 0 536, .sendData 1 536, .closed 1, .sendData 1 (-1),
    .sendData 0 464, .sendData 0 536]

theorem progress_of_notRefused_served :
    Throughout step Progress (initial 1000) served ∧
      Guarded step NotRefused (initial 1000) served := by
  have both := progress_of_notRefused 1000 served (by decide +kernel)
  have kept := both.1 (by decide +kernel)
  exact ⟨kept, both.2 kept⟩

/-- A full send buffer ends the transfer while the connection stays open. -/
theorem refused_stalls : ∃ server,
    run step (initial 1000) [.connCreated 0, .sendData 0 536, .sendData 0 (-1)] = some server ∧
      server.isOpen 0 = true ∧ server.sendBytes 0 < server.maxBytes ∧ server.scheduled = [] ∧
      ¬ server.Progress := by
  refine ⟨_, rfl, rfl, by decide, rfl, ?_⟩
  intro progress
  exact absurd (progress.alive 0 rfl (by decide)) (by decide)

end CybertwinAppDownloadServer

end FISim.Control
