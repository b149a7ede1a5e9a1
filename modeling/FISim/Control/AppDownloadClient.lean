import FISim.Control.EndHostDaemon
import FISim.Control.AppDownloadServer

/-!
`CybertwinAppDownloadClient`: when it connects to the cybertwin of its end host,
while the daemon there registers at some time or never.
-/

namespace FISim.Control

open Transition

-- Times are nanoseconds.
def second : ℕ := 1000000000

/-- A connection, with what the daemon knew when it was opened. -/
structure Opened where
  cybertwinAddr : UInt32
  cybertwinPort : UInt16
  daemon : CybertwinEndHostDaemon
  deriving DecidableEq, Repr

/-- `starts` are the times of the pending `StartApplication` events, in the order in which they come;
a socket is its place in `opened`.  `registeredAt` is not the program's: when the daemon became
registered. -/
structure CybertwinAppDownloadClient where
  daemon : CybertwinEndHostDaemon
  managerAddr : UInt32
  targetCybertwinId : CybertwinId
  now : ℕ := 0
  starts : List ℕ
  opened : List Opened := []
  answered : List ℕ := []
  requests : List (ℕ × Packet) := []
  registeredAt : Option ℕ := none

namespace CybertwinAppDownloadClient

inductive Event
  | startApplication
  | connectSucceeded (time socket : ℕ)
  | connectFailed (time socket : ℕ)
  | daemonReceives (time : ℕ) (packets : List Packet)
  | wait (time : ℕ)
  deriving DecidableEq, Repr

/-- The loop that waits for the daemon, which schedules the application again in each turn. -/
def waitForDaemon (daemon : CybertwinEndHostDaemon) (now : ℕ) : ℕ → List ℕ → List ℕ
  | 0, starts => starts
  | turns + 1, starts =>
      if daemon.isRegisteredToCybertwin then starts
      else waitForDaemon daemon now turns (starts ++ [now + second])

variable (client : CybertwinAppDownloadClient)

def connect : Opened where
  cybertwinAddr := client.managerAddr
  cybertwinPort := client.daemon.cybertwinPort
  daemon := client.daemon

def startApplication (time : ℕ) (rest : List ℕ) : CybertwinAppDownloadClient :=
  { client with
    now := time
    starts := waitForDaemon client.daemon time 10 rest
    opened := client.opened ++ [client.connect] }

def downloadRequest : Packet :=
  let endHostHeader : EndHostHeader :=
    { command := EndHostCommand.downloadRequest.code, targetID := client.targetCybertwinId }
  endHostHeader.serialize ++
    List.replicate (systemPacketSize - endHostHeader.getSerializedSize) 0

-- Nothing happens after a pending event is due and before it comes.
def timely (time : ℕ) : Bool := client.now ≤ time ∧ client.starts.head?.all fun due => time ≤ due

def awaited (socket : ℕ) : Bool := socket < client.opened.length ∧ socket ∉ client.answered

def step : Event → Option CybertwinAppDownloadClient
  | .startApplication =>
      match client.starts with
      | [] => none
      | due :: rest => some (client.startApplication due rest)
  | .connectSucceeded time socket =>
      if client.timely time ∧ client.awaited socket then
        some { client with
          now := time
          answered := socket :: client.answered
          requests := client.requests ++ [(socket, client.downloadRequest)] }
      else none
  | .connectFailed time socket =>
      if client.timely time ∧ client.awaited socket then
        some { client with now := time, answered := socket :: client.answered }
      else none
  | .daemonReceives time packets =>
      if client.timely time then do
        let daemon ← client.daemon.recvFromCybertwinManangerCallback packets
        return { client with
          now := time
          daemon
          registeredAt := client.registeredAt.or
            (if daemon.isRegisteredToCybertwin then some time else none) }
      else none
  | .wait time => if client.timely time then some { client with now := time } else none

/-- For an application that starts at `start`. -/
structure ConnectsOnce (start : ℕ) : Prop where
  connections : client.opened.length ≤ 1
  requests : client.requests.length ≤ 1
  registered : ∀ opened ∈ client.opened, opened.daemon.isRegisteredToCybertwin = true ∧
    opened.cybertwinPort = opened.daemon.cybertwinPort
  prompt : ∀ time ∈ client.registeredAt, time ≤ start + 10 * second →
    start + 10 * second < client.now → client.opened ≠ []

def StartsRegistered : Event → Prop
  | .startApplication => client.daemon.isRegisteredToCybertwin = true
  | _ => True

instance (event : Event) : Decidable (client.StartsRegistered event) := by
  cases event <;> unfold StartsRegistered <;> infer_instance

/-- Before the application starts, and after it has started once. -/
structure Kept (start : ℕ) : Prop where
  phase : client.starts = [start] ∧ client.opened = [] ∧ client.now ≤ start ∨
    client.starts = [] ∧ client.opened.length = 1
  answered : client.answered.Nodup
  sockets : ∀ socket ∈ client.answered, socket < client.opened.length
  requests : client.requests.length ≤ client.answered.length
  registered : ∀ opened ∈ client.opened, opened.daemon.isRegisteredToCybertwin = true ∧
    opened.cybertwinPort = opened.daemon.cybertwinPort

variable {client} {next : CybertwinAppDownloadClient} {start : ℕ}

theorem Kept.connectsOnce (kept : client.Kept start) : client.ConnectsOnce start := by
  have most : client.opened.length ≤ 1 := by
    rcases kept.phase with ⟨-, none_, -⟩ | ⟨-, one⟩
    · rw [none_]
      exact Nat.zero_le 1
    · omega
  have answers : client.answered.length ≤ client.opened.length := by
    have inside : client.answered ⊆ List.range client.opened.length :=
      fun socket member => List.mem_range.mpr (kept.sockets socket member)
    simpa using (kept.answered.subperm inside).length_le
  refine ⟨most, ?_, kept.registered, ?_⟩
  · have requests := kept.requests
    omega
  · intro time _ _ late
    rcases kept.phase with ⟨-, -, early⟩ | ⟨-, one⟩
    · omega
    · exact List.ne_nil_of_length_pos (by omega)

theorem Kept.later (kept : client.Kept start) {time : ℕ} (timely : client.timely time = true)
    (starts : next.starts = client.starts) (opened : next.opened = client.opened)
    (now : next.now = time) :
    next.starts = [start] ∧ next.opened = [] ∧ next.now ≤ start ∨
      next.starts = [] ∧ next.opened.length = 1 := by
  rw [starts, opened, now]
  rcases kept.phase with ⟨pending, none_, -⟩ | done
  · refine Or.inl ⟨pending, none_, ?_⟩
    simp only [CybertwinAppDownloadClient.timely, pending, List.head?_cons, Option.all_some,
      decide_eq_true_eq] at timely
    exact timely.2
  · exact Or.inr done

theorem Kept.step (kept : client.Kept start) {event : Event}
    (registered : client.StartsRegistered event) (stepped : client.step event = some next) :
    next.Kept start := by
  cases event with
  | startApplication =>
      simp only [CybertwinAppDownloadClient.step] at stepped
      rw [StartsRegistered] at registered
      rcases kept.phase with ⟨pending, none_, -⟩ | ⟨done, -⟩
      · rw [pending] at stepped
        obtain rfl := Option.some.inj stepped
        have once : waitForDaemon client.daemon start 10 [] = [] := by
          rw [waitForDaemon, if_pos registered]
        refine ⟨Or.inr ⟨once, by simp [CybertwinAppDownloadClient.startApplication, none_]⟩,
          kept.answered, ?_, kept.requests, ?_⟩
        · intro socket member
          have before := kept.sockets socket member
          rw [none_] at before
          cases before
        · simp only [CybertwinAppDownloadClient.startApplication, none_, List.nil_append,
            List.mem_singleton]
          rintro opened rfl
          exact ⟨registered, rfl⟩
      · rw [done] at stepped
        cases stepped
  | connectSucceeded time socket =>
      simp only [CybertwinAppDownloadClient.step] at stepped
      split at stepped
      · rename_i ready
        obtain ⟨timely, awaited⟩ := ready
        obtain rfl := Option.some.inj stepped
        simp only [CybertwinAppDownloadClient.awaited, decide_eq_true_eq] at awaited
        refine ⟨kept.later timely rfl rfl rfl, List.nodup_cons.mpr ⟨awaited.2, kept.answered⟩, ?_,
          ?_, kept.registered⟩
        · intro other member
          rcases List.mem_cons.mp member with rfl | before
          · exact awaited.1
          · exact kept.sockets other before
        · have requests := kept.requests
          simp only [List.length_append, List.length_cons, List.length_nil]
          omega
      · cases stepped
  | connectFailed time socket =>
      simp only [CybertwinAppDownloadClient.step] at stepped
      split at stepped
      · rename_i ready
        obtain ⟨timely, awaited⟩ := ready
        obtain rfl := Option.some.inj stepped
        simp only [CybertwinAppDownloadClient.awaited, decide_eq_true_eq] at awaited
        refine ⟨kept.later timely rfl rfl rfl, List.nodup_cons.mpr ⟨awaited.2, kept.answered⟩, ?_,
          Nat.le_succ_of_le kept.requests, kept.registered⟩
        intro other member
        rcases List.mem_cons.mp member with rfl | before
        · exact awaited.1
        · exact kept.sockets other before
      · cases stepped
  | daemonReceives time packets =>
      simp only [CybertwinAppDownloadClient.step] at stepped
      split at stepped
      · rename_i timely
        obtain ⟨daemon, -, result⟩ := Option.bind_eq_some_iff.mp stepped
        obtain rfl := Option.some.inj result
        exact ⟨kept.later timely rfl rfl rfl, kept.answered, kept.sockets, kept.requests,
          kept.registered⟩
      · cases stepped
  | wait time =>
      simp only [CybertwinAppDownloadClient.step] at stepped
      split at stepped
      · rename_i timely
        obtain rfl := Option.some.inj stepped
        exact ⟨kept.later timely rfl rfl rfl, kept.answered, kept.sockets, kept.requests,
          kept.registered⟩
      · cases stepped

theorem startsRegistered_of_connectsOnce {event : Event} (stepped : client.step event = some next)
    (once : next.ConnectsOnce start) : client.StartsRegistered event := by
  cases event with
  | startApplication =>
      simp only [step] at stepped
      split at stepped
      · cases stepped
      · obtain rfl := Option.some.inj stepped
        exact (once.registered client.connect (by simp [startApplication])).1
  | _ => trivial

def initial (daemon : CybertwinEndHostDaemon) (managerAddr : UInt32)
    (targetCybertwinId : CybertwinId) (start : ℕ) : CybertwinAppDownloadClient where
  daemon
  managerAddr
  targetCybertwinId
  starts := [start]
  registeredAt := if daemon.isRegisteredToCybertwin then some 0 else none

theorem initial_kept (daemon : CybertwinEndHostDaemon) (managerAddr : UInt32)
    (targetCybertwinId : CybertwinId) (start : ℕ) :
    (initial daemon managerAddr targetCybertwinId start).Kept start := by
  refine ⟨Or.inl ⟨rfl, rfl, Nat.zero_le start⟩, List.nodup_nil, ?_, Nat.le_refl 0, ?_⟩
  · rintro socket ⟨⟩
  · rintro opened ⟨⟩

/-- The client connects once, and only to a registered daemon, exactly in the runs in which the
daemon is registered whenever the application starts. -/
theorem connectsOnce_iff (daemon : CybertwinEndHostDaemon) (managerAddr : UInt32)
    (targetCybertwinId : CybertwinId) (start : ℕ) (events : List Event)
    (ran : (run step (initial daemon managerAddr targetCybertwinId start) events).isSome) :
    Throughout step (fun client => client.ConnectsOnce start)
        (initial daemon managerAddr targetCybertwinId start) events ↔
      Guarded step StartsRegistered (initial daemon managerAddr targetCybertwinId start) events :=
  throughout_iff_guarded_of (fun _ (kept : Kept _ start) => kept.connectsOnce)
    (fun _ _ _ kept registered stepped => kept.step registered stepped)
    (fun _ _ _ _ stepped once => startsRegistered_of_connectsOnce stepped once)
    (initial_kept daemon managerAddr targetCybertwinId start) ran

def acknowledged : List Packet :=
  [{ command := CybertwinProxyCommand.registrationAck.code, cname := [104], cuid := 7,
     port := 1000 : CybertwinManagerHeader }.serialize]

def registersFirst : List Event :=
  [.daemonReceives 5 acknowledged, .startApplication, .connectSucceeded (3 * second) 0,
    .wait (20 * second)]

theorem connectsOnce_iff_registersFirst :
    Throughout step (fun client => client.ConnectsOnce second)
        (initial { endHost := { name := [104] } } 1 2 second) registersFirst ↔
      Guarded step StartsRegistered (initial { endHost := { name := [104] } } 1 2 second)
        registersFirst :=
  connectsOnce_iff _ 1 2 second registersFirst (by decide +kernel)

/-- The daemon registers half a second after the application has started: it has connected to port 0
by then, and ten more starts are pending, each of which connects again. -/
theorem lateRegistration_connects : ∃ client,
    run step (initial { endHost := { name := [104] } } 1 2 second)
        [.startApplication, .daemonReceives (3 * second / 2) acknowledged, .startApplication,
          .startApplication] = some client ∧
      client.opened.map Opened.cybertwinPort = [0, 1000, 1000] ∧ client.starts.length = 8 ∧
      ¬ client.ConnectsOnce second := by
  refine ⟨_, rfl, by decide +kernel, by decide +kernel, ?_⟩
  intro once
  exact absurd once.connections (by decide +kernel)

end CybertwinAppDownloadClient

end FISim.Control
