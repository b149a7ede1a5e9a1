import FISim.Control.Download
import FISim.NameResolution.Network

/-!
What the callbacks of name lookups do with the interfaces that they are given, a list of any
length: an empty one after a failed lookup.
-/

namespace FISim.Control

/-- The loop of `OnCybertwinInterfaceResolved`: a path for each local interface, to the remote
interface of the same index. -/
def resolvePaths (remotes : CybertwinInterfaceList) :
    CybertwinInterfaceList → ℕ → Option (List (CybertwinInterface × CybertwinInterface))
  | [], _ => some []
  | interface :: rest, pathNum => do
      let remote ← remotes[pathNum]?
      let later ← resolvePaths remotes rest (pathNum + 1)
      return (interface, remote) :: later

def onCybertwinInterfaceResolved (interfaces remotes : CybertwinInterfaceList) :
    Option (List (CybertwinInterface × CybertwinInterface)) :=
  resolvePaths remotes interfaces 0

/-- Both callbacks look at the length first.  `none` inside the result: there is nothing to connect
to. -/
def firstInterface (remotes : CybertwinInterfaceList) : Option (Option CybertwinInterface) :=
  if remotes.length = 0 then some none
  else do
    let first ← remotes[0]?
    return some first

def socketConnectWithResolvedCybertwinName (remotes : CybertwinInterfaceList) :
    Option (Option CybertwinInterface) :=
  firstInterface remotes

def duplexStreamCloudConnect (remotes : CybertwinInterfaceList) :
    Option (Option CybertwinInterface) :=
  firstInterface remotes

theorem firstInterface_isSome (remotes : CybertwinInterfaceList) :
    (firstInterface remotes).isSome := by
  cases remotes with
  | nil => rfl
  | cons first rest => rfl

theorem resolvePaths_isSome_iff (remotes interfaces : CybertwinInterfaceList) (pathNum : ℕ) :
    (resolvePaths remotes interfaces pathNum).isSome ↔
      interfaces = [] ∨ pathNum + interfaces.length ≤ remotes.length := by
  induction interfaces generalizing pathNum with
  | nil => simp [resolvePaths]
  | cons interface rest ih =>
      rw [resolvePaths]
      by_cases inside : pathNum < remotes.length
      · have later := ih (pathNum + 1)
        rw [List.getElem?_eq_getElem inside]
        cases paths : resolvePaths remotes rest (pathNum + 1) with
        | none =>
            rw [paths] at later
            have short := later.not.mp (by simp)
            simp only [not_or] at short
            simp only [Option.bind_eq_bind, Option.bind_some, Option.bind_none, Option.isSome_none,
              Bool.false_eq_true, List.length_cons, false_iff, reduceCtorEq, false_or]
            omega
        | some found =>
            rw [paths] at later
            have long := later.mp rfl
            have covers : pathNum + (rest.length + 1) ≤ remotes.length := by
              rcases long with rfl | long
              · exact inside
              · omega
            simp [covers]
      · rw [List.getElem?_eq_none (Nat.le_of_not_lt inside)]
        simp only [Option.bind_eq_bind, Option.bind_none, Option.isSome_none, Bool.false_eq_true,
          List.length_cons, false_iff, reduceCtorEq, false_or]
        omega

/-- Who has looked the name up, with what the callback reads besides the answer. -/
inductive Consumer
  | connection (interfaces : CybertwinInterfaceList)
  | download (relay : Downloads) (endHost : ℕ)
  | duplexStream
  | singlePath
  | default

namespace Consumer

/-- The callback has run and has not indexed past the end of the list. -/
def Safe (remotes : CybertwinInterfaceList) : Consumer → Prop
  | connection interfaces => (onCybertwinInterfaceResolved interfaces remotes).isSome
  | download relay endHost => (relay.startDownloadProcess endHost remotes).isSome
  | duplexStream => (duplexStreamCloudConnect remotes).isSome
  | singlePath => (socketConnectWithResolvedCybertwinName remotes).isSome
  | default => True

def needed : Consumer → ℕ
  | connection interfaces => interfaces.length
  | download _ _ => 1
  | duplexStream | singlePath | default => 0

theorem consumer_safe_iff (consumer : Consumer) (remotes : CybertwinInterfaceList) :
    consumer.Safe remotes ↔ consumer.needed ≤ remotes.length := by
  cases consumer with
  | connection interfaces =>
      rw [Safe, onCybertwinInterfaceResolved, resolvePaths_isSome_iff, needed, Nat.zero_add]
      constructor
      · rintro (rfl | long)
        · exact Nat.zero_le _
        · exact long
      · exact Or.inr
  | download relay endHost =>
      cases remotes with
      | nil => simp [Safe, Downloads.startDownloadProcess, needed]
      | cons target rest => simp [Safe, Downloads.startDownloadProcess, needed]
  | duplexStream => simp [Safe, duplexStreamCloudConnect, firstInterface_isSome, needed]
  | singlePath =>
      simp [Safe, socketConnectWithResolvedCybertwinName, firstInterface_isSome, needed]
  | default => simp [Safe, needed]

/-- A lookup that fails at the root passes an empty list, and the download indexes it. -/
theorem failed_lookup_indexed :
    ∃ net, Transition.run (NameResolution.step NameResolution.pair) {} [.lookup false 5 1] = some net ∧
      net.called = [{ lookup := 0, name := 5, interfaces := [] }] ∧
      ∀ call ∈ net.called, ¬ (download {} 0).Safe call.interfaces := by
  refine ⟨_, rfl, rfl, ?_⟩
  intro call member
  obtain rfl := List.mem_singleton.mp member
  simp [Safe, Downloads.startDownloadProcess]

end Consumer

end FISim.Control
