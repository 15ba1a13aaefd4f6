import SwiftNetCore.Lib.Path
import SwiftNetCore.Lib.RoundRobin

/-!
# A server starts, and deals its connections out

`TcpServer::start` may be called on any thread, and more than once. The first call starts the
threads of the pool, each with its loop, and then has the acceptor listen, in the server's loop.
From then on the acceptor hands each connection to the next loop of the pool, or to the server's own
when the pool has none.

* `StartingServer`: the server, its pool and its acceptor; the calls of `start` in steps, between
  which everything else may happen.
* `Phase`: not started, starting, or started. The pool changes in the second only.
* `served_throughout`: over every run with less than `2 ^ 32` calls of `start` the acceptor listens
  once, behind the last thread of the pool, `next_` stays in range, and no loop gets two connections
  more than another.

Loops are numbered in the order in which they are made; that of the server is 0.
-/

namespace SwiftNetCore

open Paths (Path Throughout MeetsAll trace path_trace)

/-- A `TcpServer` with its `EventLoopThreadPool` and its `Acceptor`. -/
structure StartingServer where
  /-- `numThreads_` -/
  numThreads : ℤ := 0
  /-- `started_` -/
  started : ℕ := 0
  /-- the calls of `EventLoopThreadPool::start` under way, each with its `i` -/
  starters : List ℕ := []
  /-- `loops_` -/
  loops : List ℕ := []
  /-- `next_` -/
  next : ℕ := 0
  /-- how many functors for `Acceptor::listen` wait in the server's loop -/
  waiting : ℕ := 0
  /-- `listenning_` -/
  listenning : Bool := false
  /-- how often `Acceptor::listen` was called -/
  listenCalls : ℕ := 0
  /-- the loops that the connections went to, in the order in which they were accepted -/
  handed : List ℕ := []
  /-- how often `start` was called -/
  starts : ℕ := 0
  deriving DecidableEq

/-- What happens to a server that is to start. -/
inductive StartEvent where
  | setThreadNum (numThreads : ℤ)
  /-- `start` counts the call, and goes on if it is the first -/
  | start
  /-- such a call starts a thread and gets its loop -/
  | startThread (j : ℕ)
  /-- it has started all, and calls `runInLoop` in the server's loop, or in another thread -/
  | runInLoop (j : ℕ) (isInLoopThread : Bool)
  /-- the server's loop runs the functor -/
  | listen
  /-- a connection is accepted -/
  | handleRead
  /-- `accept` fails -/
  | acceptFails
  deriving DecidableEq, Repr

namespace StartingServer

variable (s : StartingServer)

/-- Source: EventLoopThreadPool.cpp 54-64 -/
def getAllLoops : List ℕ := if s.loops = [] then [0] else s.loops

/-- The loop, and `next_` behind it. Source: EventLoopThreadPool.cpp 38-52 -/
def getNextLoop : Option (ℕ × ℕ) :=
  if s.loops = [] then some (0, s.next)
  else s.loops[s.next]?.map fun loop => (loop, if s.next + 1 ≥ s.loops.length then 0 else s.next + 1)

/-- Source: Acceptor.cpp 40-45 -/
def callListen : StartingServer :=
  { s with listenning := true, listenCalls := s.listenCalls + 1 }

/-- One event. A connection is accepted when the acceptor listens, and no step is there when `next_`
is not in range. Source: TcpServer.cpp 51-69, EventLoopThreadPool.cpp 17-35, Acceptor.cpp 40-71 -/
def step : StartEvent → Option StartingServer
  | .setThreadNum numThreads => some { s with numThreads := numThreads }
  | .start =>
    let t := { s with started := (s.started + 1) % 2 ^ 32, starts := s.starts + 1 }
    if s.started = 0 then some { t with starters := s.starters ++ [0] } else some t
  | .startThread j =>
    s.starters[j]?.bind fun i =>
      if (i : ℤ) < s.numThreads then
        some { s with
          loops := s.loops ++ [s.loops.length + 1]
          starters := s.starters.set j (i + 1) }
      else none
  | .runInLoop j isInLoopThread =>
    s.starters[j]?.bind fun i =>
      if (i : ℤ) < s.numThreads then none
      else
        let t := { s with starters := s.starters.eraseIdx j }
        if isInLoopThread then some t.callListen else some { t with waiting := s.waiting + 1 }
  | .listen =>
    if 0 < s.waiting then some { s.callListen with waiting := s.waiting - 1 } else none
  | .handleRead =>
    if s.listenning then
      s.getNextLoop.map fun (loop, next) =>
        { s with handed := s.handed ++ [loop], next := next }
    else none
  | .acceptFails => if s.listenning then some s else none

/-- The steps of a server. -/
def Step (event : StartEvent) (t : StartingServer) : Prop := s.step event = some t

/-- What a server does. -/
structure Served : Prop where
  /-- the acceptor listens once, behind the last thread of the pool -/
  once : s.listenCalls + s.waiting ≤ 1
  started : s.listenning = true → s.starters = []
  early : s.listenning = false → s.handed = []
  distinct : s.getAllLoops.Nodup
  /-- the connections go to the loops in turn -/
  dealt : s.handed = RoundRobin.deal s.getAllLoops s.handed.length
  balanced : ∀ a ∈ s.getAllLoops, ∀ b ∈ s.getAllLoops, s.handed.count a ≤ s.handed.count b + 1
  /-- and each goes to one: `next_` is in range -/
  answers : s.listenning = true → (s.step .handleRead).isSome

/-- `started_` does not wrap. -/
def Counted : StartEvent → Prop
  | .start => s.starts + 1 < 2 ^ 32
  | _ => True

instance : DecidablePred s.Counted := by
  intro event
  unfold Counted
  split <;> infer_instance

/-! ## The phases of a start -/

/-- How far a server has come. -/
inductive Phase (s : StartingServer) : Prop
  | idle (hstarted : s.started = 0) (hstarters : s.starters = []) (hloops : s.loops = [])
      (hwaiting : s.waiting = 0) (hlisten : s.listenCalls = 0)
  | starting (i : ℕ) (hstarted : 0 < s.started) (hstarters : s.starters = [i])
      (hwaiting : s.waiting = 0) (hlisten : s.listenCalls = 0)
  | started (hstarted : 0 < s.started) (hstarters : s.starters = [])
      (honce : s.listenCalls + s.waiting = 1)

/-- What every step keeps. -/
structure Sound (s : StartingServer) : Prop where
  phase : s.Phase
  started : s.started = s.starts
  listenning : s.listenning = true ↔ 0 < s.listenCalls
  early : s.listenning = false → s.handed = [] ∧ s.next = 0
  /-- the loops are those that were made -/
  loops : s.loops = List.range' 1 s.loops.length
  next : s.next = if s.loops = [] then 0 else s.handed.length % s.loops.length
  dealt : s.handed = RoundRobin.deal s.getAllLoops s.handed.length

variable {s} {t : StartingServer} {event : StartEvent}

/-- The loops of a sound server are distinct. -/
lemma Sound.nodup (h : s.Sound) : s.getAllLoops.Nodup := by
  unfold getAllLoops
  split
  · exact List.nodup_singleton 0
  · rw [h.loops]
    exact List.nodup_range'

/-- `++next_` goes on by one, and back to the first behind the last. -/
lemma mod_succ_eq {m n : ℕ} (hn : 0 < n) :
    (if m % n + 1 ≥ n then 0 else m % n + 1) = (m + 1) % n := by
  have hlt := Nat.mod_lt m hn
  have hsplit : m + 1 = n * (m / n) + (m % n + 1) := by
    rw [← add_assoc, Nat.div_add_mod]
  rw [hsplit, Nat.mul_add_mod]
  split
  · have hfull : m % n + 1 = n := by omega
    rw [hfull, Nat.mod_self]
  · exact (Nat.mod_eq_of_lt (by omega)).symm

/-- `getNextLoop` gives the loop whose turn it is. -/
lemma Sound.getNextLoop_eq (h : s.Sound) : ∃ loop next, s.getNextLoop = some (loop, next) ∧
    s.handed ++ [loop] = RoundRobin.deal s.getAllLoops (s.handed.length + 1) ∧
    next = if s.loops = [] then 0 else (s.handed.length + 1) % s.loops.length := by
  have hnext := h.next
  by_cases hnil : s.loops = []
  · rw [if_pos hnil] at hnext
    refine ⟨0, s.next, if_pos hnil, ?_, by rw [if_pos hnil, hnext]⟩
    rw [RoundRobin.deal_succ, ← h.dealt, getAllLoops, if_pos hnil]
    simp [Nat.mod_one]
  · rw [if_neg hnil] at hnext
    have hpos : 0 < s.loops.length := List.length_pos_iff.mpr hnil
    have hlt : s.next < s.loops.length := hnext ▸ Nat.mod_lt _ hpos
    refine ⟨s.loops[s.next], if s.next + 1 ≥ s.loops.length then 0 else s.next + 1, ?_, ?_, ?_⟩
    · rw [getNextLoop, if_neg hnil, List.getElem?_eq_getElem hlt, Option.map_some]
    · rw [RoundRobin.deal_succ, ← h.dealt, getAllLoops, if_neg hnil, ← hnext,
        List.getElem?_eq_getElem hlt]
      rfl
    · rw [if_neg hnil, hnext]
      exact mod_succ_eq hpos

/-- A sound server listens once behind its threads, and has dealt its connections round robin. -/
lemma Sound.served (h : s.Sound) : s.Served where
  once := by
    cases h.phase with
    | idle _ _ _ hwaiting hlisten | starting _ _ _ hwaiting hlisten => omega
    | started _ _ honce => exact honce.le
  started := by
    intro hlistenning
    have hpos := h.listenning.mp hlistenning
    cases h.phase with
    | idle _ hstarters => exact hstarters
    | starting _ _ _ _ hlisten => omega
    | started _ hstarters => exact hstarters
  early := fun hnot => (h.early hnot).1
  distinct := h.nodup
  dealt := h.dealt
  balanced := by
    intro a ha b hb
    rw [h.dealt]
    exact RoundRobin.count_deal_le h.nodup ha hb _
  answers := by
    intro hlistenning
    obtain ⟨loop, next, hnext, -⟩ := h.getNextLoop_eq
    simp [step, hlistenning, hnext]

/-! ## Every step -/

/-- The thread that starts is the only one. -/
lemma Phase.starter (h : s.Phase) {i j : ℕ} (hj : s.starters[j]? = some i) :
    j = 0 ∧ 0 < s.started ∧ s.starters = [i] ∧ s.waiting = 0 ∧ s.listenCalls = 0 := by
  cases h with
  | idle _ hstarters => simp [hstarters] at hj
  | started _ hstarters => simp [hstarters] at hj
  | starting i' hstarted hstarters hwaiting hlisten =>
      rw [hstarters, List.getElem?_singleton] at hj
      split at hj
      · rename_i hzero
        exact ⟨hzero, hstarted, Option.some.inj hj ▸ hstarters, hwaiting, hlisten⟩
      · exact absurd hj nofun

/-- `start` keeps the server sound while `started_` does not wrap. -/
lemma Sound.start (h : s.Sound) (hst : Step s .start t) (hcounted : s.Counted .start) :
    t.Sound := by
  have hlt : s.starts + 1 < 2 ^ 32 := hcounted
  have hmod : (s.started + 1) % 2 ^ 32 = s.starts + 1 := by
    rw [h.started]
    exact Nat.mod_eq_of_lt hlt
  have hpos : 0 < (s.started + 1) % 2 ^ 32 := by
    rw [hmod]
    exact Nat.succ_pos _
  simp only [Step, StartingServer.step] at hst
  split at hst
  · obtain rfl := Option.some.inj hst
    rename_i hzero
    refine ⟨?_, hmod, h.listenning, h.early, h.loops, h.next, h.dealt⟩
    cases h.phase with
    | idle _ hstarters hloops hwaiting hlisten =>
        exact .starting 0 hpos (by simp [hstarters]) hwaiting hlisten
    | starting _ hstarted | started hstarted => omega
  · obtain rfl := Option.some.inj hst
    rename_i hnonzero
    refine ⟨?_, hmod, h.listenning, h.early, h.loops, h.next, h.dealt⟩
    cases h.phase with
    | idle hstarted => exact absurd hstarted hnonzero
    | starting i hstarted hstarters hwaiting hlisten =>
        exact .starting i hpos hstarters hwaiting hlisten
    | started hstarted hstarters honce =>
        exact .started hpos hstarters honce

/-- The start of a thread keeps the server sound. -/
lemma Sound.startThread (h : s.Sound) {j : ℕ} (hst : Step s (.startThread j) t) : t.Sound := by
  simp only [Step, StartingServer.step] at hst
  obtain ⟨i, hj, hst⟩ := Option.bind_eq_some_iff.mp hst
  split at hst
  · obtain rfl := Option.some.inj hst
    obtain ⟨rfl, hstarted, hstarters, hwaiting, hlisten⟩ := h.phase.starter hj
    have hnot : s.listenning = false := by
      rw [← Bool.not_eq_true, h.listenning]
      omega
    obtain ⟨hhanded, hnext⟩ := h.early hnot
    refine ⟨.starting (i + 1) hstarted (by simp [hstarters]) hwaiting hlisten, h.started,
      h.listenning, h.early, ?_, ?_, ?_⟩
    · show s.loops ++ [s.loops.length + 1] = List.range' 1 (s.loops ++ [s.loops.length + 1]).length
      rw [List.length_append, List.length_singleton, List.range'_concat, ← h.loops, mul_comm,
        Nat.mul_one, Nat.add_comm]
    · simp [hhanded, hnext]
    · simp [hhanded]
  · exact absurd hst nofun

/-- The acceptor listens, or will. -/
lemma Sound.runInLoop (h : s.Sound) {j : ℕ} {isInLoopThread : Bool}
    (hst : Step s (.runInLoop j isInLoopThread) t) : t.Sound := by
  simp only [Step, StartingServer.step] at hst
  obtain ⟨i, hj, hst⟩ := Option.bind_eq_some_iff.mp hst
  split at hst
  · exact absurd hst nofun
  · obtain ⟨rfl, hstarted, hstarters, hwaiting, hlisten⟩ := h.phase.starter hj
    have hgone : s.starters.eraseIdx 0 = [] := by simp [hstarters]
    have hnot : s.listenning = false := by
      rw [← Bool.not_eq_true, h.listenning]
      omega
    split at hst
    · obtain rfl := Option.some.inj hst
      refine ⟨.started hstarted hgone ?_, h.started, ?_, fun hno => absurd hno nofun, h.loops,
        h.next, h.dealt⟩
      · simp [callListen, hwaiting, hlisten]
      · simp [callListen]
    · obtain rfl := Option.some.inj hst
      exact ⟨.started hstarted hgone (by simp [hwaiting, hlisten]), h.started, h.listenning,
        h.early, h.loops, h.next, h.dealt⟩

/-- Every step keeps the server sound while `started_` does not wrap. -/
lemma Sound.step (h : s.Sound) (hst : Step s event t) (hcounted : s.Counted event) : t.Sound := by
  cases event with
  | setThreadNum numThreads =>
      obtain rfl := Option.some.inj hst
      refine ⟨?_, h.started, h.listenning, h.early, h.loops, h.next, h.dealt⟩
      cases h.phase with
      | idle hstarted hstarters hloops hwaiting hlisten =>
          exact .idle hstarted hstarters hloops hwaiting hlisten
      | starting i hstarted hstarters hwaiting hlisten =>
          exact .starting i hstarted hstarters hwaiting hlisten
      | started hstarted hstarters honce => exact .started hstarted hstarters honce
  | start => exact h.start hst hcounted
  | startThread j => exact h.startThread hst
  | runInLoop j isInLoopThread => exact h.runInLoop hst
  | listen =>
      simp only [Step, StartingServer.step] at hst
      split at hst
      · obtain rfl := Option.some.inj hst
        rename_i hpos
        refine ⟨?_, h.started, ?_, fun hno => absurd hno nofun, h.loops, h.next, h.dealt⟩
        · cases h.phase with
          | idle _ _ _ hwaiting | starting _ _ _ hwaiting => omega
          | started hstarted hstarters honce =>
              refine .started hstarted hstarters ?_
              simp only [callListen]
              omega
        · simp [callListen]
      · exact absurd hst nofun
  | handleRead =>
      obtain ⟨loop, next, hnext, hdealt, hmod⟩ := h.getNextLoop_eq
      simp only [Step, StartingServer.step] at hst
      split at hst
      · rename_i hlistenning
        rw [hnext, Option.map_some, Option.some.injEq] at hst
        subst hst
        refine ⟨?_, h.started, h.listenning, fun hno => absurd hlistenning ?_, h.loops, ?_, ?_⟩
        · cases h.phase with
          | idle hstarted hstarters hloops hwaiting hlisten =>
              exact .idle hstarted hstarters hloops hwaiting hlisten
          | starting i hstarted hstarters hwaiting hlisten =>
              exact .starting i hstarted hstarters hwaiting hlisten
          | started hstarted hstarters honce => exact .started hstarted hstarters honce
        · simpa using hno
        · simpa using hmod
        · rw [List.length_append]
          exact hdealt
      · exact absurd hst nofun
  | acceptFails =>
      simp only [Step, StartingServer.step] at hst
      split at hst
      · exact Option.some.inj hst ▸ h
      · exact absurd hst nofun

/-- A new server is sound. -/
lemma sound_init : Sound {} :=
  ⟨.idle rfl rfl rfl rfl rfl, rfl, by simp, fun _ => ⟨rfl, rfl⟩, rfl, rfl, rfl⟩

/-- **A server listens once and deals in turn**: over every run with less than `2 ^ 32` calls of
`start`, on any threads, with any number of threads set at any time. -/
theorem served_throughout {p : List (StartEvent × StartingServer)} (hp : Path Step {} p)
    (hcounted : MeetsAll Counted {} p) : Throughout Served {} p := by
  have hkeep : ∀ (s : StartingServer) (event : StartEvent) (t : StartingServer), s.Sound →
      Step s event t → s.Counted event → t.Sound := fun _ _ _ h hst hcounted => h.step hst hcounted
  exact (hp.throughout_of_meetsAll hkeep hcounted sound_init).mono fun _ h => h.served

/-- Two calls of `start` on two threads, and four connections on three loops. -/
theorem served_throughout_three : Throughout Served {}
    (trace step {}
      [.setThreadNum 3, .start, .startThread 0, .start, .startThread 0, .startThread 0,
        .runInLoop 0 false, .listen, .handleRead, .handleRead, .acceptFails, .handleRead,
        .handleRead]) :=
  served_throughout (path_trace step _ _) (by decide)

end StartingServer

end SwiftNetCore
