import SwiftNetCore.Endpoint
import SwiftNetCore.Lib.Path

/-!
# Which connections a loop finds alive

An I/O loop uses the connections of a `TcpServer` through raw pointers: the epoll instance and
`activateChannels_` have pointers to their channels, and the functors of `sendInLoop` and
`shutdownInLoop` bind a raw `this`. What keeps a connection alive is elsewhere: `connections_` of
the server, the functors that bind the connection itself, the `guard` of `handleEvent`, and the copy
that a thread has while it calls `send`.

* `IoLoop`: the loop with the connections that it has from a server, and the server, which may have
  the same loop or another one. A step that uses a connection, or a server, that is gone has no
  result.
* `Held`: something keeps the connection alive. `Anchored`: it is something that stays until the
  functors are taken over.
* `Sound`: what every step keeps. `Sound.of_moves`: a connection that is leaving goes from
  `connections_` through the queues, and is somewhere at any time.
* `safe_throughout`: over every run the loop finds each connection alive that it has a pointer to,
  when no call of `send` or `shutdown` comes behind the end of its connection, and a server with the
  same loop is destroyed when no channel waits to be handled and no such call was queued.
-/

namespace SwiftNetCore

open Paths (Path Throughout MeetsAll trace path_trace)

/-! ## The loop -/

/-- A functor in the loop, by what it binds. -/
inductive IoFunctor where
  /-- `connectEstablished`, with the connection -/
  | connectEstablished (k : ℕ)
  /-- `connectDestroyed`, with the connection -/
  | connectDestroyed (k : ℕ)
  /-- `writeCompleteCallback_` or `highWaterMarkCallback_`, with the connection -/
  | callback (k : ℕ)
  /-- `sendInLoop` or `shutdownInLoop`, with a raw `this` -/
  | inLoop (k : ℕ)
  deriving DecidableEq, Repr

/-- It binds a `TcpConnectionPtr` to the connection. -/
def IoFunctor.Holds (k : ℕ) : IoFunctor → Prop
  | connectEstablished j | connectDestroyed j | callback j => j = k
  | inLoop _ => False

instance (k : ℕ) : DecidablePred (IoFunctor.Holds k)
  | .connectEstablished j | .connectDestroyed j | .callback j =>
    inferInstanceAs (Decidable (j = k))
  | .inLoop _ => inferInstanceAs (Decidable False)

/-- `connectDestroyed` is queued with a `shared_ptr` to its connection. -/
lemma IoFunctor.holds_connectDestroyed (k : ℕ) : (connectDestroyed k).Holds k := rfl

/-- It is a call of another thread. -/
def IoFunctor.isCall : IoFunctor → Bool
  | inLoop _ => true
  | _ => false

/-- An I/O loop and the connections that it has from a server, by their number. -/
structure IoLoop where
  /-- whether it is the server's loop, too -/
  shared : Bool
  /-- whether the server was not destroyed -/
  serving : Bool := true
  /-- `connections_` -/
  connections : List ℕ := []
  /-- `state_` of all connections there have been -/
  states : List StateE := []
  /-- those that the epoll instance has a pointer to the channel of -/
  polled : List ℕ := []
  /-- those whose `removeConnecitonInLoop` waits in the server's loop -/
  removing : List ℕ := []
  /-- `pendingFunctors_` -/
  pendingFunctors : List IoFunctor := []
  /-- the local `functors` of `doPendingFunctors`, which has them until it returns -/
  functors : List IoFunctor := []
  /-- those of them that were not started yet -/
  todo : List IoFunctor := []
  /-- those of `activateChannels_` that were not handled yet -/
  activateChannels : List ℕ := []
  /-- the connection whose channel handles an event, which `guard` holds -/
  guard : Option ℕ := none
  /-- the connections that other threads are in `send` or `shutdown` of, behind the test of
  `state_` -/
  calling : List ℕ := []
  deriving DecidableEq

/-- What happens to a loop. -/
inductive IoEvent where
  /-- `TcpServer::newConnection` chooses this loop -/
  | newConnection
  /-- `poll` returns these channels -/
  | poll (active : List ℕ)
  /-- the next channel of `activateChannels_` begins to handle its event, -/
  | handleEvent
  /-- calls `handleClose`, -/
  | handleClose
  /-- and is done -/
  | handled
  /-- a connection queues a callback of the user -/
  | queueCallback (k : ℕ)
  /-- `doPendingFunctors` takes the functors over, -/
  | swap
  /-- starts the next one, -/
  | functor
  /-- and returns -/
  | finish
  /-- another thread calls `send` or `shutdown` and finds the connection connected, -/
  | call (k : ℕ) (shutdown : Bool)
  /-- and queues the functor -/
  | queueInLoop (k : ℕ)
  /-- the server's loop runs its next `removeConnecitonInLoop` -/
  | removeConnecitonInLoop
  /-- `~TcpServer`, in the thread of the server's loop -/
  | destroyServer
  deriving DecidableEq, Repr

namespace IoLoop

variable (s : IoLoop) (k : ℕ)

/-- What keeps a connection alive at least until the functors are taken over. -/
def Anchored : Prop :=
  k ∈ s.connections ∨ k ∈ s.removing ∨ ∃ f ∈ s.pendingFunctors, f.Holds k

instance : DecidablePred s.Anchored := fun k =>
  inferInstanceAs (Decidable (k ∈ s.connections ∨ k ∈ s.removing ∨ _))

/-- Something keeps the connection alive. -/
def Held : Prop :=
  s.Anchored k ∨ (∃ f ∈ s.functors, f.Holds k) ∨ s.guard = some k ∨ k ∈ s.calling

instance : DecidablePred s.Held := fun k =>
  inferInstanceAs (Decidable (s.Anchored k ∨ _ ∨ _ ∨ _))

/-- `connectDestroyed`. Source: TcpConnection.cpp 255-264 -/
def connectDestroyed : IoLoop :=
  { s with
    states := s.states.modify k fun state => if state = .kConnected then .kDisconnected else state
    polled := s.polled.filter (· ≠ k) }

/-- A functor runs. Source: `connectEstablished`, TcpConnection.cpp 246-254 -/
def run : IoFunctor → Option IoLoop
  | .connectEstablished k =>
    some { s with states := s.states.set k .kConnected, polled := s.polled ++ [k] }
  | .connectDestroyed k => some (s.connectDestroyed k)
  | .callback _ => some s
  | .inLoop k => if s.Held k then some s else none

/-- One event. Source: TcpServer.cpp 36-48, 66-126; EventLoop.cpp 61-89, 114-127, 164-178;
Channel.cpp 45-86; TcpConnection.cpp 114-123, 141-180, 266-281 -/
def step : IoEvent → Option IoLoop
  | .newConnection =>
    if s.serving then
      let s := { s with connections := s.connections ++ [s.states.length] }
      if s.shared then
        some { s with
          states := s.states ++ [.kConnected]
          polled := s.polled ++ [s.states.length] }
      else
        some { s with
          states := s.states ++ [.kConnecting]
          pendingFunctors := s.pendingFunctors ++ [.connectEstablished s.states.length] }
    else none
  | .poll active =>
    if s.activateChannels = [] ∧ s.guard = none ∧ s.functors = [] ∧
        (∀ k ∈ active, k ∈ s.polled) ∧ active.Nodup then
      some { s with activateChannels := active }
    else none
  | .handleEvent =>
    match s.activateChannels with
    | [] => none
    | k :: active =>
      if s.guard = none ∧ s.Held k then
        some { s with activateChannels := active, guard := some k }
      else none
  | .handleClose =>
    match s.guard with
    | none => none
    | some k =>
      if s.serving then
        let s := { s with
          states := s.states.set k .kDisconnected
          polled := s.polled.filter (· ≠ k) }
        if s.shared then
          some { s with
            connections := s.connections.filter (· ≠ k)
            pendingFunctors := s.pendingFunctors ++ [.connectDestroyed k] }
        else some { s with removing := s.removing ++ [k] }
      else none
  | .handled => if s.guard = none then none else some { s with guard := none }
  | .queueCallback k =>
    if s.Held k then some { s with pendingFunctors := s.pendingFunctors ++ [.callback k] } else none
  | .swap =>
    if s.activateChannels = [] ∧ s.guard = none ∧ s.functors = [] then
      some { s with
        pendingFunctors := []
        functors := s.pendingFunctors
        todo := s.pendingFunctors }
    else none
  | .functor =>
    match s.todo with
    | [] => none
    | f :: todo => (s.run f).map fun s => { s with todo := todo }
  | .finish => if s.todo = [] then some { s with functors := [] } else none
  | .call k shutdown =>
    if s.Held k ∧ s.states[k]? = some .kConnected then
      some { s with
        states := if shutdown then s.states.set k .kDisconnecting else s.states
        calling := s.calling ++ [k] }
    else none
  | .queueInLoop k =>
    if k ∈ s.calling then
      some { s with
        calling := s.calling.erase k
        pendingFunctors := s.pendingFunctors ++ [.inLoop k] }
    else none
  | .removeConnecitonInLoop =>
    match s.removing with
    | [] => none
    | k :: removing =>
      if s.serving then
        some { s with
          removing := removing
          connections := s.connections.filter (· ≠ k)
          pendingFunctors := s.pendingFunctors ++ [.connectDestroyed k] }
      else none
  | .destroyServer =>
    if s.serving then
      let t := { s with serving := false, connections := [] }
      if s.shared then some (s.connections.foldl connectDestroyed t)
      else
        some { t with
          pendingFunctors := s.pendingFunctors ++ s.connections.map .connectDestroyed }
    else none

/-- The steps of a loop. -/
def Step (event : IoEvent) (t : IoLoop) : Prop := s.step event = some t

/-! ## The property and the condition -/

/-- The connections that the loop has pointers to are alive. -/
structure Safe : Prop where
  /-- those whose channels wait to be handled, -/
  active : ∀ k ∈ s.activateChannels, s.Held k
  /-- those that a functor binds by a raw `this`, whether it was taken over or not, -/
  functors : ∀ k, .inLoop k ∈ s.todo ++ s.pendingFunctors → s.Held k
  /-- and those that `poll` may return -/
  polled : ∀ k ∈ s.polled, s.Held k

/-- A call on another thread is not queued behind the end of its connection. A server with the same
loop is destroyed when no channel waits to be handled and no such call was queued. -/
def Timely : IoEvent → Prop
  | .queueInLoop k => s.Anchored k
  | .destroyServer => s.shared = true →
      s.activateChannels = [] ∧ ∀ f ∈ s.todo ++ s.pendingFunctors, f.isCall = false
  | _ => True

instance : DecidablePred s.Timely := by
  intro event
  unfold Timely
  split <;> infer_instance

/-! ## The way of a connection -/

/-- The functors that will run, in their order. -/
def queued : List IoFunctor := s.todo ++ s.pendingFunctors

/-- The server has not let it go. -/
def Owned : Prop := k ∈ s.connections ∨ k ∈ s.removing

/-- A connection is not at its end: the server has it, or its `connectDestroyed` will run. -/
def Leaving : Prop := s.Owned k ∨ .connectDestroyed k ∈ s.queued

/-- In a queue, each `connectEstablished` is of a connection that has not reached its end behind
it. -/
def Ordered (owned : ℕ → Prop) : List IoFunctor → Prop
  | [] => True
  | .connectEstablished k :: fs => (owned k ∨ .connectDestroyed k ∈ fs) ∧ Ordered owned fs
  | _ :: fs => Ordered owned fs

variable {s} {t : IoLoop} {k} {owned owned' : ℕ → Prop} {fs more : List IoFunctor}

/-- More functors come behind, and some connections go there. -/
lemma Ordered.append (h : Ordered owned fs)
    (hmoves : ∀ k, owned k → owned' k ∨ .connectDestroyed k ∈ more) (hmore : Ordered owned' more) :
    Ordered owned' (fs ++ more) := by
  induction fs with
  | nil => exact hmore
  | cons f fs ih =>
      cases f with
      | connectEstablished k =>
          obtain ⟨hk, hfs⟩ := h
          refine ⟨?_, ih hfs⟩
          rcases hk with hk | hk
          · exact (hmoves k hk).imp_right fun hin => List.mem_append_right _ hin
          · exact Or.inr (List.mem_append_left _ hk)
      | connectDestroyed | callback | inLoop => exact ih h

/-- Where no `connectEstablished` is. -/
lemma ordered_of_forall (h : ∀ k, .connectEstablished k ∉ fs) : Ordered owned fs := by
  induction fs with
  | nil => trivial
  | cons f fs ih =>
      have hfs : ∀ k, .connectEstablished k ∉ fs := fun k hk => h k (List.mem_cons_of_mem _ hk)
      cases f with
      | connectEstablished k => exact absurd List.mem_cons_self (h k)
      | connectDestroyed | callback | inLoop => exact ih hfs

/-- What every step keeps. -/
structure Sound (s : IoLoop) : Prop where
  active : ∀ k ∈ s.activateChannels, s.Anchored k
  /-- channels are handled when no functors run -/
  phase : s.activateChannels ≠ [] → s.functors = []
  todo : s.todo <:+ s.functors
  polled : ∀ k ∈ s.polled, s.Leaving k
  ordered : Ordered s.Owned s.queued
  pending : ∀ k, .inLoop k ∈ s.pendingFunctors → s.Anchored k
  running : ∀ k, .inLoop k ∈ s.todo → s.Anchored k ∨ ∃ f ∈ s.functors, f.Holds k
  /-- with one loop, nothing waits for the other -/
  direct : s.shared = true →
    s.removing = [] ∧ ∀ k, .connectEstablished k ∉ s.queued

/-- A connection that the server has not let go is alive until the functors are taken over. -/
lemma Owned.anchored (h : s.Owned k) : s.Anchored k :=
  h.elim Or.inl fun h => Or.inr (Or.inl h)

/-- A functor that waits keeps the connection it holds alive. -/
lemma anchored_of_mem {f : IoFunctor} (hf : f ∈ s.pendingFunctors) (hk : f.Holds k) :
    s.Anchored k :=
  Or.inr (Or.inr ⟨f, hf, hk⟩)

/-- A connection that is kept alive until the functors are taken over is kept alive. -/
lemma Anchored.held (h : s.Anchored k) : s.Held k := Or.inl h

/-- A connection that is leaving is held. -/
lemma Sound.held_of_leaving (h : s.Sound) (hk : s.Leaving k) : s.Held k := by
  rcases hk with hk | hk
  · exact hk.anchored.held
  · rcases List.mem_append.mp hk with hk | hk
    · exact Or.inr (Or.inl ⟨_, h.todo.subset hk, rfl⟩)
    · exact (anchored_of_mem hk (IoFunctor.holds_connectDestroyed k)).held

/-- A sound loop has pointers to connections that are alive only. -/
lemma Sound.safe (h : s.Sound) : s.Safe where
  active := fun k hk => (h.active k hk).held
  functors := by
    intro k hk
    rcases List.mem_append.mp hk with hk | hk
    · exact (h.running k hk).elim Anchored.held fun hf => Or.inr (Or.inl hf)
    · exact (h.pending k hk).held
  polled := fun k hk => h.held_of_leaving (h.polled k hk)

/-- **Steps that queue functors** `more` and let connections go there keep the loop sound. -/
lemma Sound.of_moves (h : s.Sound) (more : List IoFunctor)
    (hpending : t.pendingFunctors = s.pendingFunctors ++ more) (htodo : t.todo = s.todo)
    (hfunctors : t.functors = s.functors)
    (hmoves : ∀ k, s.Owned k → t.Owned k ∨ .connectDestroyed k ∈ more)
    (hactive : t.activateChannels <:+ s.activateChannels)
    (hpolled : ∀ k ∈ t.polled, k ∈ s.polled ∨ t.Owned k)
    (hmore : Ordered t.Owned more) (hcalls : ∀ k, .inLoop k ∈ more → t.Anchored k)
    (hshared : t.shared = s.shared)
    (hdirect : s.shared = true → t.removing = [] ∧ ∀ k, .connectEstablished k ∉ more) : t.Sound := by
  have hqueued : t.queued = s.queued ++ more := by
    rw [queued, queued, htodo, hpending, List.append_assoc]
  have hin : ∀ f ∈ s.pendingFunctors, f ∈ t.pendingFunctors := by
    rw [hpending]
    exact fun f hf => List.mem_append_left _ hf
  have hanchored : ∀ k, s.Anchored k → t.Anchored k := by
    intro k hk
    have howned : ∀ {k}, s.Owned k → t.Anchored k := by
      intro k hk
      rcases hmoves k hk with hk | hk
      · exact hk.anchored
      · exact anchored_of_mem (hpending ▸ List.mem_append_right _ hk)
          (IoFunctor.holds_connectDestroyed k)
    rcases hk with hk | hk | ⟨f, hf, hk⟩
    · exact howned (Or.inl hk)
    · exact howned (Or.inr hk)
    · exact anchored_of_mem (hin f hf) hk
  refine ⟨fun k hk => hanchored k (h.active k (hactive.subset hk)), ?_, ?_, ?_, ?_, ?_, ?_, ?_⟩
  · intro hne
    rw [hfunctors]
    refine h.phase fun hnil => hne ?_
    rw [hnil] at hactive
    exact List.suffix_nil.mp hactive
  · rw [htodo, hfunctors]
    exact h.todo
  · intro k hk
    rcases hpolled k hk with hk | hk
    · rcases h.polled k hk with hk | hk
      · refine (hmoves k hk).imp_right fun hin => ?_
        rw [hqueued]
        exact List.mem_append_right _ hin
      · refine Or.inr ?_
        rw [hqueued]
        exact List.mem_append_left _ hk
    · exact Or.inl hk
  · rw [hqueued]
    exact h.ordered.append hmoves hmore
  · intro k hk
    rw [hpending] at hk
    rcases List.mem_append.mp hk with hk | hk
    · exact hanchored k (h.pending k hk)
    · exact hcalls k hk
  · intro k hk
    rw [htodo] at hk
    rw [hfunctors]
    exact (h.running k hk).imp_left (hanchored k)
  · intro hs
    rw [hshared] at hs
    obtain ⟨hnil, hnot⟩ := hdirect hs
    refine ⟨hnil, fun k hk => ?_⟩
    rw [hqueued] at hk
    rcases List.mem_append.mp hk with hk | hk
    · exact (h.direct hs).2 k hk
    · exact hnot k hk

/-- A server takes another connection in. -/
lemma Sound.newConnection (h : s.Sound) (hst : Step s .newConnection t) : t.Sound := by
  simp only [Step, IoLoop.step] at hst
  split at hst
  · split at hst
    · obtain rfl := Option.some.inj hst
      rename_i hshared
      refine h.of_moves [] (List.append_nil _).symm rfl rfl ?_ List.suffix_rfl ?_ trivial
        (fun k hk => absurd hk List.not_mem_nil) rfl ?_
      · exact fun k hk => Or.inl (hk.imp_left fun hin => List.mem_append_left _ hin)
      · intro k hk
        exact (List.mem_append.mp hk).imp_right fun hin => Or.inl (List.mem_append_right _ hin)
      · exact fun _ => ⟨(h.direct hshared).1, fun k => List.not_mem_nil⟩
    · obtain rfl := Option.some.inj hst
      rename_i hshared
      refine h.of_moves [.connectEstablished s.states.length] rfl rfl rfl ?_ List.suffix_rfl
        (fun k hk => Or.inl hk) ?_ ?_ rfl (fun hs => absurd hs hshared)
      · exact fun k hk => Or.inl (hk.imp_left fun hin => List.mem_append_left _ hin)
      · exact ⟨Or.inl (Or.inl (List.mem_append_right _ (List.mem_singleton.mpr rfl))), trivial⟩
      · intro k hk
        exact absurd (List.mem_singleton.mp hk) nofun
  · exact absurd hst nofun

/-- What `poll` returns is leaving, so it is anchored: no functors run. -/
lemma Sound.poll (h : s.Sound) {active : List ℕ} (hst : Step s (.poll active) t) : t.Sound := by
  simp only [Step, IoLoop.step] at hst
  split at hst
  · obtain rfl := Option.some.inj hst
    rename_i hcan
    obtain ⟨-, -, hfunctors, hpolled, -⟩ := hcan
    have htodo : s.todo = [] := by
      have hsuffix := h.todo
      rw [hfunctors] at hsuffix
      exact List.suffix_nil.mp hsuffix
    refine ⟨?_, fun _ => hfunctors, h.todo, h.polled, h.ordered, h.pending, h.running, h.direct⟩
    intro k hk
    rcases h.polled k (hpolled k hk) with hk | hk
    · exact hk.anchored
    · rw [queued, htodo, List.nil_append] at hk
      exact anchored_of_mem hk (IoFunctor.holds_connectDestroyed k)
  · exact absurd hst nofun

/-- Taking out of a list what is moved elsewhere. -/
lemma mem_filter_ne_or {l : List ℕ} {j : ℕ} (hk : k ∈ l) : k ∈ l.filter (· ≠ j) ∨ k = j := by
  by_cases hkj : k = j
  · exact Or.inr hkj
  · exact Or.inl (List.mem_filter.mpr ⟨hk, by simpa using hkj⟩)

/-- `handleClose` keeps the loop sound: the functor it queues holds the connection. -/
lemma Sound.handleClose (h : s.Sound) (hst : Step s .handleClose t) : t.Sound := by
  simp only [Step, IoLoop.step] at hst
  split at hst
  · exact absurd hst nofun
  · rename_i j hguard
    split at hst
    · split at hst
      · obtain rfl := Option.some.inj hst
        rename_i hshared
        refine h.of_moves [.connectDestroyed j] rfl rfl rfl ?_ List.suffix_rfl
          (fun k hk => Or.inl (List.mem_of_mem_filter hk)) trivial ?_ rfl ?_
        · rintro k (hk | hk)
          · rcases mem_filter_ne_or (j := j) hk with hk | rfl
            · exact Or.inl (Or.inl hk)
            · exact Or.inr (List.mem_singleton.mpr rfl)
          · exact Or.inl (Or.inr hk)
        · exact fun k hk => absurd (List.mem_singleton.mp hk) nofun
        · exact fun _ => ⟨(h.direct hshared).1, fun k hk => absurd (List.mem_singleton.mp hk) nofun⟩
      · obtain rfl := Option.some.inj hst
        rename_i hshared
        refine h.of_moves [] (List.append_nil _).symm rfl rfl ?_ List.suffix_rfl
          (fun k hk => Or.inl (List.mem_of_mem_filter hk)) trivial
          (fun k hk => absurd hk List.not_mem_nil) rfl (fun hs => absurd hs hshared)
        exact fun k hk => Or.inl (hk.imp_right fun hin => List.mem_append_left _ hin)
    · exact absurd hst nofun

/-- Taking over the functors keeps the loop sound. -/
lemma Sound.swap (h : s.Sound) (hst : Step s .swap t) : t.Sound := by
  simp only [Step, IoLoop.step] at hst
  split at hst
  · rename_i hcan
    obtain ⟨hactive, -, hfunctors⟩ := hcan
    have htodo : s.todo = [] := by
      have hsuffix := h.todo
      rw [hfunctors] at hsuffix
      exact List.suffix_nil.mp hsuffix
    have ht := (Option.some.inj hst).symm
    have hqueued : t.queued = s.queued := by
      rw [ht, queued, queued, htodo]
      simp
    subst ht
    refine ⟨?_, fun hne => absurd hactive hne, List.suffix_rfl, ?_, ?_, ?_, ?_, ?_⟩
    · rw [hactive]
      exact fun k hk => absurd hk List.not_mem_nil
    · exact fun k hk => (h.polled k hk).imp_right fun hin => hqueued.symm ▸ hin
    · exact hqueued.symm ▸ h.ordered
    · exact fun k hk => absurd hk List.not_mem_nil
    · intro k hk
      rcases h.pending k hk with hk | hk | hk
      · exact Or.inl (Or.inl hk)
      · exact Or.inl (Or.inr (Or.inl hk))
      · exact Or.inr hk
    · exact fun hs => ⟨(h.direct hs).1, fun k hk => (h.direct hs).2 k (hqueued ▸ hk)⟩
  · exact absurd hst nofun

/-- Running the next functor keeps the loop sound. -/
lemma Sound.functor (h : s.Sound) (hst : Step s .functor t) : t.Sound := by
  simp only [Step, IoLoop.step] at hst
  split at hst
  · exact absurd hst nofun
  · rename_i f todo htodo
    have hsuffix : todo <:+ s.functors := by
      have hsuffix := h.todo
      rw [htodo] at hsuffix
      exact (List.suffix_cons f todo).trans hsuffix
    have hqueued : s.queued = f :: (todo ++ s.pendingFunctors) := by
      rw [queued, htodo, List.cons_append]
    have hrunning : ∀ k, .inLoop k ∈ todo → s.Anchored k ∨ ∃ f ∈ s.functors, f.Holds k :=
      fun k hk => h.running k (htodo ▸ List.mem_cons_of_mem _ hk)
    have hdirect : s.shared = true → s.removing = [] ∧
        ∀ k, .connectEstablished k ∉ todo ++ s.pendingFunctors := by
      intro hs
      refine ⟨(h.direct hs).1, fun k hk => (h.direct hs).2 k ?_⟩
      rw [hqueued]
      exact List.mem_cons_of_mem _ hk
    have hordered := h.ordered
    rw [hqueued] at hordered
    have hleaving : ∀ k, s.Leaving k → f ≠ .connectDestroyed k →
        s.Owned k ∨ .connectDestroyed k ∈ todo ++ s.pendingFunctors := by
      intro k hk hne
      refine hk.imp_right fun hin => ?_
      rw [hqueued] at hin
      exact (List.mem_cons.mp hin).resolve_left hne.symm
    obtain ⟨u, hrun, rfl⟩ := Option.map_eq_some_iff.mp hst
    cases f with
    | connectEstablished j =>
        have hu : { s with states := s.states.set j .kConnected, polled := s.polled ++ [j] } = u :=
          Option.some.inj hrun
        subst hu
        refine ⟨h.active, h.phase, hsuffix, ?_, hordered.2, h.pending, hrunning, hdirect⟩
        intro k hk
        have hk : k ∈ s.polled ++ [j] := hk
        rcases List.mem_append.mp hk with hk | hk
        · exact hleaving k (h.polled k hk) nofun
        · obtain rfl := List.mem_singleton.mp hk
          exact hordered.1
    | connectDestroyed j =>
        have hu : s.connectDestroyed j = u := Option.some.inj hrun
        subst hu
        refine ⟨h.active, h.phase, hsuffix, ?_, hordered, h.pending, hrunning, hdirect⟩
        intro k hk
        obtain ⟨hk, hne⟩ := List.mem_filter.mp hk
        refine hleaving k (h.polled k hk) ?_
        rintro ⟨⟩
        simp at hne
    | callback j =>
        have hu : s = u := Option.some.inj hrun
        subst hu
        exact ⟨h.active, h.phase, hsuffix, fun k hk => hleaving k (h.polled k hk) nofun, hordered,
          h.pending, hrunning, hdirect⟩
    | inLoop j =>
        simp only [run] at hrun
        split at hrun
        · have hu : s = u := Option.some.inj hrun
          subst hu
          exact ⟨h.active, h.phase, hsuffix, fun k hk => hleaving k (h.polled k hk) nofun, hordered,
            h.pending, hrunning, hdirect⟩
        · exact absurd hrun nofun

/-- `connectDestroyed` of several connections, one after the other, changes their states and takes
them from the poller. -/
lemma foldl_connectDestroyed (ks : List ℕ) (s : IoLoop) :
    ∃ states, ks.foldl connectDestroyed s =
      { s with states := states, polled := s.polled.filter (· ∉ ks) } := by
  induction ks generalizing s with
  | nil => exact ⟨s.states, by simp⟩
  | cons j ks ih =>
      obtain ⟨states, heq⟩ := ih (s.connectDestroyed j)
      refine ⟨states, ?_⟩
      rw [List.foldl_cons, heq]
      simp [connectDestroyed, List.filter_filter, Bool.and_comm]

/-- Destroying the server in time keeps the loop sound. -/
lemma Sound.destroyServer (h : s.Sound) (hst : Step s .destroyServer t)
    (htimely : s.Timely .destroyServer) : t.Sound := by
  simp only [Step, IoLoop.step] at hst
  split at hst
  · split at hst
    · rename_i hshared
      obtain ⟨states, heq⟩ := foldl_connectDestroyed s.connections
        { s with serving := false, connections := [] }
      rw [heq, Option.some.injEq] at hst
      subst hst
      obtain ⟨hactive, hcalls⟩ := htimely hshared
      obtain ⟨hremoving, hnot⟩ := h.direct hshared
      have hnone : ∀ k, .inLoop k ∉ s.queued := fun k hk => absurd (hcalls _ hk) nofun
      refine ⟨?_, fun hne => absurd hactive hne, h.todo, ?_, ?_, ?_, ?_, h.direct⟩
      · rw [hactive]
        exact fun k hk => absurd hk List.not_mem_nil
      · intro k hk
        obtain ⟨hk, hout⟩ := List.mem_filter.mp hk
        rcases h.polled k hk with (hk | hk) | hk
        · exact absurd hk (by simpa using hout)
        · exact Or.inl (Or.inr hk)
        · exact Or.inr hk
      · exact ordered_of_forall hnot
      · exact fun k hk => absurd (List.mem_append_right _ hk) (hnone k)
      · exact fun k hk => absurd (List.mem_append_left _ hk) (hnone k)
    · obtain rfl := Option.some.inj hst
      rename_i hshared
      refine h.of_moves (s.connections.map .connectDestroyed) rfl rfl rfl ?_ List.suffix_rfl
        (fun k hk => Or.inl hk) ?_ ?_ rfl (fun hs => absurd hs hshared)
      · rintro k (hk | hk)
        · exact Or.inr (List.mem_map_of_mem hk)
        · exact Or.inl (Or.inr hk)
      · apply ordered_of_forall
        intro k hk
        obtain ⟨j, -, hj⟩ := List.mem_map.mp hk
        exact absurd hj nofun
      · intro k hk
        obtain ⟨j, -, hj⟩ := List.mem_map.mp hk
        exact absurd hj nofun
  · exact absurd hst nofun

/-- Every step that is timely keeps the loop sound. -/
lemma Sound.step (h : s.Sound) {event : IoEvent} (hst : Step s event t) (htimely : s.Timely event) :
    t.Sound := by
  have hsame : ∀ k, s.Owned k → s.Owned k ∨ .connectDestroyed k ∈ ([] : List IoFunctor) :=
    fun k hk => Or.inl hk
  have hnone : s.shared = true →
      s.removing = [] ∧ ∀ k, .connectEstablished k ∉ ([] : List IoFunctor) :=
    fun hs => ⟨(h.direct hs).1, fun k => List.not_mem_nil⟩
  have hend : s.pendingFunctors = s.pendingFunctors ++ [] := (List.append_nil _).symm
  cases event with
  | newConnection => exact h.newConnection hst
  | poll active => exact h.poll hst
  | handleEvent =>
      simp only [Step, IoLoop.step] at hst
      split at hst
      · exact absurd hst nofun
      · rename_i j active hactive
        split at hst
        · obtain rfl := Option.some.inj hst
          refine h.of_moves [] hend rfl rfl hsame ?_ (fun k hk => Or.inl hk) trivial
            (fun k hk => absurd hk List.not_mem_nil) rfl hnone
          rw [hactive]
          exact List.suffix_cons j active
        · exact absurd hst nofun
  | handleClose => exact h.handleClose hst
  | handled =>
      simp only [Step, IoLoop.step] at hst
      split at hst
      · exact absurd hst nofun
      · obtain rfl := Option.some.inj hst
        exact h.of_moves [] hend rfl rfl hsame List.suffix_rfl (fun k hk => Or.inl hk) trivial
          (fun k hk => absurd hk List.not_mem_nil) rfl hnone
  | queueCallback j =>
      simp only [Step, IoLoop.step] at hst
      split at hst
      · obtain rfl := Option.some.inj hst
        exact h.of_moves [.callback j] rfl rfl rfl (fun k hk => Or.inl hk) List.suffix_rfl
          (fun k hk => Or.inl hk) trivial (fun k hk => absurd (List.mem_singleton.mp hk) nofun) rfl
          fun hs => ⟨(h.direct hs).1, fun k hk => absurd (List.mem_singleton.mp hk) nofun⟩
      · exact absurd hst nofun
  | swap => exact h.swap hst
  | functor => exact h.functor hst
  | finish =>
      simp only [Step, IoLoop.step] at hst
      split at hst
      · obtain rfl := Option.some.inj hst
        rename_i htodo
        refine ⟨h.active, fun _ => rfl, ?_, h.polled, h.ordered, h.pending, ?_, h.direct⟩
        · rw [htodo]
        · rw [htodo]
          exact fun k hk => absurd hk List.not_mem_nil
      · exact absurd hst nofun
  | call j shutdown =>
      simp only [Step, IoLoop.step] at hst
      split at hst
      · obtain rfl := Option.some.inj hst
        exact h.of_moves [] hend rfl rfl hsame List.suffix_rfl (fun k hk => Or.inl hk) trivial
          (fun k hk => absurd hk List.not_mem_nil) rfl hnone
      · exact absurd hst nofun
  | queueInLoop j =>
      simp only [Step, IoLoop.step] at hst
      split at hst
      · obtain rfl := Option.some.inj hst
        refine h.of_moves [.inLoop j] rfl rfl rfl (fun k hk => Or.inl hk) List.suffix_rfl
          (fun k hk => Or.inl hk) trivial ?_ rfl
          fun hs => ⟨(h.direct hs).1, fun k hk => absurd (List.mem_singleton.mp hk) nofun⟩
        intro k hk
        obtain rfl : k = j := by simpa using hk
        rcases htimely with hk | hk | ⟨f, hf, hk⟩
        · exact Or.inl hk
        · exact Or.inr (Or.inl hk)
        · exact anchored_of_mem (List.mem_append_left _ hf) hk
      · exact absurd hst nofun
  | removeConnecitonInLoop =>
      simp only [Step, IoLoop.step] at hst
      split at hst
      · exact absurd hst nofun
      · rename_i j removing hremoving
        split at hst
        · obtain rfl := Option.some.inj hst
          refine h.of_moves [.connectDestroyed j] rfl rfl rfl ?_ List.suffix_rfl
            (fun k hk => Or.inl hk) trivial
            (fun k hk => absurd (List.mem_singleton.mp hk) nofun) rfl ?_
          · rintro k (hk | hk)
            · rcases mem_filter_ne_or (j := j) hk with hk | rfl
              · exact Or.inl (Or.inl hk)
              · exact Or.inr (List.mem_singleton.mpr rfl)
            · rw [hremoving] at hk
              rcases List.mem_cons.mp hk with rfl | hk
              · exact Or.inr (List.mem_singleton.mpr rfl)
              · exact Or.inl (Or.inr hk)
          · intro hs
            exact absurd ((h.direct hs).1.symm.trans hremoving) nofun
        · exact absurd hst nofun
  | destroyServer => exact h.destroyServer hst htimely

/-- A new loop is sound, as it has no connections. -/
lemma sound_init (shared : Bool) : Sound { shared := shared } :=
  ⟨by simp, by simp, List.suffix_rfl, by simp, trivial, by simp, by simp,
    fun _ => ⟨rfl, by simp [queued]⟩⟩

/-- **A loop uses no connection that is gone**: over every run, with one loop or two, in every state
the channels that wait to be handled, the functors that bind a raw `this` and the pointers in the
epoll instance are of connections that something keeps alive; provided that each call on another
thread is queued before the end of its connection, and that a server with the same loop is destroyed
when no channel waits to be handled and no such call was queued. -/
theorem safe_throughout (shared : Bool) {p : List (IoEvent × IoLoop)}
    (hp : Path Step { shared := shared } p) (htimely : MeetsAll Timely { shared := shared } p) :
    Throughout Safe { shared := shared } p := by
  have hkeep : ∀ (s : IoLoop) (event : IoEvent) (t : IoLoop), s.Sound → Step s event t →
      s.Timely event → t.Sound := fun _ _ _ h hst htimely => h.step hst htimely
  exact (hp.throughout_of_meetsAll hkeep htimely (sound_init shared)).mono fun _ h => h.safe

/-- Two connections of another loop: one is closed when the other still waits to be handled, and a
call on another thread comes in between. -/
theorem safe_throughout_two : Throughout Safe { shared := false }
    (trace step { shared := false }
      [.newConnection, .newConnection, .swap, .functor, .functor, .finish, .poll [0, 1], .call 0 false,
        .handleEvent, .handleClose, .handled, .queueInLoop 0, .removeConnecitonInLoop, .handleEvent,
        .queueCallback 1, .handled, .swap, .functor, .functor, .functor, .finish]) :=
  safe_throughout false (path_trace step _ _) (by decide)

/-- A call that comes behind the end of its connection finds it gone. So does a loop whose server is
destroyed between two channels, or behind a call that was queued. -/
example : ¬ Throughout Safe { shared := true }
      (trace step { shared := true }
        [.newConnection, .call 0 false, .poll [0], .handleEvent, .handleClose, .handled, .swap,
          .functor, .queueInLoop 0, .finish, .swap]) ∧
    ¬ Throughout Safe { shared := true }
      (trace step { shared := true }
        [.newConnection, .newConnection, .poll [0, 1], .handleEvent, .destroyServer]) ∧
    ¬ Throughout Safe { shared := true }
      (trace step { shared := true }
        [.newConnection, .call 0 false, .queueInLoop 0, .destroyServer]) := by
  refine ⟨fun h => ?_, fun h => ?_, fun h => ?_⟩
  · have hsafe := h.last.functors 0 (by decide)
    revert hsafe
    decide
  · have hsafe := h.last.active 1 (by decide)
    revert hsafe
    decide
  · have hsafe := h.last.functors 0 (by decide)
    revert hsafe
    decide

end IoLoop

end SwiftNetCore
