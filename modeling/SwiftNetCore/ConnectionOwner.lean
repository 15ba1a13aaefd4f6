import SwiftNetCore.Lib.Path

/-!
# Who holds a connection

A `TcpConnection` lives as long as a `TcpConnectionPtr` to it is somewhere: in `connection_` of its
`TcpClient` or `connections_` of its `TcpServer`, bound in a functor that waits in a loop, or bound
in a callback of a connection. `TcpServer` leaves its argument to `closeCallback_`; `TcpClient`
binds the connection into it, which is a member of the same connection.

* `ConnectionOwner`: a client or a server with all its connections, from the first one to behind
  its own destruction, and the functors that bind one.
* `Released`: a connection that was closed, and whose `connectDestroyed` has run, has no holder.
* `Sound`: the way that each connection goes from its owner through the queues to its end.
* `released_of_unbound`: connections are released in every run in which no connection is closed by a
  callback that binds it, and no server is destroyed in the middle of a removal.
* `held_for_ever`: a connection that is closed by such a callback is never released.

Loops are numbered, that of the owner is 0. A functor counts until it runs, and the user keeps no
copy. `handleClose` of a connection is called once, as it disables all events of the channel, and no
callback is queued behind it, as nothing is sent in `kDisconnected`.
-/

namespace SwiftNetCore

open Paths (Path Throughout MeetsAll)

/-! ## The state -/

/-- What `closeCallback_` of a connection is made of. -/
inductive CloseCallback where
  /-- `std::bind(&TcpClient::removeConnection, this, conn)` -/
  | tcpClient (conn : ℕ)
  /-- `std::bind(&TcpServer::removeConnection, this, _1)` -/
  | tcpServer
  /-- `std::bind(&detail::removeConnection, loop_, _1)` -/
  | detail
  deriving DecidableEq, Repr

/-- How far a connection's `handleClose` has come. -/
inductive CloseStage where
  /-- it was not called -/
  | running
  /-- it is in front of `closeCallback_` -/
  | closing
  /-- and behind it -/
  | closed
  deriving DecidableEq, Repr

/-- A `TcpConnection`, as its holders see it. -/
structure HeldConnection where
  /-- `loop_` -/
  loop : ℕ
  /-- `closeCallback_` -/
  closeCallback : CloseCallback
  stage : CloseStage := .running
  /-- whether `connectDestroyed` has run -/
  destroyed : Bool := false
  deriving DecidableEq, Repr

/-- A functor that binds a connection. -/
inductive HeldFunctor where
  | connectEstablished (k : ℕ)
  /-- `writeCompleteCallback_` or `highWaterMarkCallback_` -/
  | callback (k : ℕ)
  | removeConnecitonInLoop (k : ℕ)
  | connectDestroyed (k : ℕ)
  | setCloseCallback (k : ℕ)
  deriving DecidableEq, Repr

/-- The connection that it binds. -/
def HeldFunctor.conn : HeldFunctor → ℕ
  | connectEstablished k | callback k | removeConnecitonInLoop k | connectDestroyed k
  | setCloseCallback k => k

/-- Whether it leads to the end of the connection. -/
def HeldFunctor.isLast : HeldFunctor → Bool
  | removeConnecitonInLoop _ | connectDestroyed _ => true
  | connectEstablished _ | callback _ | setCloseCallback _ => false

/-- The two classes that own connections. -/
inductive OwnerKind where
  | client
  | server
  deriving DecidableEq, Repr

/-- A `TcpClient` or a `TcpServer`, with its connections. -/
structure ConnectionOwner where
  kind : OwnerKind
  /-- whether it was not destroyed -/
  alive : Bool := true
  /-- `connection_` or `connections_` -/
  member : List ℕ := []
  /-- all connections made, by number -/
  connections : List HeldConnection := []
  /-- the functors in the loops, each with its loop, in the order in which they were queued -/
  queue : List (ℕ × HeldFunctor) := []
  deriving DecidableEq

/-- What happens to an owner and its connections. -/
inductive OwnerEvent where
  /-- `newConnection`, for a connection of this loop -/
  | newConnection (loop : ℕ)
  /-- a connection queues `writeCompleteCallback_` or `highWaterMarkCallback_` -/
  | queueCallback (k : ℕ)
  /-- `handleClose` of a connection, up to `closeCallback_` -/
  | handleClose (k : ℕ)
  /-- the call of `closeCallback_` -/
  | closeCallback (k : ℕ)
  /-- a loop runs its oldest functor -/
  | runFunctor (loop : ℕ)
  /-- the owner is destroyed, in the thread of this loop or of none -/
  | destroy (thread : Option ℕ)
  deriving DecidableEq, Repr

namespace ConnectionOwner

variable (s : ConnectionOwner)

/-- The loop of a connection. -/
def loopOf (k : ℕ) : ℕ := (s.connections[k]?.map HeldConnection.loop).getD 0

/-- `queueInLoop` of a loop. -/
def queueInLoop (loop : ℕ) (functor : HeldFunctor) : ConnectionOwner :=
  { s with queue := s.queue ++ [(loop, functor)] }

/-- Change one connection. -/
def modify (k : ℕ) (f : HeldConnection → HeldConnection) : ConnectionOwner :=
  { s with connections := s.connections.modify k f }

/-- `connectDestroyed`, which binds nothing. -/
def connectDestroyed (k : ℕ) : ConnectionOwner := s.modify k ({ · with destroyed := true })

end ConnectionOwner

/-! ## The functions of the owners -/

section

variable (s : ConnectionOwner)

/-- Source: TcpClient.cpp 33-36 -/
def detail.removeConnection (k : ℕ) : ConnectionOwner := s.queueInLoop 0 (.connectDestroyed k)

/-- Source: TcpClient.cpp 117-144 -/
def TcpClient.newConnection : ConnectionOwner :=
  { s with
    member := [s.connections.length]
    connections := s.connections ++ [⟨0, .tcpClient s.connections.length, .running, false⟩] }

/-- `restart` is called behind this when the client retries. Source: TcpClient.cpp 146-159 -/
def TcpClient.removeConnection (conn : ℕ) : ConnectionOwner :=
  { s with member := [] }.queueInLoop 0 (.connectDestroyed conn)

/-- `~TcpClient`, in the loop's thread or another. Source: TcpClient.cpp 62-88 -/
def TcpClient.destroy (thread : Option ℕ) : ConnectionOwner :=
  let t := { s with alive := false, member := [] }
  match s.member with
  | k :: _ =>
    if thread = some 0 then t.modify k ({ · with closeCallback := .detail })
    else t.queueInLoop 0 (.setCloseCallback k)
  | [] => t

/-- Source: TcpServer.cpp 66-108 -/
def TcpServer.newConnection (loop : ℕ) : ConnectionOwner :=
  let t := { s with
    member := s.member ++ [s.connections.length]
    connections := s.connections ++ [⟨loop, .tcpServer, .running, false⟩] }
  if loop = 0 then t else t.queueInLoop loop (.connectEstablished s.connections.length)

/-- Source: TcpServer.cpp 116-126 -/
def TcpServer.removeConnecitonInLoop (k : ℕ) : ConnectionOwner :=
  { s with member := s.member.filter (· ≠ k) }.queueInLoop (s.loopOf k) (.connectDestroyed k)

/-- In the thread of the connection's loop. Source: TcpServer.cpp 110-115 -/
def TcpServer.removeConnection (k : ℕ) : ConnectionOwner :=
  if s.loopOf k = 0 then removeConnecitonInLoop s k
  else s.queueInLoop 0 (.removeConnecitonInLoop k)

/-- The loop of `~TcpServer`. Source: TcpServer.cpp 36-48 -/
def TcpServer.destroyAll (thread : Option ℕ) (s : ConnectionOwner) : List ℕ → ConnectionOwner
  | [] => s
  | k :: ks =>
    destroyAll thread
      (if thread = some (s.loopOf k) then s.connectDestroyed k
        else s.queueInLoop (s.loopOf k) (.connectDestroyed k)) ks

/-- `~TcpServer` -/
def TcpServer.destroy (thread : Option ℕ) : ConnectionOwner :=
  destroyAll thread { s with alive := false, member := [] } s.member

end

namespace ConnectionOwner

/-- The oldest functor of a loop, and the queue without it. -/
def next (loop : ℕ) : List (ℕ × HeldFunctor) → Option (HeldFunctor × List (ℕ × HeldFunctor))
  | [] => none
  | (l, functor) :: queue =>
    if l = loop then some (functor, queue)
    else (next loop queue).map fun (functor', rest) => (functor', (l, functor) :: rest)

variable (s : ConnectionOwner)

/-- A functor runs; `none` where it uses an owner that was destroyed. -/
def runFunctor : HeldFunctor → Option ConnectionOwner
  | .connectEstablished _ | .callback _ => some s
  | .removeConnecitonInLoop k =>
    if s.alive then some (TcpServer.removeConnecitonInLoop s k) else none
  | .connectDestroyed k => some (s.connectDestroyed k)
  | .setCloseCallback k => some (s.modify k ({ · with closeCallback := .detail }))

/-- `closeCallback_(connPtr)`; `none` where it uses an owner that was destroyed. -/
def callCloseCallback (k : ℕ) : CloseCallback → Option ConnectionOwner
  | .tcpClient conn => if s.alive then some (TcpClient.removeConnection s conn) else none
  | .tcpServer => if s.alive then some (TcpServer.removeConnection s k) else none
  | .detail => some (detail.removeConnection s k)

/-- One event. -/
def step : OwnerEvent → Option ConnectionOwner
  | .newConnection loop =>
    if s.alive then
      match s.kind with
      | .client => if loop = 0 then some (TcpClient.newConnection s) else none
      | .server => some (TcpServer.newConnection s loop)
    else none
  | .queueCallback k =>
    s.connections[k]?.bind fun conn =>
      -- a connection that is `kDisconnected` sends nothing
      if conn.stage = .running then some (s.queueInLoop conn.loop (.callback k)) else none
  | .handleClose k =>
    s.connections[k]?.bind fun conn =>
      -- the first one disables all events of the channel
      if conn.stage = .running then some (s.modify k ({ · with stage := .closing })) else none
  | .closeCallback k =>
    s.connections[k]?.bind fun conn =>
      if conn.stage = .closing then
        (s.modify k ({ · with stage := .closed })).callCloseCallback k conn.closeCallback
      else none
  | .runFunctor loop =>
    (next loop s.queue).bind fun (functor, rest) => { s with queue := rest }.runFunctor functor
  | .destroy thread =>
    if s.alive then
      match s.kind with
      | .client => some (TcpClient.destroy s thread)
      | .server => some (TcpServer.destroy s thread)
    else none

/-- The steps of an owner. -/
def Step (event : OwnerEvent) (t : ConnectionOwner) : Prop := s.step event = some t

/-! ## The property and the condition -/

/-- How many hold the connection: the owner's member, the callbacks of connections, and the functors
in the loops. -/
def holders (k : ℕ) : ℕ :=
  s.member.count k + s.connections.countP (fun conn => conn.closeCallback = .tcpClient k) +
    s.queue.countP (fun p => p.2.conn = k)

/-- A connection that was closed, and whose `connectDestroyed` has run, has no holder. -/
def Released : Prop :=
  ∀ k < s.connections.length, ∀ conn ∈ s.connections[k]?,
    conn.stage = .closed → conn.destroyed = true → s.holders k = 0

instance : Decidable s.Released :=
  inferInstanceAs (Decidable (∀ k < s.connections.length, ∀ conn ∈ s.connections[k]?, _))

/-- The condition: no connection is closed by a callback that binds it, and the owner is not
destroyed while a connection is on its way to `removeConnecitonInLoop`. -/
def Unbound : OwnerEvent → Prop
  | .closeCallback k => ∀ conn ∈ s.connections[k]?, conn.closeCallback ≠ .tcpClient k
  | .destroy _ => ∀ p ∈ s.queue, p.2 ≠ .removeConnecitonInLoop p.2.conn
  | .newConnection _ | .queueCallback _ | .handleClose _ | .runFunctor _ => True

instance : DecidablePred s.Unbound
  | .closeCallback k => inferInstanceAs (Decidable (∀ conn ∈ s.connections[k]?, _))
  | .destroy _ => inferInstanceAs (Decidable (∀ p ∈ s.queue, _))
  | .newConnection _ | .queueCallback _ | .handleClose _ | .runFunctor _ =>
    inferInstanceAs (Decidable True)

/-! ## The way of a connection -/

/-- The functors that bind a connection, in their order. -/
def functors (k : ℕ) : List (ℕ × HeldFunctor) := s.queue.filter fun p => p.2.conn = k

/-- Where a connection is on its way. -/
inductive Tidy (s : ConnectionOwner) (k : ℕ) (conn : HeldConnection) : Prop
  /-- it was not closed, and nothing leads to its end but the end of its server, -/
  | running (hstage : conn.stage ≠ .closed)
      (hremove : ∀ p ∈ s.functors k, p.2 ≠ .removeConnecitonInLoop k)
      (hdestroyed : (conn.destroyed = false ∧ ∀ p ∈ s.functors k, p.2 ≠ .connectDestroyed k) ∨
        s.alive = false ∧ conn.closeCallback = .tcpServer)
  /-- it waits for `removeConnecitonInLoop`, -/
  | removing (hstage : conn.stage = .closed) (hunbound : conn.closeCallback = .tcpServer)
      (hdestroyed : conn.destroyed = false)
      (hlast : (s.functors k).filter (·.2.isLast) = [(0, .removeConnecitonInLoop k)])
  /-- for `connectDestroyed`, the last of its functors, -/
  | leaving (hstage : conn.stage = .closed) (hunbound : ∀ j, conn.closeCallback ≠ .tcpClient j)
      (hdestroyed : conn.destroyed = false) (hmember : k ∉ s.member)
      (before : List (ℕ × HeldFunctor))
      (hqueue : s.functors k = before ++ [(conn.loop, .connectDestroyed k)])
      (hbefore : ∀ p ∈ before, p.2.isLast = false)
  /-- and for nothing -/
  | gone (hstage : conn.stage = .closed) (hunbound : ∀ j, conn.closeCallback ≠ .tcpClient j)
      (hmember : k ∉ s.member) (hqueue : s.functors k = [])

/-- What a connection is made with. -/
def Made (s : ConnectionOwner) (k : ℕ) (conn : HeldConnection) : Prop :=
  match s.kind with
  | .client => conn.loop = 0 ∧
      (conn.closeCallback = .tcpClient k ∨ conn.closeCallback = .detail ∧ s.alive = false)
  | .server => conn.closeCallback = .tcpServer

/-- What an owner that is sound knows of a connection. -/
structure Placed (s : ConnectionOwner) (k : ℕ) (conn : HeldConnection) : Prop where
  made : s.Made k conn
  /-- its functors wait in its loop, but for `removeConnecitonInLoop` -/
  loops : ∀ p ∈ s.functors k, p.1 = conn.loop ∨ p.2 = .removeConnecitonInLoop k
  /-- `setCloseCallback` is queued by `~TcpClient` -/
  replaces : ∀ p ∈ s.functors k, p.2 = .setCloseCallback k → s.kind = .client ∧ s.alive = false
  tidy : s.Tidy k conn

/-- All connections of an owner are on their way. -/
structure Sound (s : ConnectionOwner) : Prop where
  /-- an owner that was destroyed holds nothing -/
  dead : s.alive = false → s.member = []
  owned : ∀ k ∈ s.member, k < s.connections.length
  range : ∀ p ∈ s.queue, p.2.conn < s.connections.length
  placed : ∀ k conn, s.connections[k]? = some conn → s.Placed k conn

variable {s} {t : ConnectionOwner} {event : OwnerEvent} {k loop : ℕ} {conn : HeldConnection}
  {functor : HeldFunctor}

/-- No functor binds a connection exactly when all in the queue are for other connections. -/
lemma functors_eq_nil_iff : s.functors k = [] ↔ ∀ p ∈ s.queue, p.2.conn ≠ k := by
  simp [functors]

/-- A connection is on its way as before when its functors are the same, and no owner comes back or
takes it up. -/
lemma Tidy.congr (h : s.Tidy k conn) (hqueue : t.functors k = s.functors k)
    (halive : s.alive = false → t.alive = false) (hmember : k ∈ t.member → k ∈ s.member) :
    t.Tidy k conn := by
  cases h with
  | running hstage hremove hdestroyed =>
      refine .running hstage (by rwa [hqueue]) ?_
      rw [hqueue]
      exact hdestroyed.imp_right (And.imp_left halive)
  | removing hstage hunbound hdestroyed hlast =>
      exact .removing hstage hunbound hdestroyed (by rwa [hqueue])
  | leaving hstage hunbound hdestroyed hnot before heq hbefore =>
      exact .leaving hstage hunbound hdestroyed (fun h => hnot (hmember h)) before
        (hqueue.trans heq) hbefore
  | gone hstage hunbound hnot heq =>
      exact .gone hstage hunbound (fun h => hnot (hmember h)) (hqueue.trans heq)

/-- What a connection is made with stays when the kind of the owner does and an owner that is gone
stays gone. -/
lemma Made.congr (h : s.Made k conn) (hkind : t.kind = s.kind)
    (halive : s.alive = false → t.alive = false) : t.Made k conn := by
  unfold Made at h ⊢
  rw [hkind]
  split at h
  · exact h.imp_right fun hcallback => hcallback.imp_right (And.imp_right halive)
  · exact h

/-- A connection is bound in its own callback or in none. -/
lemma Made.unbound (h : s.Made k conn) (hnot : conn.closeCallback ≠ .tcpClient k) (j : ℕ) :
    conn.closeCallback ≠ .tcpClient j := by
  unfold Made at h
  split at h
  · rcases h.2 with hown | ⟨hdetail, -⟩
    · exact absurd hown hnot
    · simp [hdetail]
  · simp [h]

/-- `~TcpClient` alone puts `detail::removeConnection` there. -/
lemma Made.of_detail (h : s.Made k conn) (hdetail : conn.closeCallback = .detail) :
    conn.loop = 0 ∧ s.alive = false := by
  unfold Made at h
  split at h
  · rcases h with ⟨hzero, hown | ⟨-, hdead⟩⟩
    · simp [hdetail] at hown
    · exact ⟨hzero, hdead⟩
  · simp [hdetail] at h

/-- A connection keeps its place when nothing about it changes in the owner. -/
lemma Placed.congr (h : s.Placed k conn) (hkind : t.kind = s.kind)
    (hqueue : t.functors k = s.functors k) (halive : s.alive = false → t.alive = false)
    (hmember : k ∈ t.member → k ∈ s.member) : t.Placed k conn where
  made := h.made.congr hkind halive
  loops := by
    rw [hqueue]
    exact h.loops
  replaces := by
    rw [hqueue, hkind]
    exact fun p hp heq => (h.replaces p hp heq).imp_right halive
  tidy := h.tidy.congr hqueue halive hmember

/-- A sound owner holds no connection that is gone. -/
lemma Sound.released (h : s.Sound) : s.Released := by
  intro k _ conn hconn hstage hdestroyed
  have htidy := (h.placed k conn hconn).tidy
  cases htidy with
  | running hrunning => exact absurd hstage hrunning
  | removing _ _ hnot | leaving _ _ hnot => exact absurd (hdestroyed.symm.trans hnot) nofun
  | gone _ hunbound hmember hqueue =>
      have hbound : s.connections.countP (fun conn => conn.closeCallback = .tcpClient k) = 0 := by
        refine List.countP_eq_zero.mpr fun other hother => ?_
        obtain ⟨j, hj⟩ := List.mem_iff_getElem?.mp hother
        simp only [decide_eq_true_eq]
        intro hbinds
        have hmade := (h.placed j other hj).made
        unfold Made at hmade
        split at hmade
        · rcases hmade.2 with hown | ⟨hdetail, -⟩
          · obtain rfl : j = k := by simpa [hown] using hbinds
            obtain rfl := Option.some.inj (hj.symm.trans hconn)
            exact hunbound j hown
          · simp [hdetail] at hbinds
        · simp [hmade] at hbinds
      have hqueued : s.queue.countP (fun p => p.2.conn = k) = 0 := by
        rw [List.countP_eq_zero]
        simpa using functors_eq_nil_iff.mp hqueue
      rw [holders, List.count_eq_zero.mpr hmember, hbound, hqueued]

/-! ## Connections and queues -/

/-- The connection that is changed is the changed one. -/
lemma connections_modify_self (hconn : s.connections[k]? = some conn)
    (f : HeldConnection → HeldConnection) : (s.modify k f).connections[k]? = some (f conn) := by
  simp [modify, hconn]

/-- Changing a connection leaves the others as they are. -/
lemma connections_modify_of_ne {j : ℕ} (f : HeldConnection → HeldConnection) (hj : j ≠ k) :
    (s.modify k f).connections[j]? = s.connections[j]? := by
  simp [modify, hj.symm]

/-- Changing a connection leaves their number as it is. -/
lemma length_connections_modify (k : ℕ) (f : HeldConnection → HeldConnection) :
    (s.modify k f).connections.length = s.connections.length := List.length_modify ..

/-- `queueInLoop` of a functor that binds the connection puts it behind those that do. -/
lemma functors_queueInLoop_self (l : ℕ) (hk : functor.conn = k) :
    (s.queueInLoop l functor).functors k = s.functors k ++ [(l, functor)] := by
  rw [functors, queueInLoop, List.filter_append, List.filter_singleton]
  simp [functors, hk]

/-- `queueInLoop` is of no concern to another connection. -/
lemma functors_queueInLoop_of_ne (l : ℕ) (hk : k ≠ functor.conn) :
    (s.queueInLoop l functor).functors k = s.functors k := by
  rw [functors, queueInLoop, List.filter_append, List.filter_singleton]
  simp [functors, Ne.symm hk]

/-- The oldest functor of a loop has none of that loop before it. -/
lemma next_eq_some {queue rest : List (ℕ × HeldFunctor)}
    (h : next loop queue = some (functor, rest)) :
    ∃ before behind, queue = before ++ (loop, functor) :: behind ∧ rest = before ++ behind ∧
      ∀ p ∈ before, p.1 ≠ loop := by
  induction queue generalizing rest with
  | nil => cases h
  | cons p queue ih =>
      obtain ⟨l, f⟩ := p
      unfold next at h
      split_ifs at h with hl
      · obtain ⟨rfl, rfl⟩ := Prod.mk.inj (Option.some.inj h)
        exact ⟨[], queue, by simp [hl], rfl, by simp⟩
      · obtain ⟨⟨g, rest'⟩, hnext, heq⟩ := Option.map_eq_some_iff.mp h
        obtain ⟨rfl, rfl⟩ := Prod.mk.inj heq
        obtain ⟨before, behind, rfl, rfl, hbefore⟩ := ih hnext
        refine ⟨(l, f) :: before, behind, rfl, rfl, ?_⟩
        rintro p (_ | ⟨_, hp⟩)
        · exact hl
        · exact hbefore p hp

/-- When a functor of a connection is taken, those before it, of other loops, and those behind it
are left. -/
lemma functors_of_next {rest : List (ℕ × HeldFunctor)}
    (h : next loop s.queue = some (functor, rest)) (hk : functor.conn = k) :
    ∃ before behind, s.functors k = before ++ (loop, functor) :: behind ∧
      functors { s with queue := rest } k = before ++ behind ∧ ∀ p ∈ before, p.1 ≠ loop := by
  obtain ⟨before, behind, hqueue, rfl, hbefore⟩ := next_eq_some h
  refine ⟨before.filter fun p => p.2.conn = k, behind.filter fun p => p.2.conn = k, ?_, ?_, ?_⟩
  · rw [functors, hqueue, List.filter_append, List.filter_cons_of_pos (by simpa using hk)]
  · rw [functors, List.filter_append]
  · exact fun p hp => hbefore p (List.mem_of_mem_filter hp)

/-- The functors of a connection stay when one of another connection is taken. -/
lemma functors_of_next_of_ne {rest : List (ℕ × HeldFunctor)}
    (h : next loop s.queue = some (functor, rest)) (hk : functor.conn ≠ k) :
    functors { s with queue := rest } k = s.functors k := by
  obtain ⟨before, behind, hqueue, rfl, -⟩ := next_eq_some h
  rw [functors, functors, hqueue, List.filter_append, List.filter_append,
    List.filter_cons_of_neg (by simpa using hk)]

/-- What waits for a connection when one of its functors was taken waited for it before. -/
lemma mem_functors_of_taken {before behind : List (ℕ × HeldFunctor)} {p : ℕ × HeldFunctor}
    (hqueue : s.functors k = before ++ (loop, functor) :: behind) (hp : p ∈ before ++ behind) :
    p ∈ s.functors k :=
  hqueue ▸ ((List.sublist_cons_self _ behind).append_left before).subset hp

/-- The functors that bind a connection are those of the queue that are for it. -/
lemma mem_functors {p : ℕ × HeldFunctor} : p ∈ s.functors k ↔ p ∈ s.queue ∧ p.2.conn = k := by
  simp [functors]

/-- A functor that leads to the end of its connection is one of two. -/
lemma isLast_of_mem {p : ℕ × HeldFunctor} (h : p ∈ s.functors k)
    (hremove : p.2 ≠ .removeConnecitonInLoop k) (hdestroy : p.2 ≠ .connectDestroyed k) :
    p.2.isLast = false := by
  obtain ⟨l, f⟩ := p
  have hk := (mem_functors.mp h).2
  cases f <;> simp only [HeldFunctor.conn] at hk <;> subst hk <;>
    first | rfl | exact absurd rfl hremove | exact absurd rfl hdestroy

/-- The owner holds connections that were made. -/
lemma Sound.exists_of_member (h : s.Sound) (hk : k ∈ s.member) :
    ∃ conn, s.connections[k]? = some conn ∧ s.Placed k conn :=
  have hconn := List.getElem?_eq_getElem (h.owned k hk)
  ⟨_, hconn, h.placed k _ hconn⟩

/-- The functors in the loops bind connections that were made. -/
lemma Sound.exists_of_queue (h : s.Sound) {p : ℕ × HeldFunctor} (hp : p ∈ s.queue)
    (hk : p.2.conn = k) : ∃ conn, s.connections[k]? = some conn ∧ s.Placed k conn :=
  have hconn := List.getElem?_eq_getElem (hk ▸ h.range p hp)
  ⟨_, hconn, h.placed k _ hconn⟩

/-! ## Steps -/

/-- What is known of a connection that was not closed. -/
lemma Tidy.of_not_closed (h : s.Tidy k conn) (hstage : conn.stage ≠ .closed) :
    (∀ p ∈ s.functors k, p.2 ≠ .removeConnecitonInLoop k) ∧
      ((conn.destroyed = false ∧ ∀ p ∈ s.functors k, p.2 ≠ .connectDestroyed k) ∨
        s.alive = false ∧ conn.closeCallback = .tcpServer) := by
  cases h with
  | running _ hremove hdestroyed => exact ⟨hremove, hdestroyed⟩
  | removing hclosed | leaving hclosed | gone hclosed => exact absurd hclosed hstage

/-- A functor is queued for a connection that was not closed. -/
lemma Placed.queue (h : s.Placed k conn) (hstage : conn.stage ≠ .closed) (hconn : functor.conn = k)
    (hremove : functor ≠ .removeConnecitonInLoop k)
    (hreplaces : functor = .setCloseCallback k → s.kind = .client ∧ s.alive = false)
    (hdestroy : functor = .connectDestroyed k → s.alive = false ∧ conn.closeCallback = .tcpServer) :
    (s.queueInLoop conn.loop functor).Placed k conn := by
  have hqueue : (s.queueInLoop conn.loop functor).functors k =
      s.functors k ++ [(conn.loop, functor)] := functors_queueInLoop_self conn.loop hconn
  obtain ⟨hremove', hdestroyed⟩ := h.tidy.of_not_closed hstage
  refine ⟨h.made.congr rfl fun halive => halive, ?_, ?_, .running hstage ?_ ?_⟩ <;>
    simp only [hqueue, List.forall_mem_append, List.forall_mem_singleton]
  · exact ⟨h.loops, .inl trivial⟩
  · exact ⟨h.replaces, hreplaces⟩
  · exact ⟨hremove', hremove⟩
  · by_cases heq : functor = .connectDestroyed k
    · exact .inr (hdestroy heq)
    · exact hdestroyed.imp_left (And.imp_right fun hnot => ⟨hnot, heq⟩)

/-- A step that concerns one connection keeps the owner sound when that one is in its place. -/
lemma Sound.of_one (h : s.Sound) (k : ℕ) (hkind : t.kind = s.kind)
    (halive : s.alive = false → t.alive = false) (hdead : t.alive = false → t.member = [])
    (howned : ∀ j ∈ t.member, j < t.connections.length)
    (hrange : ∀ p ∈ t.queue, p.2.conn < t.connections.length)
    (hothers : ∀ j ≠ k, t.connections[j]? = s.connections[j]? ∧ t.functors j = s.functors j ∧
      (j ∈ t.member → j ∈ s.member))
    (hplaced : ∀ conn, t.connections[k]? = some conn → t.Placed k conn) : t.Sound where
  dead := hdead
  owned := howned
  range := hrange
  placed := by
    intro j conn hconn
    by_cases hj : j = k
    · subst hj
      exact hplaced conn hconn
    · obtain ⟨hsame, hqueue, hmember⟩ := hothers j hj
      exact (h.placed j conn (hsame ▸ hconn)).congr hkind hqueue halive hmember

/-- A functor in the queue of a loop keeps the owner sound when its connection is in its place. -/
lemma Sound.queueInLoop (h : s.Sound) {l : ℕ} (hconn : s.connections[k]? = some conn)
    (hk : functor.conn = k) (hplaced : (s.queueInLoop l functor).Placed k conn) :
    (s.queueInLoop l functor).Sound := by
  refine h.of_one k rfl (fun halive => halive) h.dead h.owned ?_ ?_ ?_
  · simp only [ConnectionOwner.queueInLoop, List.forall_mem_append, List.forall_mem_singleton]
    exact ⟨h.range, hk ▸ (List.getElem?_eq_some_iff.mp hconn).1⟩
  · intro j hj
    exact ⟨rfl, functors_queueInLoop_of_ne l (hk ▸ hj), fun hmember => hmember⟩
  · intro conn' hconn'
    obtain rfl := Option.some.inj (hconn.symm.trans hconn')
    exact hplaced

/-- Changing one connection keeps the owner sound when that one is still in its place. -/
lemma Sound.modify (h : s.Sound) {f : HeldConnection → HeldConnection}
    (hconn : s.connections[k]? = some conn) (hplaced : (s.modify k f).Placed k (f conn)) :
    (s.modify k f).Sound := by
  refine h.of_one k rfl (fun halive => halive) h.dead ?_ ?_ ?_ ?_
  · exact fun j hj => (length_connections_modify k f).symm ▸ h.owned j hj
  · exact fun p hp => (length_connections_modify k f).symm ▸ h.range p hp
  · exact fun j hj => ⟨connections_modify_of_ne f hj, rfl, fun hmember => hmember⟩
  · intro conn' hconn'
    obtain rfl := Option.some.inj ((connections_modify_self hconn f).symm.trans hconn')
    exact hplaced

/-- A connection that has only just been made has no functors. -/
lemma Sound.functors_new (h : s.Sound) : s.functors s.connections.length = [] :=
  functors_eq_nil_iff.mpr fun p hp => (h.range p hp).ne

/-- A new connection keeps the owner sound. -/
lemma Sound.add (h : s.Sound) {member : List ℕ} (halive : s.alive = true)
    (hmember : ∀ j ∈ member, j ∈ s.member ∨ j = s.connections.length)
    (hmade : s.Made s.connections.length conn) (hstage : conn.stage ≠ .closed)
    (hdestroyed : conn.destroyed = false) :
    Sound { s with member := member, connections := s.connections ++ [conn] } := by
  refine h.of_one s.connections.length rfl (fun halive => halive) ?_ ?_ ?_ ?_ ?_
  · intro hnot
    exact absurd (halive.symm.trans hnot) nofun
  · intro j hj
    rw [List.length_append]
    rcases hmember j hj with hj | rfl
    · exact Nat.lt_add_right _ (h.owned j hj)
    · exact Nat.lt_succ_self _
  · intro p hp
    rw [List.length_append]
    exact Nat.lt_add_right _ (h.range p hp)
  · intro j hj
    refine ⟨?_, rfl, fun hmem => (hmember j hmem).resolve_right hj⟩
    rcases Nat.lt_or_gt_of_ne hj with hlt | hgt
    · exact List.getElem?_append_left hlt
    · rw [List.getElem?_eq_none hgt.le, List.getElem?_eq_none]
      simpa using hgt
  · intro conn' hconn'
    obtain rfl : conn = conn' := by simpa using hconn'
    have hnone : functors { s with member := member, connections := s.connections ++ [conn] }
        s.connections.length = [] := h.functors_new
    refine ⟨hmade, ?_, ?_, .running hstage ?_ (.inl ⟨hdestroyed, ?_⟩)⟩ <;> rw [hnone] <;> simp

/-- A connection that is closed, or was, is on its way to `connectDestroyed` once that is queued. -/
lemma Placed.leave {conn' : HeldConnection} {before : List (ℕ × HeldFunctor)}
    (h : s.Placed k conn) (hmade : t.Made k conn') (hkind : t.kind = s.kind)
    (halive : s.alive = false → t.alive = false) (hloop : conn'.loop = conn.loop)
    (hstage : conn'.stage = .closed) (hunbound : ∀ j, conn'.closeCallback ≠ .tcpClient j)
    (hdestroyed : conn'.destroyed = false) (hmember : k ∉ t.member)
    (hqueue : t.functors k = before ++ [(conn'.loop, .connectDestroyed k)])
    (hbefore : ∀ p ∈ before, p ∈ s.functors k ∧ p.2.isLast = false) : t.Placed k conn' where
  made := hmade
  loops := by
    simp only [hqueue, List.forall_mem_append, List.forall_mem_singleton]
    refine ⟨fun p hp => ?_, .inl trivial⟩
    obtain ⟨hmem, hlast⟩ := hbefore p hp
    rw [hloop]
    exact h.loops p hmem
  replaces := by
    simp only [hqueue, hkind, List.forall_mem_append, List.forall_mem_singleton]
    refine ⟨fun p hp heq => (h.replaces p (hbefore p hp).1 heq).imp_right halive, nofun⟩
  tidy := .leaving hstage hunbound hdestroyed hmember before hqueue fun p hp => (hbefore p hp).2

/-- A connection whose `removeConnecitonInLoop` was queued is on its way to it. -/
lemma Placed.remove (h : s.Placed k conn) (hkind : t.kind = s.kind)
    (halive : s.alive = false → t.alive = false) (hserver : conn.closeCallback = .tcpServer)
    (hdestroyed : conn.destroyed = false)
    (hqueue : t.functors k = s.functors k ++ [(0, .removeConnecitonInLoop k)])
    (hbefore : ∀ p ∈ s.functors k, p.2.isLast = false) :
    t.Placed k { conn with stage := .closed } where
  made := h.made.congr hkind halive
  loops := by
    rw [hqueue, List.forall_mem_append, List.forall_mem_singleton]
    exact ⟨h.loops, .inr rfl⟩
  replaces := by
    rw [hqueue, hkind, List.forall_mem_append, List.forall_mem_singleton]
    exact ⟨fun p hp heq => (h.replaces p hp heq).imp_right halive, nofun⟩
  tidy := by
    refine .removing rfl hserver hdestroyed ?_
    rw [hqueue, List.filter_append, List.filter_eq_nil_iff.mpr, List.nil_append]
    · rfl
    · exact fun p hp => by simp [hbefore p hp]

/-- A connection goes to `connectDestroyed`, the last of its functors. -/
lemma Sound.leave (h : s.Sound) (before : List (ℕ × HeldFunctor))
    (hconn : s.connections[k]? = some conn) (hkind : t.kind = s.kind) (halive : t.alive = s.alive)
    (hmember : ∀ j ∈ t.member, j ∈ s.member ∧ j ≠ k)
    (hlength : t.connections.length = s.connections.length)
    (hothers : ∀ j ≠ k, t.connections[j]? = s.connections[j]? ∧ t.functors j = s.functors j)
    (hself : t.connections[k]? = some { conn with stage := .closed })
    (hunbound : conn.closeCallback ≠ .tcpClient k) (hdestroyed : conn.destroyed = false)
    (hqueue : t.functors k = before ++ [(conn.loop, .connectDestroyed k)])
    (hbefore : ∀ p ∈ before, p ∈ s.functors k ∧ p.2.isLast = false) : t.Sound := by
  have hplaced := h.placed k conn hconn
  have hdead : s.alive = false → t.alive = false := fun hnot => halive.trans hnot
  refine h.of_one k hkind hdead ?_ ?_ ?_ ?_ ?_
  · intro hnot
    refine List.eq_nil_iff_forall_not_mem.mpr fun j hj => ?_
    have hnil := h.dead (halive.symm.trans hnot)
    exact absurd (hnil ▸ (hmember j hj).1) List.not_mem_nil
  · exact fun j hj => hlength ▸ h.owned j (hmember j hj).1
  · intro p hp
    rw [hlength]
    by_cases hk : p.2.conn = k
    · exact hk ▸ (List.getElem?_eq_some_iff.mp hconn).1
    · have hmem : p ∈ s.functors p.2.conn := (hothers _ hk).2 ▸ mem_functors.mpr ⟨hp, rfl⟩
      exact h.range p (mem_functors.mp hmem).1
  · exact fun j hj => ⟨(hothers j hj).1, (hothers j hj).2, fun hmem => (hmember j hmem).1⟩
  · intro conn' hconn'
    obtain rfl := Option.some.inj (hself.symm.trans hconn')
    exact hplaced.leave (hplaced.made.congr hkind hdead) hkind hdead rfl rfl
      (hplaced.made.unbound hunbound) hdestroyed (fun hmem => (hmember k hmem).2 rfl) hqueue hbefore

/-! ### A connection is made -/

/-- `TcpClient::newConnection` keeps the owner sound. -/
lemma Sound.tcpClient_newConnection (h : s.Sound) (halive : s.alive = true)
    (hkind : s.kind = .client) : (TcpClient.newConnection s).Sound := by
  refine h.add halive ?_ ?_ nofun rfl
  · exact fun j hj => .inr (List.mem_singleton.mp hj)
  · simp [Made, hkind]

/-- `TcpServer::newConnection` keeps the owner sound. -/
lemma Sound.tcpServer_newConnection (h : s.Sound) (halive : s.alive = true)
    (hkind : s.kind = .server) (loop : ℕ) : (TcpServer.newConnection s loop).Sound := by
  have hadd : Sound { s with
      member := s.member ++ [s.connections.length]
      connections := s.connections ++ [⟨loop, .tcpServer, .running, false⟩] } := by
    refine h.add halive ?_ ?_ nofun rfl
    · exact fun j hj => (List.mem_append.mp hj).imp_right List.mem_singleton.mp
    · simp [Made, hkind]
  unfold TcpServer.newConnection
  dsimp only
  split_ifs
  · exact hadd
  · have hconn : (s.connections ++ [⟨loop, .tcpServer, .running, false⟩])[s.connections.length]? =
        some ⟨loop, .tcpServer, .running, false⟩ := by simp
    exact hadd.queueInLoop hconn rfl
      ((hadd.placed _ _ hconn).queue nofun rfl nofun nofun nofun)

/-! ### A connection is closed -/

/-- The functors of a connection that is not on its way yet lead nowhere. -/
lemma isLast_of_not_closed (h : s.Placed k conn) (hstage : conn.stage ≠ .closed)
    (hdestroyed : ∀ p ∈ s.functors k, p.2 ≠ .connectDestroyed k) :
    ∀ p ∈ s.functors k, p.2.isLast = false := fun p hp =>
  isLast_of_mem hp ((h.tidy.of_not_closed hstage).1 p hp) (hdestroyed p hp)

/-- `closeCallback_` keeps the owner sound when it does not bind its connection. -/
lemma Sound.callCloseCallback (h : s.Sound) (hconn : s.connections[k]? = some conn)
    (hstage : conn.stage = .closing) (hunbound : conn.closeCallback ≠ .tcpClient k)
    (hst : (s.modify k ({ · with stage := .closed })).callCloseCallback k conn.closeCallback =
      some t) : t.Sound := by
  have hplaced := h.placed k conn hconn
  have hnot : conn.stage ≠ .closed := by simp [hstage]
  have hself := connections_modify_self hconn ({ · with stage := .closed })
  have hother (j : ℕ) (hj : j ≠ k) :=
    connections_modify_of_ne (s := s) ({ · with stage := .closed }) hj
  have hlength := length_connections_modify (s := s) k ({ · with stage := .closed })
  have hloop : (s.modify k ({ · with stage := .closed })).loopOf k = conn.loop := by
    simp [loopOf, hself]
  obtain ⟨hremove, hdestroyed⟩ := hplaced.tidy.of_not_closed hnot
  cases hcallback : conn.closeCallback with
  | tcpClient j => exact absurd hcallback (hplaced.made.unbound hunbound j)
  | tcpServer =>
      simp only [hcallback, ConnectionOwner.callCloseCallback] at hst
      split_ifs at hst with halive
      obtain ⟨hfirst, hnone⟩ := hdestroyed.resolve_right
        fun hdead => absurd (hdead.1.symm.trans halive) nofun
      obtain rfl := Option.some.inj hst
      have hlasts := isLast_of_not_closed hplaced hnot hnone
      unfold TcpServer.removeConnection
      split_ifs with hzero
      · unfold TcpServer.removeConnecitonInLoop
        rw [hloop]
        exact h.leave (s.functors k) hconn rfl rfl
          (fun j hj => ⟨List.mem_of_mem_filter hj, by simpa using List.of_mem_filter hj⟩) hlength
          (fun j hj => ⟨hother j hj, functors_queueInLoop_of_ne conn.loop hj⟩) hself hunbound hfirst
          (functors_queueInLoop_self conn.loop rfl) fun p hp => ⟨hp, hlasts p hp⟩
      · refine h.of_one k rfl (fun hdead => hdead) h.dead ?_ ?_ ?_ ?_
        · exact fun j hj => hlength ▸ h.owned j hj
        · simp only [ConnectionOwner.queueInLoop, hlength, List.forall_mem_append,
            List.forall_mem_singleton]
          exact ⟨h.range, (List.getElem?_eq_some_iff.mp hconn).1⟩
        · exact fun j hj => ⟨hother j hj, functors_queueInLoop_of_ne 0 hj, fun hmem => hmem⟩
        · intro conn' hconn'
          obtain rfl := Option.some.inj (hself.symm.trans hconn')
          exact hplaced.remove rfl (fun hdead => hdead) hcallback hfirst
            (functors_queueInLoop_self 0 rfl) hlasts
  | detail =>
      simp only [hcallback, ConnectionOwner.callCloseCallback] at hst
      obtain rfl := Option.some.inj hst
      obtain ⟨hzero, hdead⟩ := hplaced.made.of_detail hcallback
      obtain ⟨hfirst, hnone⟩ := hdestroyed.resolve_right
        fun hserver => by simp [hcallback] at hserver
      refine h.leave (s.functors k) hconn rfl rfl (fun j hj => ?_) hlength
        (fun j hj => ⟨hother j hj, functors_queueInLoop_of_ne 0 hj⟩) hself hunbound hfirst ?_
        fun p hp => ⟨hp, isLast_of_not_closed hplaced hnot hnone p hp⟩
      · have hmem : j ∈ s.member := hj
        rw [h.dead hdead] at hmem
        exact absurd hmem List.not_mem_nil
      · rw [hzero]
        exact functors_queueInLoop_self 0 rfl

/-! ### A functor runs -/

/-- What is in the queue behind `next` was there. -/
lemma mem_of_next {queue rest : List (ℕ × HeldFunctor)}
    (h : next loop queue = some (functor, rest)) :
    (loop, functor) ∈ queue ∧ ∀ p ∈ rest, p ∈ queue := by
  obtain ⟨before, behind, rfl, rfl, -⟩ := next_eq_some h
  refine ⟨by simp, fun p hp => ?_⟩
  rcases List.mem_append.mp hp with hp | hp
  · exact List.mem_append_left _ hp
  · exact List.mem_append_right _ (List.mem_cons_of_mem _ hp)

/-- An element of a list that ends in another one is the last, or comes before it. -/
lemma append_cons_eq_concat {α : Type*} {before behind front : List α} {x y : α}
    (h : before ++ x :: behind = front ++ [y]) :
    (x = y ∧ before = front ∧ behind = []) ∨
      ∃ between, behind = between ++ [y] ∧ front = before ++ x :: between := by
  rcases List.eq_nil_or_concat behind with rfl | ⟨between, z, rfl⟩
  · obtain ⟨rfl, hxy⟩ := List.append_inj' h rfl
    exact .inl ⟨List.singleton_inj.mp hxy, rfl, rfl⟩
  · have hassoc : (before ++ x :: between) ++ [z] = front ++ [y] := by simpa using h
    obtain ⟨rfl, hzy⟩ := List.append_inj' hassoc rfl
    exact .inr ⟨between, by rw [List.singleton_inj.mp hzy, List.concat_eq_append], rfl⟩

/-- A functor of the connection is taken that leads nowhere. -/
lemma Placed.pop (h : s.Placed k conn) {rest before behind : List (ℕ × HeldFunctor)}
    (hqueue : s.functors k = before ++ (loop, functor) :: behind)
    (hrest : functors { s with queue := rest } k = before ++ behind)
    (hlast : functor.isLast = false) : Placed { s with queue := rest } k conn := by
  have hsub : ∀ p ∈ functors { s with queue := rest } k, p ∈ s.functors k := fun p hp =>
    mem_functors_of_taken hqueue (hrest ▸ hp)
  refine ⟨h.made.congr rfl fun hdead => hdead, fun p hp => h.loops p (hsub p hp),
    fun p hp => h.replaces p (hsub p hp), ?_⟩
  cases h.tidy with
  | running hstage hremove hdestroyed =>
      exact .running hstage (fun p hp => hremove p (hsub p hp))
        (hdestroyed.imp_left (And.imp_right fun hnone p hp => hnone p (hsub p hp)))
  | removing hstage hunbound hdestroyed hlasts =>
      refine .removing hstage hunbound hdestroyed ?_
      simpa [hqueue, hrest, hlast] using hlasts
  | leaving hstage hunbound hdestroyed hmember front heq hfront =>
      rcases append_cons_eq_concat (hqueue.symm.trans heq) with ⟨hfun, -⟩ | ⟨between, rfl, rfl⟩
      · simp [(Prod.mk.inj hfun).2, HeldFunctor.isLast] at hlast
      · refine .leaving hstage hunbound hdestroyed hmember (before ++ between) ?_ fun p hp => ?_
        · rw [hrest, List.append_assoc]
        · apply hfront p
          rw [List.mem_append, List.mem_cons]
          exact (List.mem_append.mp hp).imp_right .inr
  | gone hstage hunbound hmember heq => simp [hqueue] at heq

/-- A functor runs that leads nowhere. -/
lemma Sound.pop (h : s.Sound) {rest : List (ℕ × HeldFunctor)}
    (hnext : next loop s.queue = some (functor, rest)) (hlast : functor.isLast = false) :
    Sound { s with queue := rest } := by
  refine ⟨h.dead, h.owned, fun p hp => h.range p ((mem_of_next hnext).2 p hp), ?_⟩
  intro k conn hconn
  have hplaced := h.placed k conn hconn
  by_cases hk : functor.conn = k
  · obtain ⟨before, behind, hqueue, hrest, -⟩ := functors_of_next hnext hk
    exact hplaced.pop hqueue hrest hlast
  · exact hplaced.congr rfl (functors_of_next_of_ne hnext hk) (fun hdead => hdead) fun hmem => hmem

/-- `setCloseCallback`, from `~TcpClient`, leaves a connection in its place. -/
lemma Placed.setCloseCallback (h : s.Placed k conn) (hkind : s.kind = .client)
    (hdead : s.alive = false) : (s.modify k ({ · with closeCallback := .detail })).Placed k
      { conn with closeCallback := .detail } := by
  have hmade := h.made
  simp only [Made, hkind] at hmade
  have hclient : conn.closeCallback ≠ .tcpServer := by
    rcases hmade.2 with hown | ⟨hdetail, -⟩ <;> simp [*]
  refine ⟨?_, h.loops, h.replaces, ?_⟩
  · have hkind' : (s.modify k ({ · with closeCallback := .detail })).kind = .client := hkind
    simp only [Made, hkind']
    exact ⟨hmade.1, .inr ⟨trivial, hdead⟩⟩
  · cases h.tidy with
    | running hstage hremove hdestroyed =>
        exact .running hstage hremove
          (.inl (hdestroyed.resolve_right fun hserver => hclient hserver.2))
    | removing _ hserver => exact absurd hserver hclient
    | leaving hstage _ hdestroyed hmember before hqueue hbefore =>
        exact .leaving hstage nofun hdestroyed hmember before hqueue hbefore
    | gone hstage _ hmember hqueue => exact .gone hstage nofun hmember hqueue

/-- `connectDestroyed` runs: the last functor of its connection, or that of a server that was
destroyed. -/
lemma Sound.connectDestroyed (h : s.Sound) {rest : List (ℕ × HeldFunctor)}
    (hnext : next loop s.queue = some (.connectDestroyed k, rest)) :
    (ConnectionOwner.connectDestroyed { s with queue := rest } k).Sound := by
  obtain ⟨hmem, hsub⟩ := mem_of_next hnext
  obtain ⟨conn, hconn, hplaced⟩ := h.exists_of_queue (k := k) hmem rfl
  have hlength := length_connections_modify (s := s) k ({ · with destroyed := true })
  obtain ⟨before, behind, hqueue, hrest, hbefore⟩ := functors_of_next (k := k) hnext rfl
  have hown : (loop, HeldFunctor.connectDestroyed k) ∈ s.functors k := by simp [hqueue]
  have hsub' : ∀ p ∈ before ++ behind, p ∈ s.functors k := fun _ => mem_functors_of_taken hqueue
  refine h.of_one k rfl (fun hdead => hdead) h.dead ?_ ?_ ?_ ?_
  · exact fun j hj => hlength.symm ▸ h.owned j hj
  · exact fun p hp => hlength.symm ▸ h.range p (hsub p hp)
  · exact fun j hj => ⟨connections_modify_of_ne _ hj, functors_of_next_of_ne hnext (Ne.symm hj),
      fun hmem => hmem⟩
  · intro conn' hconn'
    obtain rfl := Option.some.inj ((connections_modify_self hconn _).symm.trans hconn')
    have hrest' : (ConnectionOwner.connectDestroyed { s with queue := rest } k).functors k =
        before ++ behind := hrest
    refine ⟨hplaced.made.congr rfl fun hdead => hdead, ?_, ?_, ?_⟩
    · exact fun p hp => hplaced.loops p (hsub' p (hrest' ▸ hp))
    · exact fun p hp => hplaced.replaces p (hsub' p (hrest' ▸ hp))
    · cases hplaced.tidy with
      | running hstage hremove hdestroyed =>
          refine .running hstage (fun p hp => hremove p (hsub' p (hrest' ▸ hp))) (.inr ?_)
          exact hdestroyed.resolve_left fun hnone => hnone.2 _ hown rfl
      | removing _ _ _ hlasts =>
          have hlast : (loop, HeldFunctor.connectDestroyed k) ∈
              (s.functors k).filter (·.2.isLast) := List.mem_filter.mpr ⟨hown, rfl⟩
          simp [hlasts] at hlast
      | leaving hstage hunbound _ hmember front heq hfront =>
          rcases append_cons_eq_concat (hqueue.symm.trans heq) with
            ⟨hfun, rfl, rfl⟩ | ⟨between, rfl, rfl⟩
          · -- what waits before it is of the same loop
            have hloop : loop = conn.loop := (Prod.mk.inj hfun).1
            have hnil : before = [] := by
              refine List.eq_nil_iff_forall_not_mem.mpr fun p hp => ?_
              rcases hplaced.loops p (hsub' p (List.mem_append_left _ hp)) with hsame | hremove
              · exact hbefore p hp (hsame.trans hloop.symm)
              · have hnot := hfront p hp
                simp [hremove, HeldFunctor.isLast] at hnot
            exact .gone hstage hunbound hmember (by rw [hrest', hnil, List.append_nil])
          · have hnot := hfront (loop, .connectDestroyed k) (by simp)
            simp [HeldFunctor.isLast] at hnot
      | gone _ _ _ heq => simp [hqueue] at heq

/-- `removeConnecitonInLoop` runs, and `connectDestroyed` takes its place. -/
lemma Sound.removeConnecitonInLoop (h : s.Sound) {rest : List (ℕ × HeldFunctor)}
    (hnext : next loop s.queue = some (.removeConnecitonInLoop k, rest)) :
    (TcpServer.removeConnecitonInLoop { s with queue := rest } k).Sound := by
  obtain ⟨hmem, hsub⟩ := mem_of_next hnext
  obtain ⟨conn, hconn, hplaced⟩ := h.exists_of_queue (k := k) hmem rfl
  have hloop : loopOf { s with queue := rest } k = conn.loop := by simp [loopOf, hconn]
  obtain ⟨before, behind, hqueue, hrest, -⟩ := functors_of_next (k := k) hnext rfl
  have hown : (loop, HeldFunctor.removeConnecitonInLoop k) ∈ s.functors k := by simp [hqueue]
  have hsub' : ∀ p ∈ before ++ behind, p ∈ s.functors k := fun _ => mem_functors_of_taken hqueue
  unfold TcpServer.removeConnecitonInLoop
  rw [hloop]
  cases hplaced.tidy with
  | running _ hremove => exact absurd rfl (hremove _ hown)
  | removing hstage hserver hdestroyed hlasts =>
      obtain ⟨hbefore, hbehind⟩ :
          before.filter (·.2.isLast) = [] ∧ behind.filter (·.2.isLast) = [] := by
        rw [hqueue, List.filter_append, List.filter_cons_of_pos rfl] at hlasts
        rcases List.append_eq_singleton_iff.mp hlasts with ⟨hbefore, hone⟩ | ⟨-, hnone⟩
        · exact ⟨hbefore, (List.cons.inj hone).2⟩
        · exact absurd hnone (List.cons_ne_nil _ _)
      refine h.leave (before ++ behind) hconn rfl rfl
        (fun j hj => ⟨List.mem_of_mem_filter hj, by simpa using List.of_mem_filter hj⟩) rfl
        (fun j hj => ⟨rfl, ?_⟩) ?_ (by simp [hserver]) hdestroyed ?_ ?_
      · rw [functors_queueInLoop_of_ne conn.loop hj]
        exact functors_of_next_of_ne hnext (Ne.symm hj)
      · rw [← hstage]
        exact hconn
      · exact (functors_queueInLoop_self conn.loop rfl).trans (congrArg (· ++ _) hrest)
      · intro p hp
        refine ⟨hsub' p hp, ?_⟩
        rcases List.mem_append.mp hp with hp | hp
        · simpa using List.filter_eq_nil_iff.mp hbefore p hp
        · simpa using List.filter_eq_nil_iff.mp hbehind p hp
  | leaving _ _ _ _ front heq hfront =>
      rw [heq, List.mem_append, List.mem_singleton] at hown
      rcases hown with hmem | heq
      · exact absurd (hfront _ hmem) (by simp [HeldFunctor.isLast])
      · exact absurd (Prod.mk.inj heq).2 nofun
  | gone _ _ _ heq => simp [hqueue] at heq

/-- A functor of a loop keeps the owner sound. -/
lemma Sound.runFunctor (h : s.Sound) {rest : List (ℕ × HeldFunctor)}
    (hnext : next loop s.queue = some (functor, rest))
    (hst : ConnectionOwner.runFunctor { s with queue := rest } functor = some t) : t.Sound := by
  cases functor with
  | connectEstablished | callback =>
      obtain rfl := Option.some.inj hst
      exact h.pop hnext rfl
  | removeConnecitonInLoop k =>
      simp only [ConnectionOwner.runFunctor] at hst
      split_ifs at hst
      obtain rfl := Option.some.inj hst
      exact h.removeConnecitonInLoop hnext
  | connectDestroyed k =>
      obtain rfl := Option.some.inj hst
      exact h.connectDestroyed hnext
  | setCloseCallback k =>
      obtain rfl := Option.some.inj hst
      have hmem := (mem_of_next hnext).1
      obtain ⟨conn, hconn, hplaced⟩ := h.exists_of_queue (k := k) hmem rfl
      obtain ⟨hkind, hdead⟩ := hplaced.replaces _ (mem_functors.mpr ⟨hmem, rfl⟩) rfl
      have hpop := h.pop hnext rfl
      exact hpop.modify hconn ((hpop.placed k conn hconn).setCloseCallback hkind hdead)

/-! ### The owner is destroyed -/

/-- An owner that is gone, and whose member holds nothing, is still sound. -/
lemma Sound.die (h : s.Sound) : Sound { s with alive := false, member := [] } where
  dead := fun _ => rfl
  owned := fun _ hk => absurd hk List.not_mem_nil
  range := h.range
  placed := fun k conn hconn =>
    (h.placed k conn hconn).congr rfl rfl (fun _ => rfl) fun hk => absurd hk List.not_mem_nil

/-- A connection that its owner holds was not closed, or waits for `removeConnecitonInLoop`. -/
lemma Tidy.of_mem_member (h : s.Tidy k conn) (hmember : k ∈ s.member) :
    conn.stage ≠ .closed ∨ conn.closeCallback = .tcpServer ∧
      (0, .removeConnecitonInLoop k) ∈ s.queue := by
  cases h with
  | running hstage => exact .inl hstage
  | removing _ hserver _ hlasts =>
      refine .inr ⟨hserver, ?_⟩
      have hmem : (0, .removeConnecitonInLoop k) ∈ (s.functors k).filter (·.2.isLast) :=
        hlasts ▸ List.mem_singleton_self _
      exact (mem_functors.mp (List.mem_of_mem_filter hmem)).1
  | leaving _ _ _ hnot | gone _ _ hnot => exact absurd hmember hnot

/-- `~TcpClient` keeps the owner sound. -/
lemma Sound.tcpClient_destroy (h : s.Sound) (hkind : s.kind = .client) (thread : Option ℕ) :
    (TcpClient.destroy s thread).Sound := by
  unfold TcpClient.destroy
  cases hmember : s.member with
  | nil => exact h.die
  | cons k ks =>
      have hk : k ∈ s.member := hmember ▸ List.mem_cons_self
      obtain ⟨conn, hconn, hplaced⟩ := h.exists_of_member hk
      have hmade := hplaced.made
      simp only [Made, hkind] at hmade
      have hstage : conn.stage ≠ .closed :=
        (hplaced.tidy.of_mem_member hk).resolve_right fun hserver => by simp [hserver.1] at hmade
      have hlast := h.die.placed k conn hconn
      dsimp only
      split_ifs
      · exact h.die.modify hconn (hlast.setCloseCallback hkind rfl)
      · apply h.die.queueInLoop hconn rfl
        rw [← hmade.1]
        exact hlast.queue hstage rfl nofun (fun _ => ⟨hkind, rfl⟩) nofun

/-- What `~TcpServer` finds: connections that were not closed. -/
def Open (s : ConnectionOwner) (ks : List ℕ) : Prop :=
  ∀ k ∈ ks, ∃ conn, s.connections[k]? = some conn ∧ conn.stage ≠ .closed ∧
    conn.closeCallback = .tcpServer

/-- `connectDestroyed`, called for a server that was destroyed, keeps the owner sound. -/
lemma Sound.connectDestroyed_of_dead (h : s.Sound) (hdead : s.alive = false)
    (hconn : s.connections[k]? = some conn) (hstage : conn.stage ≠ .closed)
    (hserver : conn.closeCallback = .tcpServer) : (s.connectDestroyed k).Sound := by
  have hplaced := h.placed k conn hconn
  exact h.modify hconn ⟨hplaced.made, hplaced.loops, hplaced.replaces,
    .running hstage (hplaced.tidy.of_not_closed hstage).1 (.inr ⟨hdead, hserver⟩)⟩

/-- `connectDestroyed` of one connection leaves those not reached yet open. -/
lemma Open.connectDestroyed {ks : List ℕ} (h : s.Open ks) (k : ℕ) :
    (s.connectDestroyed k).Open ks := by
  intro j hj
  obtain ⟨conn, hconn, hstage, hserver⟩ := h j hj
  by_cases hj : j = k
  · subst hj
    exact ⟨_, connections_modify_self hconn _, hstage, hserver⟩
  · exact ⟨conn, (connections_modify_of_ne _ hj).trans hconn, hstage, hserver⟩

/-- The loop of `~TcpServer` keeps the owner sound. -/
lemma Sound.destroyAll (thread : Option ℕ) {ks : List ℕ} (h : s.Sound) (hdead : s.alive = false)
    (hopen : s.Open ks) : (TcpServer.destroyAll thread s ks).Sound := by
  induction ks generalizing s with
  | nil => exact h
  | cons k ks ih =>
      obtain ⟨⟨conn, hconn, hstage, hserver⟩, hrest⟩ := List.forall_mem_cons.mp hopen
      have hloop : s.loopOf k = conn.loop := by simp [loopOf, hconn]
      unfold TcpServer.destroyAll
      split_ifs
      · exact ih (h.connectDestroyed_of_dead hdead hconn hstage hserver) hdead
          (Open.connectDestroyed hrest k)
      · refine ih (h.queueInLoop hconn rfl ?_) hdead hrest
        rw [hloop]
        exact (h.placed k conn hconn).queue hstage rfl nofun nofun fun _ => ⟨hdead, hserver⟩

/-- `~TcpServer` keeps the owner sound when no connection is on its way to
`removeConnecitonInLoop`. -/
lemma Sound.tcpServer_destroy (h : s.Sound) (hkind : s.kind = .server) (thread : Option ℕ)
    (hg : s.Unbound (.destroy thread)) : (TcpServer.destroy s thread).Sound := by
  refine h.die.destroyAll thread rfl fun k hk => ?_
  obtain ⟨conn, hconn, hplaced⟩ := h.exists_of_member hk
  have hserver := hplaced.made
  simp only [Made, hkind] at hserver
  exact ⟨conn, hconn, (hplaced.tidy.of_mem_member hk).resolve_right
    fun hremove => hg _ hremove.2 rfl, hserver⟩

/-! ### All events -/

/-- A step that meets the condition keeps all connections on their way. -/
lemma Sound.step (h : s.Sound) (hst : s.Step event t) (hg : s.Unbound event) : t.Sound := by
  unfold Step at hst
  cases event with
  | newConnection loop =>
      obtain ⟨halive, hst⟩ := Option.ite_none_right_eq_some.mp hst
      cases hkind : s.kind with
      | client =>
          simp only [hkind] at hst
          obtain ⟨-, hst⟩ := Option.ite_none_right_eq_some.mp hst
          obtain rfl := Option.some.inj hst
          exact h.tcpClient_newConnection halive hkind
      | server =>
          simp only [hkind] at hst
          obtain rfl := Option.some.inj hst
          exact h.tcpServer_newConnection halive hkind loop
  | queueCallback k =>
      obtain ⟨conn, hconn, hst⟩ := Option.bind_eq_some_iff.mp hst
      obtain ⟨hrunning, hst⟩ := Option.ite_none_right_eq_some.mp hst
      obtain rfl := Option.some.inj hst
      have hstage : conn.stage ≠ .closed := by simp [hrunning]
      exact h.queueInLoop hconn rfl
        ((h.placed k conn hconn).queue hstage rfl nofun nofun nofun)
  | handleClose k =>
      obtain ⟨conn, hconn, hst⟩ := Option.bind_eq_some_iff.mp hst
      obtain ⟨hrunning, hst⟩ := Option.ite_none_right_eq_some.mp hst
      obtain rfl := Option.some.inj hst
      have hplaced := h.placed k conn hconn
      obtain ⟨hremove, hdestroyed⟩ := hplaced.tidy.of_not_closed (by simp [hrunning])
      exact h.modify hconn ⟨hplaced.made, hplaced.loops, hplaced.replaces,
        .running nofun hremove hdestroyed⟩
  | closeCallback k =>
      obtain ⟨conn, hconn, hst⟩ := Option.bind_eq_some_iff.mp hst
      split_ifs at hst with hstage
      exact h.callCloseCallback hconn hstage (hg conn hconn) hst
  | runFunctor loop =>
      obtain ⟨⟨functor, rest⟩, hnext, hst⟩ := Option.bind_eq_some_iff.mp hst
      exact h.runFunctor hnext hst
  | destroy thread =>
      obtain ⟨-, hst⟩ := Option.ite_none_right_eq_some.mp hst
      cases hkind : s.kind with
      | client =>
          simp only [hkind] at hst
          obtain rfl := Option.some.inj hst
          exact h.tcpClient_destroy hkind thread
      | server =>
          simp only [hkind] at hst
          obtain rfl := Option.some.inj hst
          exact h.tcpServer_destroy hkind thread hg

/-- A new owner is sound, as it has no connection. -/
lemma sound_new (kind : OwnerKind) : Sound { kind := kind } :=
  ⟨fun _ => rfl, nofun, nofun, nofun⟩

/-- The connection is bound in its own callback, and nothing will replace that. -/
structure Held (s : ConnectionOwner) (k : ℕ) : Prop where
  bound : ∃ conn, s.connections[k]? = some conn ∧ conn.closeCallback = .tcpClient k
  left : k ∉ s.member
  final : ∀ p ∈ s.queue, p.2 ≠ .setCloseCallback k

/-- A connection bound in its own callback has a holder. -/
lemma Held.holders_pos (h : s.Held k) : 0 < s.holders k := by
  obtain ⟨conn, hconn, hbound⟩ := h.bound
  have hpos : 0 < s.connections.countP (fun conn => conn.closeCallback = .tcpClient k) :=
    List.countP_pos_iff.mpr ⟨conn, List.mem_of_getElem? hconn, by simp [hbound]⟩
  unfold holders
  omega

/-- Queueing a functor leaves a connection bound in its callback, unless the functor replaces that
callback. -/
lemma Held.queueInLoop (h : s.Held k) (l : ℕ) (hnot : functor ≠ .setCloseCallback k) :
    (s.queueInLoop l functor).Held k where
  bound := h.bound
  left := h.left
  final := by
    simp only [ConnectionOwner.queueInLoop, List.forall_mem_append, List.forall_mem_singleton]
    exact ⟨h.final, hnot⟩

/-- Changing a connection leaves one bound in its callback that keeps the callback. -/
lemma Held.modify (h : s.Held k) (j : ℕ) {f : HeldConnection → HeldConnection}
    (hf : j = k → ∀ conn, (f conn).closeCallback = conn.closeCallback) : (s.modify j f).Held k where
  bound := by
    obtain ⟨conn, hconn, hbound⟩ := h.bound
    by_cases hj : k = j
    · subst hj
      exact ⟨f conn, connections_modify_self hconn f, (hf rfl conn).trans hbound⟩
    · exact ⟨conn, (connections_modify_of_ne f hj).trans hconn, hbound⟩
  left := h.left
  final := h.final

/-- The owner holds no more than it held. -/
lemma Held.member (h : s.Held k) {member : List ℕ} (alive : Bool)
    (hmember : ∀ j ∈ member, j ∈ s.member) :
    Held { s with alive := alive, member := member } k where
  bound := h.bound
  left := fun hk => h.left (hmember k hk)
  final := h.final

/-- The loop of `~TcpServer` leaves a connection bound in its callback. -/
lemma Held.destroyAll (thread : Option ℕ) {ks : List ℕ} (h : s.Held k) :
    (TcpServer.destroyAll thread s ks).Held k := by
  induction ks generalizing s with
  | nil => exact h
  | cons j ks ih =>
      unfold TcpServer.destroyAll
      split_ifs
      · exact ih (h.modify j fun _ _ => rfl)
      · exact ih (h.queueInLoop _ nofun)

/-- No step takes the connection from itself. -/
lemma Held.step (h : s.Held k) (hst : s.Step event t) : t.Held k := by
  unfold Step at hst
  obtain ⟨conn, hconn, hbound⟩ := h.bound
  have hk : k ≠ s.connections.length := (List.getElem?_eq_some_iff.mp hconn).1.ne
  have hadd : ∀ other, (s.connections ++ [other])[k]? = some conn := fun other => by
    rw [List.getElem?_append_left (List.getElem?_eq_some_iff.mp hconn).1, hconn]
  have hdead : Held { s with alive := false, member := [] } k := h.member false (by simp)
  cases event with
  | newConnection loop =>
      obtain ⟨-, hst⟩ := Option.ite_none_right_eq_some.mp hst
      split at hst
      · obtain ⟨-, hst⟩ := Option.ite_none_right_eq_some.mp hst
        obtain rfl := Option.some.inj hst
        exact ⟨⟨conn, hadd _, hbound⟩, by simp [TcpClient.newConnection, hk], h.final⟩
      · obtain rfl := Option.some.inj hst
        have hserver : Held { s with
            member := s.member ++ [s.connections.length]
            connections := s.connections ++ [⟨loop, .tcpServer, .running, false⟩] } k :=
          ⟨⟨conn, hadd _, hbound⟩, by simp [h.left, hk], h.final⟩
        unfold TcpServer.newConnection
        dsimp only
        split_ifs
        · exact hserver
        · exact hserver.queueInLoop _ nofun
  | queueCallback j =>
      obtain ⟨_, -, hst⟩ := Option.bind_eq_some_iff.mp hst
      obtain ⟨-, hst⟩ := Option.ite_none_right_eq_some.mp hst
      obtain rfl := Option.some.inj hst
      exact h.queueInLoop _ nofun
  | handleClose j =>
      obtain ⟨_, -, hst⟩ := Option.bind_eq_some_iff.mp hst
      obtain ⟨-, hst⟩ := Option.ite_none_right_eq_some.mp hst
      obtain rfl := Option.some.inj hst
      exact h.modify j fun _ _ => rfl
  | closeCallback j =>
      obtain ⟨other, -, hst⟩ := Option.bind_eq_some_iff.mp hst
      obtain ⟨-, hst⟩ := Option.ite_none_right_eq_some.mp hst
      have hclosed : (s.modify j ({ · with stage := .closed })).Held k := h.modify j fun _ _ => rfl
      cases hcallback : other.closeCallback with
      | tcpClient i =>
          rw [hcallback] at hst
          obtain ⟨-, hst⟩ := Option.ite_none_right_eq_some.mp hst
          obtain rfl := Option.some.inj hst
          exact (hclosed.member _ (by simp)).queueInLoop 0 nofun
      | tcpServer =>
          rw [hcallback] at hst
          obtain ⟨-, hst⟩ := Option.ite_none_right_eq_some.mp hst
          obtain rfl := Option.some.inj hst
          unfold TcpServer.removeConnection
          split_ifs
          · exact (hclosed.member _ fun i hi => List.mem_of_mem_filter hi).queueInLoop _ nofun
          · exact hclosed.queueInLoop 0 nofun
      | detail =>
          rw [hcallback] at hst
          obtain rfl := Option.some.inj hst
          exact hclosed.queueInLoop 0 nofun
  | runFunctor loop =>
      obtain ⟨⟨functor, rest⟩, hnext, hst⟩ := Option.bind_eq_some_iff.mp hst
      obtain ⟨hmem, hsub⟩ := mem_of_next hnext
      have hpop : Held { s with queue := rest } k :=
        ⟨h.bound, h.left, fun p hp => h.final p (hsub p hp)⟩
      cases functor with
      | connectEstablished | callback =>
          obtain rfl := Option.some.inj hst
          exact hpop
      | removeConnecitonInLoop j =>
          obtain ⟨-, hst⟩ := Option.ite_none_right_eq_some.mp hst
          obtain rfl := Option.some.inj hst
          exact (hpop.member _ fun i hi => List.mem_of_mem_filter hi).queueInLoop _ nofun
      | connectDestroyed j =>
          obtain rfl := Option.some.inj hst
          exact hpop.modify j fun _ _ => rfl
      | setCloseCallback j =>
          obtain rfl := Option.some.inj hst
          exact hpop.modify j fun hj => absurd (congrArg _ hj) (h.final _ hmem)
  | destroy thread =>
      obtain ⟨-, hst⟩ := Option.ite_none_right_eq_some.mp hst
      split at hst
      · obtain rfl := Option.some.inj hst
        unfold TcpClient.destroy
        cases hmember : s.member with
        | nil => exact hdead
        | cons j js =>
            have hj : j ≠ k := fun hj => h.left (hj ▸ hmember ▸ List.mem_cons_self)
            dsimp only
            split_ifs
            · exact hdead.modify j fun hjk => absurd hjk hj
            · exact hdead.queueInLoop 0 (by simp [hj])
      · obtain rfl := Option.some.inj hst
        exact hdead.destroyAll thread

/-- What closes a connection by a callback that binds it leaves it so. -/
lemma Sound.held (h : s.Sound) (hst : s.Step (.closeCallback k) t)
    (hnot : ¬ s.Unbound (.closeCallback k)) : t.Held k := by
  obtain ⟨conn, hconn, hbound⟩ : ∃ conn, s.connections[k]? = some conn ∧
      conn.closeCallback = .tcpClient k := by simpa [Unbound] using hnot
  obtain ⟨other, hother, hst⟩ := Option.bind_eq_some_iff.mp hst
  obtain rfl := Option.some.inj (hother.symm.trans hconn)
  obtain ⟨-, hst⟩ := Option.ite_none_right_eq_some.mp hst
  rw [hbound] at hst
  obtain ⟨halive, hst⟩ := Option.ite_none_right_eq_some.mp hst
  obtain rfl := Option.some.inj hst
  refine ⟨⟨_, connections_modify_self hconn _, hbound⟩, List.not_mem_nil, ?_⟩
  · -- only `~TcpClient` queues it, and the client is alive
    have hfinal : ∀ p ∈ s.queue, p.2 ≠ .setCloseCallback k := by
      intro p hp hset
      have hdead := ((h.placed k other hconn).replaces p
        (mem_functors.mpr ⟨hp, by rw [hset]; rfl⟩) hset).2
      exact absurd (hdead.symm.trans halive) nofun
    simp only [TcpClient.removeConnection, ConnectionOwner.queueInLoop, List.forall_mem_append,
      List.forall_mem_singleton]
    exact ⟨hfinal, nofun⟩

/-- **When they are not.** A connection that is closed by a callback that binds it has a holder from
then on, whatever happens. -/
theorem held_for_ever (kind : OwnerKind) {p q : List (OwnerEvent × ConnectionOwner)}
    (hp : Path Step { kind := kind } p) (hg : MeetsAll Unbound { kind := kind } p)
    (hst : (Paths.last { kind := kind } p).Step (.closeCallback k) t)
    (hnot : ¬ (Paths.last { kind := kind } p).Unbound (.closeCallback k)) (hq : Path Step t q) :
    Throughout (fun u => 0 < u.holders k) t q := by
  have hsound := (hp.throughout_of_meetsAll (fun _ _ _ h hst hg => h.step hst hg) hg
    (sound_new kind)).last
  have hkeep : ∀ u event u', Held u k → u.Step event u' → Held u' k := fun _ _ _ => Held.step
  exact (hq.throughout hkeep (hsound.held hst hnot)).mono fun _ h => h.holders_pos

end ConnectionOwner

end SwiftNetCore
