import SwiftNetCore.ConnectorSockets
import SwiftNetCore.Http.Client

/-!
# A client that is connecting

`get` and `post` start the connector when the client is neither connected nor connecting, and only
queue their request otherwise. They set `isConnecting_`, and the down branch of `onConnection`
clears it. What becomes of the connector's attempt in between is told to nobody but `newConnection`.

* `Connector.Outstanding`: the connector has an attempt at hand, or one to come. `Keeps` says which
  steps leave it one, and `Connector.Step.outstanding_iff` that they are all.
* `ConnectingClient`: an `HttpClient` and the `Connector` of its `TcpClient` with their threads.
* `Awaited`: a client that is connecting and not connected waits for an attempt, or the loop's
  thread is about to announce the connection.
* `awaited_iff_kept`: over every run, that is so exactly when no step takes the last attempt from a
  client that waits for it.
-/

namespace SwiftNetCore

open Paths (Path Throughout MeetsAll)

/-! ## Attempts of the connector -/

namespace Connector

variable {c c' : Connector} {event : Event} {attempt : Attempt} {s : ℕ}

/-- A start or a retry is pending, and will make an attempt. -/
def Pending (c : Connector) : Prop :=
  c.connect_ = true ∧ (.startInLoop ∈ c.pendingFunctors ∨ .start ∈ c.calls ∨
    c.point = .starting ∨ c.timers ≠ [])

instance (c : Connector) : Decidable c.Pending := inferInstanceAs (Decidable (_ ∧ _))

/-- An attempt is under way, or pending. -/
def Outstanding (c : Connector) : Prop := c.state = .kConnecting ∨ c.Pending

instance (c : Connector) : Decidable c.Outstanding := inferInstanceAs (Decidable (_ ∨ _))

/-- What is left of the connector when an event calls `startInLoop`. -/
def behind (c : Connector) : Event → Connector
  | .goOn _ => { c with point := .idle }
  | .functor _ => { c with pendingFunctors := c.pendingFunctors.tail }
  | .timer i _ => { c with timers := c.timers.eraseIdx i }
  | _ => c

/-- A call of `startInLoop` leaves an attempt: it makes one that the system does not refuse for
good, or there is another. -/
def Starts (c : Connector) (event : Event) (attempt : Attempt) : Prop :=
  c.connect_ = true → attempt.TakesOver ∨ (c.behind event).Outstanding

instance (c : Connector) : Decidable (c.Starts event attempt) :=
  inferInstanceAs (Decidable (_ → _))

/-- The step leaves a connector with an attempt another one, or the same: `stop` comes while an
attempt is under way, which ends while `connect_` is set. -/
def Keeps (c : Connector) : Event → Prop
  | .call .stop | .callInLoop .stop => c.state = .kConnecting
  | .goOn attempt => c.point = .starting → c.Starts (.goOn attempt) attempt
  | .timer i attempt => c.Starts (.timer i attempt) attempt
  | .functor attempt =>
    (c.pendingFunctors.head? = some .startInLoop → c.Starts (.functor attempt) attempt) ∧
      (c.pendingFunctors.head? = some .stopInLoop → c.state = .kConnecting → c.connect_ = true)
  | .write _ _ | .error => c.state = .kConnecting → c.connect_ = true
  | .call .start | .callInLoop .start | .enqueue _ | .restart => True

instance (c : Connector) : DecidablePred c.Keeps
  | .call .stop | .callInLoop .stop => inferInstanceAs (Decidable (_ = _))
  | .goOn _ => inferInstanceAs (Decidable (_ → _))
  | .timer _ _ => inferInstanceAs (Decidable (Starts _ _ _))
  | .functor _ => inferInstanceAs (Decidable (_ ∧ _))
  | .write _ _ | .error => inferInstanceAs (Decidable (_ → _))
  | .call .start | .callInLoop .start | .enqueue _ | .restart => inferInstanceAs (Decidable True)

/-- Without `connect_`, an attempt is outstanding only while it is under way. -/
lemma outstanding_iff_of_not_connect (h : ¬ c.connect_ = true) :
    c.Outstanding ↔ c.state = .kConnecting := by
  simp [Outstanding, Pending, h]

/-- `retry` leaves a timer if `connect_` is set. -/
lemma retry_outstanding (h : c.retry s = some c') : c'.Outstanding ↔ c.connect_ = true := by
  by_cases hconnect : c.connect_ = true
  · rw [retry_eq hconnect] at h
    split_ifs at h
    obtain rfl := Option.some.inj h
    exact iff_of_true (.inr ⟨hconnect, by simp⟩) hconnect
  · rw [retry_of_not_connect hconnect] at h
    obtain rfl := Option.some.inj h
    refine iff_of_false ?_ hconnect
    rintro (hstate | hpending)
    · cases hstate
    · exact hconnect hpending.1

/-- Behind `connect`, an attempt is outstanding that it has taken over, or as before. -/
lemma connect_outstanding (hconnect : c.connect_ = true) (h : c.connect attempt = some c') :
    c'.Outstanding ↔ attempt.TakesOver ∨ c.Outstanding := by
  rcases attempt with _ | savedErrno
  · obtain rfl := Option.some.inj h
    simp [Attempt.TakesOver]
  · unfold connect at h
    rcases hbranch : branch savedErrno <;> simp only [hbranch] at h <;>
      simp only [Attempt.TakesOver, hbranch, ne_eq, reduceCtorEq, not_true_eq_false,
        not_false_eq_true, true_or, false_or, iff_true]
    · obtain rfl := Option.some.inj h
      exact .inl rfl
    · exact (retry_outstanding h).mpr hconnect
    · obtain rfl := Option.some.inj h
      exact Iff.rfl

/-- Behind `startInLoop`, an attempt is outstanding that it has begun, or as before. -/
lemma startInLoop_outstanding (h : c.startInLoop attempt = some c') :
    c'.Outstanding ↔ c.connect_ = true ∧ attempt.TakesOver ∨ c.Outstanding := by
  unfold startInLoop at h
  by_cases hconnect : c.connect_ = true
  · rw [if_pos hconnect] at h
    rw [connect_outstanding hconnect h]
    simp [hconnect]
  · rw [if_neg hconnect] at h
    obtain rfl := Option.some.inj h
    simp [hconnect]

/-- A step that calls `startInLoop`. -/
lemma starts_iff (event : Event) (hc : c.Outstanding)
    (hconnect : (c.behind event).connect_ = c.connect_)
    (hstate : (c.behind event).state = c.state)
    (h : (c.behind event).startInLoop attempt = some c') :
    c'.Outstanding ↔ c.Starts event attempt := by
  rw [startInLoop_outstanding h, hconnect]
  unfold Starts
  by_cases hset : c.connect_ = true
  · simp [hset]
  · have hconnecting := (outstanding_iff_of_not_connect hset).mp hc
    exact iff_of_true (.inr (.inl (hstate.trans hconnecting))) fun h => absurd h hset

/-- `removeAndResetChannel` leaves `connect_` and what was handed over alone. -/
lemma removeAndResetChannel_frame {c₁ : Connector} (h : c.removeAndResetChannel = some (c₁, s)) :
    c₁.connect_ = c.connect_ ∧ c₁.handed = c.handed := by
  obtain ⟨channel, -, heq⟩ := Option.map_eq_some_iff.mp h
  obtain ⟨rfl, -⟩ := Prod.mk.inj heq
  exact ⟨rfl, rfl⟩

/-- An attempt that ends in `retry` leaves another exactly when `connect_` is set. -/
lemma removeAndRetry_outstanding
    (h : (c.removeAndResetChannel.bind fun (c, sockfd) => c.retry sockfd) = some c') :
    c'.Outstanding ↔ c.connect_ = true := by
  obtain ⟨⟨c₁, s⟩, hremove, hretry⟩ := Option.bind_eq_some_iff.mp h
  rw [← (removeAndResetChannel_frame hremove).1]
  exact retry_outstanding hretry

/-- `handleError` leaves an attempt unless it ends one without `connect_`. -/
lemma handleError_outstanding (hc : c.Outstanding) (h : c.handleError = some c') :
    c'.Outstanding ↔ (c.state = .kConnecting → c.connect_ = true) := by
  unfold handleError at h
  split_ifs at h with hstate
  · rw [removeAndRetry_outstanding h]
    simp [hstate]
  · obtain rfl := Option.some.inj h
    exact iff_of_true hc fun h => absurd h hstate

/-- `stopInLoop` leaves an attempt unless it ends one without `connect_`. -/
lemma stopInLoop_outstanding (hc : c.Outstanding) (h : c.stopInLoop = some c') :
    c'.Outstanding ↔ (c.state = .kConnecting → c.connect_ = true) := by
  unfold stopInLoop at h
  split_ifs at h with hstate
  · rw [removeAndRetry_outstanding h]
    simp [hstate]
  · obtain rfl := Option.some.inj h
    exact iff_of_true hc fun h => absurd h hstate

/-- What `handleWrite` makes of an attempt: it goes to `retry`, is handed over, or is closed. -/
lemma handleWrite_cases {err selfConnect : Bool} (h : c.handleWrite err selfConnect = some c') :
    (c.state ≠ .kConnecting ∧ c' = c) ∨
      (c.state = .kConnecting ∧ ∃ (c₁ : Connector) (s : ℕ),
        c₁.connect_ = c.connect_ ∧ c₁.handed = c.handed ∧
          (c₁.retry s = some c' ∨
            (c.connect_ = true ∧
              c' = { c₁ with state := .kConnected, handed := c.handed ++ [s] }) ∨
            (¬ c.connect_ = true ∧ c' = { c₁ with state := .kConnected }.close s))) := by
  unfold handleWrite at h
  by_cases hstate : c.state = .kConnecting
  · rw [if_pos hstate] at h
    obtain ⟨⟨c₁, s⟩, hremove, hrest⟩ := Option.bind_eq_some_iff.mp h
    obtain ⟨hconnect₁, hhanded₁⟩ := removeAndResetChannel_frame hremove
    refine .inr ⟨hstate, c₁, s, hconnect₁, hhanded₁, ?_⟩
    dsimp only at hrest
    rw [← hconnect₁, ← hhanded₁]
    split_ifs at hrest with herr hself hconnect
    · exact .inl hrest
    · exact .inl hrest
    · exact .inr (.inl ⟨hconnect, (Option.some.inj hrest).symm⟩)
    · exact .inr (.inr ⟨hconnect, (Option.some.inj hrest).symm⟩)
  · rw [if_neg hstate] at h
    exact .inl ⟨hstate, (Option.some.inj h).symm⟩

/-- `handleWrite`, where it hands no socket over, leaves an attempt unless it ends one without
`connect_`. -/
lemma handleWrite_outstanding {err selfConnect : Bool} (hc : c.Outstanding)
    (h : c.handleWrite err selfConnect = some c') (hhanded : c'.handed = c.handed) :
    c'.Outstanding ↔ (c.state = .kConnecting → c.connect_ = true) := by
  rcases handleWrite_cases h with
    ⟨hstate, rfl⟩ | ⟨hstate, c₁, s, hconnect₁, -, hretry | ⟨-, rfl⟩ | ⟨hconnect, rfl⟩⟩
  · exact iff_of_true hc fun h => absurd h hstate
  · rw [retry_outstanding hretry, hconnect₁]
    simp [hstate]
  · exact absurd hhanded (by simp)
  · refine iff_of_false ?_ fun h => hconnect (h hstate)
    rintro (hconnecting | hpending)
    · cases hconnecting
    · exact hconnect (hconnect₁.symm.trans hpending.1)

/-- An attempt stays outstanding where the state stays and pending starts do. -/
lemma Outstanding.mono (hc : c.Outstanding) (hstate : c'.state = c.state)
    (hpending : c.Pending → c'.Pending) : c'.Outstanding :=
  hc.imp hstate.trans hpending

/-- **Which steps leave an attempt.** -/
lemma Step.outstanding_iff (hc : c.Outstanding) (h : c.Step event c') (hne : event ≠ .restart)
    (hhanded : c'.handed = c.handed) : c'.Outstanding ↔ c.Keeps event := by
  unfold Step step at h
  cases event with
  | call call =>
      obtain rfl := Option.some.inj h
      cases call with
      | start => exact iff_of_true (.inr ⟨rfl, by simp⟩) trivial
      | stop => exact outstanding_iff_of_not_connect (by simp [Call.connect_])
  | enqueue i =>
      obtain ⟨call, hcall, rfl⟩ := Option.map_eq_some_iff.mp h
      refine iff_of_true (hc.mono rfl ?_) trivial
      rintro ⟨hconnect, hpending⟩
      refine ⟨hconnect, ?_⟩
      rcases hpending with hfunctor | hcalls | hrest
      · exact .inl (List.mem_append_left _ hfunctor)
      · by_cases hstart : call = .start
        · exact .inl (by simp [queueInLoop, hstart, Call.functor])
        · obtain ⟨j, hj⟩ := List.mem_iff_getElem?.mp hcalls
          have hne : j ≠ i := by
            rintro rfl
            exact hstart (Option.some.inj (hcall.symm.trans hj))
          exact .inr (.inl (List.mem_eraseIdx_iff_getElem?.mpr ⟨j, hne, hj⟩))
      · exact .inr (.inr hrest)
  | callInLoop call =>
      dsimp only at h
      split_ifs at h
      obtain rfl := Option.some.inj h
      cases call with
      | start => exact iff_of_true (.inr ⟨rfl, by simp⟩) trivial
      | stop => exact outstanding_iff_of_not_connect (by simp [Call.connect_])
  | restart => exact absurd rfl hne
  | goOn attempt =>
      dsimp only at h
      rcases hpoint : c.point <;> simp only [hpoint, reduceCtorEq] at h
      · rw [starts_iff (.goOn attempt) hc rfl rfl h]
        simp [Keeps, hpoint]
      · obtain rfl := Option.some.inj h
        refine iff_of_true (hc.mono rfl ?_) (by simp [Keeps, hpoint])
        rintro ⟨hconnect, hpending⟩
        refine ⟨hconnect, ?_⟩
        simpa [queueInLoop, hpoint] using hpending
  | functor attempt =>
      dsimp only at h
      split at h
      · next functor functors hpoint hfunctors =>
          have hbehind : c.behind (.functor attempt) = { c with pendingFunctors := functors } := by
            simp [behind, hfunctors]
          -- a functor that is not `startInLoop` leaves the others
          have hothers : functor ≠ .startInLoop →
              Outstanding { c with pendingFunctors := functors } := by
            intro hfunctor
            refine hc.mono rfl ?_
            rintro ⟨hconnect, hpending⟩
            refine ⟨hconnect, ?_⟩
            simpa [hfunctors, hfunctor.symm] using hpending
          cases functor with
          | startInLoop =>
              rw [starts_iff (.functor attempt) hc (by rw [hbehind]) (by rw [hbehind])
                (by rw [hbehind]; exact h)]
              simp [Keeps, hfunctors]
          | stopInLoop =>
              rw [stopInLoop_outstanding (hothers (by simp)) h]
              simp [Keeps, hfunctors]
          | resetChannel =>
              obtain rfl := Option.some.inj h
              exact iff_of_true (hothers (by simp)) (by simp [Keeps, hfunctors])
      · cases h
  | timer i attempt =>
      dsimp only at h
      split_ifs at h
      exact starts_iff (.timer i attempt) hc rfl rfl h
  | write err selfConnect =>
      dsimp only at h
      split_ifs at h
      exact handleWrite_outstanding hc h hhanded
  | error =>
      dsimp only at h
      split_ifs at h
      exact handleError_outstanding hc h

end Connector

/-! ## The client's flags -/

namespace HttpClient

variable (client : HttpClient)

/-- The connection with the number `k` is connected. -/
def connectedAt (k : ℕ) : Bool :=
  (client.connections[k]?.map fun conn => conn.toEndpoint.connected).getD false

/-- The same flags, with the loop's thread at the same point, and the same connections connected. -/
structure SameFlags (client' : HttpClient) : Prop where
  connected : client'.connected = client.connected
  isConnecting : client'.isConnecting = client.isConnecting
  point : client'.point = client.point
  connectedAt : ∀ k, client'.connectedAt k = client.connectedAt k
  length : client'.connections.length = client.connections.length

/-- A change of one connection is seen at that connection only. -/
lemma connectedAt_modifyEndpoint (k : ℕ) (f : Endpoint → Endpoint) (j : ℕ) :
    (client.modifyEndpoint k f).connectedAt j =
      if k = j then (client.connections[j]?.map fun conn => (f conn.toEndpoint).connected).getD false
      else client.connectedAt j := by
  unfold connectedAt modifyEndpoint
  simp only [List.getElem?_modify]
  split_ifs with hkj <;> rcases client.connections[j]? with _ | conn <;> rfl

/-- Sending a request changes no flag of the client. -/
lemma sendRequest_sameFlags (r : HttpRequest × ℕ) : SameFlags client (client.sendRequest r) := by
  unfold sendRequest
  rcases client.connection with _ | k
  · exact ⟨rfl, rfl, rfl, fun _ => rfl, rfl⟩
  · dsimp only
    split_ifs
    · refine ⟨rfl, rfl, rfl, fun j => ?_, by simp [modifyEndpoint]⟩
      have hsend : ∀ e : Endpoint, (e.send (requestText r.1)).connected = e.connected := by
        intro e
        unfold Endpoint.send
        split <;> rfl
      have hmodify := connectedAt_modifyEndpoint client k
        (·.send (requestText r.1)) j
      simp only [hsend] at hmodify
      exact hmodify.trans (ite_self _)
    · exact ⟨rfl, rfl, rfl, fun _ => rfl, rfl⟩

/-- Sending the front of the queue leaves both flags alone. -/
lemma sendFront_sameFlags : SameFlags client client.sendFront := by
  unfold sendFront
  rcases client.requests with _ | ⟨r, requests⟩
  · exact ⟨rfl, rfl, rfl, fun _ => rfl, rfl⟩
  · obtain ⟨h₁, h₂, h₃, h₄, h₅⟩ :=
      sendRequest_sameFlags { client with requests := requests } r
    exact ⟨h₁, h₂, h₃, h₄, h₅⟩

/-- `get` and `post` set one flag, and leave the others. -/
lemma submit_sameFlags (req : HttpRequest) :
    SameFlags { client with isConnecting := client.isConnecting || !client.connected }
      (client.submit req) := by
  unfold submit
  dsimp only
  split
  · obtain ⟨h₁, h₂, h₃, h₄, h₅⟩ := sendRequest_sameFlags
      { client with
        submitted := client.submitted ++ [req]
        isConnecting := client.isConnecting || !client.connected } (req, client.submitted.length)
    exact ⟨h₁, h₂, h₃, h₄, h₅⟩
  · exact ⟨rfl, rfl, rfl, fun _ => rfl, rfl⟩

end HttpClient

/-! ## The client and its connector -/

/-- How far a call of `get` or `post` has come that starts the connector. -/
inductive Stage where
  /-- on another thread than the loop's, it has written `connect_`, -/
  | started
  /-- and queued `startInLoop` -/
  | queued
  /-- on the loop's thread, it is in `startInLoop` or behind that -/
  | inLoop
  deriving DecidableEq, Repr

/-- An `HttpClient` with the `Connector` of its `TcpClient`. -/
structure ConnectingClient where
  client : HttpClient := {}
  connector : Connector := {}
  /-- the call of `get` or `post` that has found the client neither connected nor connecting and
  has not set `isConnecting_`; it holds `mutex_` -/
  submitting : Option (HttpRequest × Stage) := none
  /-- whether the loop's thread is in the down branch of `onConnection`, between its two writes -/
  clearing : Bool := false

/-- What a thread does next. -/
inductive ConnectingEvent where
  /-- a step of the connector; a call of `connect` or `stop` is one of `start` or `stop` -/
  | connector (event : Connector.Event)
  /-- a step of the client -/
  | client (event : ClientEvent)
  /-- `get` or `post` finds the client neither connected nor connecting, and `start` writes
  `connect_` -/
  | submitStart (req : HttpRequest) (inLoop : Bool)
  /-- `start` queues `startInLoop` -/
  | submitQueue
  /-- `isConnecting_` is set, and the request queued -/
  | submitEnd
  /-- the first write of the down branch -/
  | clearConnected
  deriving DecidableEq

namespace ConnectingClient

/-- A client that was constructed, and whether its loop has a `TimerQueue`. -/
def new (useThreadPool timerQueue : Bool) : ConnectingClient where
  client := .new useThreadPool
  connector := { timerQueue := timerQueue }

variable (s : ConnectingClient)

/-- What `onConnection` finds when it asks for `connected()`. -/
def asked : Bool :=
  match s.client.point with
  | .established k => s.client.connectedAt k
  | _ => false

/-- The loop's thread is in no call of `start` or `stop`, of `get` or `post`, nor between the two
writes. -/
def LoopFree : Prop :=
  s.connector.point = .idle ∧ s.submitting.map Prod.snd ≠ some .inLoop ∧ s.clearing = false

instance : Decidable s.LoopFree := inferInstanceAs (Decidable (_ ∧ _))

/-- It executes user code: a response callback, or none of the client's. -/
def InUserCode : Prop :=
  s.LoopFree ∧ match s.client.point with
    | .idle | .message _ => True
    | _ => False

instance : Decidable s.InUserCode := by
  unfold InUserCode
  split <;> infer_instance

/-- The step of the connector can come. `restart` is not called, as `retry_` is not set. -/
def MayConnector : Connector.Event → Prop
  | .call _ | .enqueue _ | .goOn _ => True
  | .callInLoop _ => s.InUserCode
  | .functor _ | .timer _ _ | .write _ _ | .error => s.LoopFree ∧ s.client.point = .idle
  | .restart => False

instance : DecidablePred s.MayConnector
  | .call _ | .enqueue _ | .goOn _ => inferInstanceAs (Decidable True)
  | .callInLoop _ => inferInstanceAs (Decidable s.InUserCode)
  | .functor _ | .timer _ _ | .write _ _ | .error => inferInstanceAs (Decidable (_ ∧ _))
  | .restart => inferInstanceAs (Decidable False)

/-- The step of the client can come: those under `mutex_` when nobody has that, and the connector
brings about the new connections. -/
def MayClient : ClientEvent → Prop
  | .submit _ => s.submitting = none ∧ (s.client.connected = true ∨ s.client.isConnecting = true)
  | .disconnect => True
  | .newConnection => False
  | .establish | .receive _ _ | .close _ | .remove => s.LoopFree
  | .announce | .drain => s.LoopFree ∧ s.submitting = none
  | .ask => s.LoopFree ∧ s.asked = true ∨ s.clearing = true
  | .clear => s.clearing = true

instance : DecidablePred s.MayClient
  | .submit _ | .announce | .drain => inferInstanceAs (Decidable (_ ∧ _))
  | .disconnect => inferInstanceAs (Decidable True)
  | .newConnection => inferInstanceAs (Decidable False)
  | .establish | .receive _ _ | .close _ | .remove => inferInstanceAs (Decidable s.LoopFree)
  | .ask => inferInstanceAs (Decidable (_ ∨ _))
  | .clear => inferInstanceAs (Decidable (_ = _))

/-- The loop's thread has come to the down branch of `onConnection`. -/
def AtDown : Prop :=
  match s.client.point with
  | .closing _ => True
  | .established _ => s.asked = false
  | _ => False

instance : Decidable s.AtDown := by
  unfold AtDown
  split <;> infer_instance

/-- `isConnecting_ = true` and the rest of `get` and `post`. Source: HttpClient.cc 79-85, 110-116 -/
def finish (req : HttpRequest) : ConnectingClient :=
  { s with client := { s.client with isConnecting := true }.submit req, submitting := none }

/-- Whether the step is the second write of the down branch, or gets past the first. -/
def leavesDown : ClientEvent → Bool
  | .ask | .clear => true
  | _ => false

/-- One step. -/
def step : ConnectingEvent → Option ConnectingClient
  | .connector event =>
    if s.MayConnector event then
      (s.connector.step event).bind fun connector =>
        if connector.handed = s.connector.handed then some { s with connector := connector }
        else
          -- `newConnectionCallback_` is `TcpClient::newConnection`
          (s.client.step .newConnection).map fun client =>
            { s with client := client, connector := connector }
    else none
  | .client event =>
    if s.MayClient event then
      (s.client.step event).map fun client =>
        { s with client := client, clearing := s.clearing && !leavesDown event }
    else none
  | .submitStart req inLoop =>
    if s.submitting = none ∧ s.client.connected = false ∧ s.client.isConnecting = false then
      if inLoop then
        if s.InUserCode then
          (s.connector.step (.callInLoop .start)).map fun connector =>
            { s with connector := connector, submitting := some (req, .inLoop) }
        else none
      else
        some { s with
          connector := { s.connector with connect_ := true }
          submitting := some (req, .started) }
    else none
  | .submitQueue =>
    match s.submitting with
    | some (req, .started) =>
      some { s with
        connector := s.connector.queueInLoop .startInLoop
        submitting := some (req, .queued) }
    | _ => none
  | .submitEnd =>
    match s.submitting with
    | some (req, .queued) => some (s.finish req)
    | some (req, .inLoop) => if s.connector.point = .idle then some (s.finish req) else none
    | _ => none
  | .clearConnected =>
    if s.LoopFree ∧ s.AtDown then
      some { s with client := { s.client with connected := false }, clearing := true }
    else none

/-- The steps of a client and its connector. -/
def Step (event : ConnectingEvent) (t : ConnectingClient) : Prop := s.step event = some t

/-! ## The property and the condition -/

/-- `get` and `post` only queue their requests. -/
def Waits : Prop := s.client.isConnecting = true ∧ s.client.connected = false

instance : Decidable s.Waits := inferInstanceAs (Decidable (_ ∧ _))

/-- An attempt was successful, and the loop's thread is on its way to `connected_ = true`. -/
def Announcing : Prop :=
  s.clearing = false ∧ match s.client.point with
    | .created _ | .up _ => True
    | .established _ => s.asked = true
    | _ => False

instance : Decidable s.Announcing := by
  unfold Announcing
  split <;> infer_instance

/-- A client that is connecting and not connected waits for an attempt. -/
def Awaited : Prop := s.Waits → s.connector.Outstanding ∨ s.Announcing

instance : Decidable s.Awaited := inferInstanceAs (Decidable (_ → _))

/-- The condition: a client that waits keeps the attempt it waits for. A step of the connector
leaves one; `disconnect` does not come upon a connection that is not announced yet; `isConnecting_`
is set while there is an attempt, and `connected_` cleared when it is not set, or there is another
one. -/
def Kept : ConnectingEvent → Prop
  | .connector event => s.Waits → ¬ s.Announcing → s.connector.Keeps event
  | .client .disconnect =>
    s.Waits → s.connector.Outstanding ∨
      ∀ k ∈ s.client.connection, s.client.point ≠ .established k
  | .submitEnd => s.client.connected = false → s.connector.Outstanding ∨ s.Announcing
  | .clearConnected => s.client.isConnecting = true → s.connector.Outstanding
  | _ => True

instance : DecidablePred s.Kept
  | .connector _ => inferInstanceAs (Decidable (_ → _ → _))
  | .client .disconnect =>
    inferInstanceAs (Decidable (_ → _ ∨ ∀ k ∈ s.client.connection, _))
  | .submitEnd | .clearConnected => inferInstanceAs (Decidable (_ → _))
  | .client (.submit _) | .client .newConnection | .client .establish | .client .ask
  | .client .announce | .client (.receive _ _) | .client .drain | .client (.close _)
  | .client .clear | .client .remove | .submitStart _ _ | .submitQueue =>
    inferInstanceAs (Decidable True)

end ConnectingClient

/-! ## Every step -/

namespace Connector

variable {c c' : Connector} {event : Event} {attempt : Attempt}

/-- `connect` hands no connection over. -/
lemma connect_handed (h : c.connect attempt = some c') : c'.handed = c.handed := by
  rcases attempt with _ | savedErrno
  · obtain rfl := Option.some.inj h
    rfl
  · unfold connect at h
    rcases hbranch : branch savedErrno <;> simp only [hbranch] at h
    · obtain rfl := Option.some.inj h
      rfl
    · exact (retry_spec h).2.2.2.2.2
    · obtain rfl := Option.some.inj h
      rfl

/-- `startInLoop` hands no connection over. -/
lemma startInLoop_handed (h : c.startInLoop attempt = some c') : c'.handed = c.handed := by
  unfold startInLoop at h
  split_ifs at h
  · exact connect_handed h
  · obtain rfl := Option.some.inj h
    rfl

/-- Removing the channel and trying again hands no connection over. -/
lemma removeAndRetry_handed
    (h : (c.removeAndResetChannel.bind fun (c, sockfd) => c.retry sockfd) = some c') :
    c'.handed = c.handed := by
  obtain ⟨⟨c₁, s⟩, hremove, hretry⟩ := Option.bind_eq_some_iff.mp h
  rw [← (removeAndResetChannel_frame hremove).2]
  exact (retry_spec hretry).2.2.2.2.2

/-- `handleWrite` hands no connection over when the connector was stopped. -/
lemma handleWrite_handed {err selfConnect : Bool} (hconnect : ¬ c.connect_ = true)
    (h : c.handleWrite err selfConnect = some c') : c'.handed = c.handed := by
  rcases handleWrite_cases h with
    ⟨-, rfl⟩ | ⟨-, c₁, s, -, hhanded₁, hretry | ⟨hset, -⟩ | ⟨-, rfl⟩⟩
  · rfl
  · exact (retry_spec hretry).2.2.2.2.2.trans hhanded₁
  · exact absurd hset hconnect
  · exact hhanded₁

/-- Only `handleWrite` hands a socket over, with `connect_` set. -/
lemma Step.handed (h : c.Step event c') : c'.handed = c.handed ∨
    c.connect_ = true ∧ ∃ err selfConnect, event = .write err selfConnect := by
  unfold Step step at h
  cases event with
  | call call =>
      obtain rfl := Option.some.inj h
      exact .inl rfl
  | enqueue i =>
      obtain ⟨call, -, rfl⟩ := Option.map_eq_some_iff.mp h
      exact .inl rfl
  | callInLoop call | restart =>
      dsimp only at h
      split_ifs at h
      obtain rfl := Option.some.inj h
      exact .inl rfl
  | goOn attempt =>
      dsimp only at h
      rcases hpoint : c.point <;> simp only [hpoint, reduceCtorEq] at h
      · have hstart := startInLoop_handed h
        exact .inl hstart
      · obtain rfl := Option.some.inj h
        exact .inl rfl
  | functor attempt =>
      dsimp only at h
      split at h
      · next functor functors _ _ =>
          left
          cases functor with
          | startInLoop =>
              have hstart := startInLoop_handed h
              exact hstart
          | stopInLoop =>
              simp only [runFunctor, stopInLoop] at h
              split_ifs at h
              · have hretry := removeAndRetry_handed h
                exact hretry
              · obtain rfl := Option.some.inj h
                rfl
          | resetChannel =>
              obtain rfl := Option.some.inj h
              rfl
      · cases h
  | timer i attempt =>
      dsimp only at h
      split_ifs at h
      have hstart := startInLoop_handed h
      exact .inl hstart
  | write err selfConnect =>
      by_cases hconnect : c.connect_ = true
      · exact .inr ⟨hconnect, err, selfConnect, rfl⟩
      · left
        dsimp only at h
        split_ifs at h
        exact handleWrite_handed hconnect h
  | error =>
      left
      dsimp only at h
      split_ifs at h
      unfold handleError at h
      split_ifs at h
      · exact removeAndRetry_handed h
      · obtain rfl := Option.some.inj h
        rfl

end Connector

namespace ConnectingClient

variable {s t : ConnectingClient} {event : ConnectingEvent}

/-- The connection that `newConnection` has made is there. -/
def InRange (s : ConnectingClient) : Prop :=
  ∀ k, s.client.point = .created k → k < s.client.connections.length

/-- A client that does not wait, or waits for the same. -/
lemma awaited_congr (hwaits : t.Waits ↔ s.Waits) (hconnector : t.connector = s.connector)
    (hannouncing : t.Announcing ↔ s.Announcing) : t.Awaited ↔ s.Awaited := by
  rw [Awaited, Awaited, hwaits, hconnector, hannouncing]

/-- The flags are all that counts of the client. -/
lemma announcing_congr (h : s.client.SameFlags t.client) (hclearing : t.clearing = s.clearing) :
    t.Announcing ↔ s.Announcing := by
  unfold Announcing asked
  rw [h.point, hclearing]
  rcases s.client.point <;> simp [h.connectedAt]

/-- Where the loop's thread is not announcing a connection, there is an attempt. -/
lemma Awaited.outstanding (h : s.Awaited) (hwaits : s.Waits)
    (hpoint : ∀ k, s.client.point ≠ .created k ∧ s.client.point ≠ .established k ∧
      s.client.point ≠ .up k) : s.connector.Outstanding := by
  refine (h hwaits).resolve_right ?_
  rintro ⟨-, hannouncing⟩
  split at hannouncing
  · next k hk => exact (hpoint k).1 hk
  · next k hk => exact (hpoint k).2.2 hk
  · next k hk => exact (hpoint k).2.1 hk
  · exact hannouncing

/-- A step of the connector leaves the requests awaited exactly when it keeps them. -/
lemma awaited_connector {e : Connector.Event} (h : s.Awaited) (hst : s.Step (.connector e) t) :
    (t.Awaited ↔ s.Kept (.connector e)) ∧ (s.InRange → t.InRange) := by
  unfold Step step at hst
  dsimp only at hst
  split_ifs at hst with hmay
  obtain ⟨connector, hconnector, hrest⟩ := Option.bind_eq_some_iff.mp hst
  split_ifs at hrest with hhanded
  · obtain rfl := Option.some.inj hrest
    refine ⟨?_, fun h => h⟩
    have hne : e ≠ .restart := by
      rintro rfl
      exact hmay
    change (s.Waits → connector.Outstanding ∨ s.Announcing) ↔
      (s.Waits → ¬ s.Announcing → s.connector.Keeps e)
    refine imp_congr_right fun hwaits => ?_
    by_cases hannouncing : s.Announcing
    · simp [hannouncing]
    · have hout := (h hwaits).resolve_right hannouncing
      simp only [hannouncing, or_false, not_false_eq_true, true_implies]
      exact Connector.Step.outstanding_iff hout hconnector hne hhanded
  · -- the socket is handed over
    obtain ⟨hconnect, err, selfConnect, rfl⟩ :=
      (Connector.Step.handed hconnector).resolve_left hhanded
    obtain ⟨client, hclient, rfl⟩ := Option.map_eq_some_iff.mp hrest
    simp only [HttpClient.step, hmay.2, Option.some.injEq] at hclient
    subst hclient
    refine ⟨iff_of_true (fun _ => .inr ⟨hmay.1.2.2, trivial⟩) (fun _ _ _ => hconnect), fun _ => ?_⟩
    rintro k ⟨⟩
    simp

/-- A client waits or not with the flags that it has. -/
lemma waits_congr (h : s.client.SameFlags t.client) : t.Waits ↔ s.Waits := by
  rw [Waits, Waits, h.isConnecting, h.connected]

/-- A step of the client that comes where no connection is announced, and leaves the flags, leaves
the requests awaited. -/
lemma awaited_of_outstanding (h : s.Awaited)
    (hpoint : ∀ k, s.client.point ≠ .created k ∧ s.client.point ≠ .established k ∧
      s.client.point ≠ .up k)
    (hwaits : t.Waits → s.Waits) (hconnector : t.connector = s.connector) : t.Awaited :=
  fun ht => .inl (hconnector ▸ h.outstanding (hwaits ht) hpoint)

/-- `disconnect` shuts one connection down. -/
lemma connectedAt_disconnect (client : HttpClient) (k : ℕ) :
    client.disconnect.connectedAt k =
      if client.connection = some k then false else client.connectedAt k := by
  unfold HttpClient.disconnect
  rcases client.connection with _ | j
  · simp
  · dsimp only
    rw [HttpClient.connectedAt_modifyEndpoint]
    by_cases hjk : j = k
    · have hshutdown : ∀ e : Endpoint, e.shutdown.connected = false := by
        intro e
        simpa [Endpoint.connected] using e.shutdown_state_ne
      simp only [hjk, if_true, hshutdown]
      rcases client.connections[k]? with _ | conn <;> rfl
    · simp [hjk]

/-- Behind `disconnect`, a connection is announced that was, and that it has not shut down before
its callback. -/
lemma announcing_disconnect (ht : t.client = s.client.disconnect)
    (hclearing : t.clearing = s.clearing) : t.Announcing ↔
      s.Announcing ∧ ∀ k ∈ s.client.connection, s.client.point ≠ .established k := by
  have hpoint : t.client.point = s.client.point := by
    rw [ht, HttpClient.disconnect]
    split <;> rfl
  unfold Announcing asked
  rw [hpoint, hclearing, ht]
  rcases s.client.point with _ | k | k | k | k | k | k
  case established =>
    dsimp only
    rw [connectedAt_disconnect]
    by_cases hk : s.client.connection = some k <;> simp [hk]
    intro _ _ j hj heq
    exact hk (heq ▸ hj)
  all_goals simp

/-- A step of the client leaves the requests awaited exactly when it keeps them. -/
lemma awaited_client {e : ClientEvent} (h : s.Awaited) (hin : s.InRange)
    (hst : s.Step (.client e) t) : (t.Awaited ↔ s.Kept (.client e)) ∧ t.InRange := by
  unfold Step step at hst
  dsimp only at hst
  split_ifs at hst with hmay
  obtain ⟨client, hclient, rfl⟩ := Option.map_eq_some_iff.mp hst
  cases e with
  | submit req =>
      obtain rfl := Option.some.inj hclient
      have hflags : s.client.SameFlags (s.client.submit req) := by
        obtain ⟨h₁, h₂, h₃, h₄, h₅⟩ := s.client.submit_sameFlags req
        refine ⟨h₁, h₂.trans ?_, h₃, h₄, h₅⟩
        rcases hmay.2 with hconnected | hconnecting
        · simp [hconnected]
        · simp [hconnecting]
      have hclearing : (s.clearing && !leavesDown (.submit req)) = s.clearing := by
        simp [leavesDown]
      refine ⟨iff_of_true ?_ trivial, ?_⟩
      · refine Iff.mpr (awaited_congr (s := s) ?_ rfl ?_) h
        · exact waits_congr hflags
        · exact announcing_congr hflags hclearing
      · intro k hk
        exact (hin k (hflags.point.symm.trans hk)).trans_eq hflags.length.symm
  | disconnect =>
      obtain rfl := Option.some.inj hclient
      have hclearing : (s.clearing && !leavesDown .disconnect) = s.clearing := by simp [leavesDown]
      obtain ⟨hconnected, hconnecting, hpoint, hlength⟩ :
          s.client.disconnect.connected = s.client.connected ∧
            s.client.disconnect.isConnecting = s.client.isConnecting ∧
            s.client.disconnect.point = s.client.point ∧
            s.client.disconnect.connections.length = s.client.connections.length := by
        unfold HttpClient.disconnect
        split
        · exact ⟨rfl, rfl, rfl, by simp [HttpClient.modifyEndpoint]⟩
        · exact ⟨rfl, rfl, rfl, rfl⟩
      constructor
      · refine imp_congr_ctx (by simp only [Waits, hconnected, hconnecting]) fun hwaits => ?_
        rw [announcing_disconnect (s := s) rfl hclearing]
        have hawaited := h hwaits
        tauto
      · intro k hk
        exact (hin k (hpoint.symm.trans hk)).trans_eq hlength.symm
  | newConnection => exact hmay.elim
  | establish =>
      simp only [HttpClient.step] at hclient
      split at hclient
      · next k hpoint =>
          obtain rfl := Option.some.inj hclient
          refine ⟨iff_of_true (fun _ => .inr ⟨by simp [hmay.2.2], ?_⟩) trivial, nofun⟩
          have hlt := hin k hpoint
          have hget : s.client.connections[k]? = some s.client.connections[k] :=
            List.getElem?_eq_getElem hlt
          simp [asked, HttpClient.connectedAt, HttpClient.modifyEndpoint, hget, Endpoint.connected]
      · cases hclient
  | ask =>
      simp only [HttpClient.step] at hclient
      split at hclient
      · next k hpoint =>
          split_ifs at hclient
          · obtain rfl := Option.some.inj hclient
            exact ⟨iff_of_true (fun _ => .inr ⟨by simp [leavesDown], trivial⟩) trivial, nofun⟩
          · obtain rfl := Option.some.inj hclient
            exact ⟨iff_of_true (fun hwaits => absurd hwaits.1 nofun) trivial, nofun⟩
      · cases hclient
  | announce =>
      simp only [HttpClient.step] at hclient
      split at hclient
      · obtain rfl := Option.some.inj hclient
        have hflags := HttpClient.sendFront_sameFlags { s.client with connected := true }
        refine ⟨iff_of_true (fun hwaits => ?_) trivial, nofun⟩
        exact absurd (hflags.connected.symm.trans hwaits.2) nofun
      · cases hclient
  | receive k chunk =>
      simp only [HttpClient.step] at hclient
      split at hclient
      · next conn hpoint _ =>
          split_ifs at hclient
          split at hclient
          · obtain rfl := Option.some.inj hclient
            exact ⟨iff_of_true (awaited_of_outstanding h (by simp [hpoint]) (fun hw => hw) rfl)
              trivial, nofun⟩
          · cases hclient
      · cases hclient
  | drain =>
      simp only [HttpClient.step] at hclient
      split at hclient
      · next k hpoint =>
          obtain rfl := Option.some.inj hclient
          have hflags := HttpClient.sendFront_sameFlags s.client
          refine ⟨iff_of_true (awaited_of_outstanding h (by simp [hpoint]) ?_ rfl) trivial, nofun⟩
          exact fun hw => ⟨hflags.isConnecting.symm.trans hw.1, hflags.connected.symm.trans hw.2⟩
      · cases hclient
  | close k =>
      simp only [HttpClient.step] at hclient
      split at hclient
      · next conn hpoint _ =>
          split_ifs at hclient
          obtain rfl := Option.some.inj hclient
          exact ⟨iff_of_true (awaited_of_outstanding h (by simp [hpoint]) (fun hw => hw) rfl) trivial,
            nofun⟩
      · cases hclient
  | clear =>
      simp only [HttpClient.step] at hclient
      split at hclient
      · obtain rfl := Option.some.inj hclient
        exact ⟨iff_of_true (fun hwaits => absurd hwaits.1 nofun) trivial, nofun⟩
      · cases hclient
  | remove =>
      simp only [HttpClient.step] at hclient
      split at hclient
      · next k hpoint =>
          obtain rfl := Option.some.inj hclient
          exact ⟨iff_of_true (awaited_of_outstanding h (by simp [hpoint]) (fun hw => hw) rfl) trivial,
            nofun⟩
      · cases hclient

/-- A call of `get` or `post` that starts the connector comes to its end. -/
lemma awaited_finish {req : HttpRequest} (h : s.InRange) :
    ((s.finish req).Awaited ↔
      (s.client.connected = false → s.connector.Outstanding ∨ s.Announcing)) ∧
      (s.finish req).InRange := by
  obtain ⟨h₁, h₂, h₃, h₄, h₅⟩ :=
    HttpClient.submit_sameFlags { s.client with isConnecting := true } req
  have hflags : HttpClient.SameFlags { s.client with isConnecting := true } (s.finish req).client :=
    ⟨h₁, h₂.trans (by simp), h₃, h₄, h₅⟩
  have hwaits : (s.finish req).Waits ↔ s.client.connected = false := by
    rw [Waits, hflags.isConnecting, hflags.connected]
    simp
  have hannouncing : (s.finish req).Announcing ↔ s.Announcing :=
    announcing_congr (s := { s with client := { s.client with isConnecting := true } }) hflags rfl
  constructor
  · rw [Awaited, hwaits, hannouncing]
    exact Iff.rfl
  · intro k hk
    exact (h k (hflags.point.symm.trans hk)).trans_eq hflags.length.symm

/-- **What a step does to a client that waits.** -/
lemma Step.awaited_iff (h : s.Awaited) (hin : s.InRange) (hst : s.Step event t) :
    (t.Awaited ↔ s.Kept event) ∧ t.InRange := by
  cases event with
  | connector e =>
      obtain ⟨hiff, hrange⟩ := awaited_connector h hst
      exact ⟨hiff, hrange hin⟩
  | client e => exact awaited_client h hin hst
  | submitStart req inLoop =>
      unfold Step step at hst
      dsimp only at hst
      split_ifs at hst with hfree hloop huser
      · obtain ⟨connector, -, rfl⟩ := Option.map_eq_some_iff.mp hst
        exact ⟨iff_of_true (fun hwaits => absurd (hwaits.1.symm.trans hfree.2.2) nofun) trivial, hin⟩
      · obtain rfl := Option.some.inj hst
        exact ⟨iff_of_true (fun hwaits => absurd (hwaits.1.symm.trans hfree.2.2) nofun) trivial, hin⟩
  | submitQueue =>
      unfold Step step at hst
      dsimp only at hst
      split at hst
      · obtain rfl := Option.some.inj hst
        refine ⟨iff_of_true (fun hwaits => ?_) trivial, hin⟩
        refine (h hwaits).imp_left fun hout => hout.mono rfl fun hpending => ?_
        exact ⟨hpending.1, .inl (List.mem_append_right _ (List.mem_singleton_self _))⟩
      · cases hst
  | submitEnd =>
      unfold Step step at hst
      dsimp only at hst
      split at hst
      · obtain rfl := Option.some.inj hst
        exact awaited_finish hin
      · split_ifs at hst
        obtain rfl := Option.some.inj hst
        exact awaited_finish hin
      · cases hst
  | clearConnected =>
      unfold Step step at hst
      dsimp only at hst
      split_ifs at hst with hdown
      obtain rfl := Option.some.inj hst
      refine ⟨⟨fun hawaited hconnecting => ?_, fun hkept hwaits => .inl (hkept hwaits.1)⟩, hin⟩
      exact (hawaited ⟨hconnecting, rfl⟩).resolve_right fun hannouncing => by
        simp [Announcing] at hannouncing

/-! ## Runs -/

/-- **When `isConnecting_` tells the truth.** Over every run of a client and its connector, with all
calls of all threads, answers of the system, events and timers: a client that is connecting and not
connected waits for an attempt of the connector in every state, exactly when no step takes away the
last one from a client that waits for it. -/
theorem awaited_iff_kept (useThreadPool timerQueue : Bool)
    (p : List (ConnectingEvent × ConnectingClient))
    (hp : Path Step (new useThreadPool timerQueue) p) :
    Throughout Awaited (new useThreadPool timerQueue) p ↔
      MeetsAll Kept (new useThreadPool timerQueue) p :=
  hp.throughout_iff_meetsAll_of_invariant (I := fun s => s.Awaited ∧ s.InRange) (fun _ h => h.1)
    (fun _ _ _ h hst hg => ⟨(hst.awaited_iff h.1 h.2).1.mpr hg, (hst.awaited_iff h.1 h.2).2⟩)
    (fun _ _ _ h hst hP => (hst.awaited_iff h.1 h.2).1.mp hP)
    ⟨fun hwaits => absurd hwaits.1 nofun, nofun⟩

/-- Two calls of `get` on another thread, an attempt that is refused and tried again, and a
connection that sends the first of the requests. -/
theorem awaited_iff_kept_retry :
    Throughout Awaited (new false true)
      (Paths.trace step (new false true)
        [.submitStart {} false, .submitQueue, .connector (.functor (.socket (some .ECONNREFUSED))),
          .submitEnd, .client (.submit {}), .connector (.timer 0 (.socket (some .EINPROGRESS))),
          .connector (.write false false), .client .establish, .client .ask, .client .announce]) :=
  (awaited_iff_kept false true _ (Paths.path_trace step _ _)).mpr (by decide +kernel)

/-- An attempt that is refused for good, and an attempt that is stopped, leave a client that is
connecting for ever. -/
theorem not_awaited :
    (¬ Throughout Awaited (new false false) (Paths.trace step (new false false)
      [.submitStart {} false, .submitQueue, .submitEnd,
        .connector (.functor (.socket (some .EACCES)))])) ∧
    ¬ Throughout Awaited (new false false) (Paths.trace step (new false false)
      [.submitStart {} false, .submitQueue, .submitEnd,
        .connector (.functor (.socket (some .EINPROGRESS))), .connector (.call .stop),
        .connector (.enqueue 0), .connector (.functor .noSocket)]) :=
  ⟨by decide +kernel, by decide +kernel⟩

end ConnectingClient

end SwiftNetCore
