import SwiftNetCore.Http.Client

/-!
# What becomes of the client's requests

The requests handed to a connected connection, followed by those still queued, should be the
submitted ones in their order (`Accounted`). Three places send: `get` and `post` when `connected_`
is set, `onConnection`, and `onMessage`. None of them looks at all of the flag, the queue and the
state of the connection, so a request is overtaken when one is submitted while the queue still
drains, and lost when the connection is not in state `kConnected`.

* `Step.frame`: all other steps leave the requests alone.
* `accounted_iff_sendsInOrder`: over every run, the requests are accounted for exactly when each
  send finds the queue and the connection as it needs them.
-/

namespace SwiftNetCore

open Paths (Path Throughout MeetsAll)

namespace HttpClient

variable {client client' : HttpClient} {event : ClientEvent} {req : HttpRequest}
  {r : HttpRequest × ℕ}

/-- What was handed over, followed by what is queued, is what was submitted, in order. -/
def Accounted (client : HttpClient) : Prop :=
  client.handed ++ client.requests = client.submitted.zipIdx

instance (client : HttpClient) : Decidable (Accounted client) :=
  inferInstanceAs (Decidable (_ = _))

/-- What a step that may send finds: a submission, when `connected_` is set, an empty queue and a
connected connection; the send of a queued request, a connected connection. -/
def SendsInOrder (client : HttpClient) : ClientEvent → Prop
  | .submit _ =>
    client.connected = true → client.requests = [] ∧ client.currentConnected = true
  | .announce => client.requests ≠ [] → client.currentConnected = true
  | .drain => client.requests ≠ [] → client.currentConnected = true
  | _ => True

instance (client : HttpClient) : DecidablePred (SendsInOrder client)
  | .submit _ => inferInstanceAs (Decidable (_ → _))
  | .announce => inferInstanceAs (Decidable (_ → _))
  | .drain => inferInstanceAs (Decidable (_ → _))
  | .disconnect | .newConnection | .establish | .ask | .receive _ _ | .close _ | .clear
  | .remove => inferInstanceAs (Decidable True)

/-! ## Sending one request -/

/-- On a connected connection the request is handed over. -/
lemma sendRequest_of_connected (h : client.currentConnected = true) :
    (client.sendRequest r).handed = client.handed ++ [r] ∧
      (client.sendRequest r).requests = client.requests ∧
      (client.sendRequest r).submitted = client.submitted := by
  unfold sendRequest
  rcases hk : client.connection with _ | k
  · simp [currentConnected, hk] at h
  · simp [h, modifyEndpoint]

/-- On any other the request is dropped. -/
lemma sendRequest_of_not_connected (h : client.currentConnected = false) :
    client.sendRequest r = client := by
  unfold sendRequest
  rcases client.connection with _ | k
  · rfl
  · simp [h]

/-- A submission to a connected client is a send, once it is noted. -/
lemma submit_of_connected (hc : client.connected = true) (req : HttpRequest) :
    ∃ noted : HttpClient, client.submit req = noted.sendRequest (req, client.submitted.length) ∧
      noted.handed = client.handed ∧ noted.requests = client.requests ∧
      noted.submitted = client.submitted ++ [req] ∧
      noted.currentConnected = client.currentConnected := by
  refine ⟨{ client with
    submitted := client.submitted ++ [req]
    isConnecting := client.isConnecting || !client.connected }, ?_, rfl, rfl, rfl, rfl⟩
  simp [submit, hc]

/-- A submission to a client that is not connected is queued. -/
lemma submit_of_not_connected (hc : client.connected = false) (req : HttpRequest) :
    (client.submit req).handed = client.handed ∧
      (client.submit req).requests = client.requests ++ [(req, client.submitted.length)] ∧
      (client.submit req).submitted = client.submitted ++ [req] := by
  simp [submit, hc]

/-- Sending the front of a queue is a send, once it is dropped from the queue. -/
lemma sendFront_of_cons {rs : List (HttpRequest × ℕ)} (hq : client.requests = r :: rs) :
    ∃ popped : HttpClient, client.sendFront = popped.sendRequest r ∧
      popped.handed = client.handed ∧ popped.requests = rs ∧
      popped.submitted = client.submitted ∧
      popped.currentConnected = client.currentConnected := by
  refine ⟨{ client with requests := rs }, ?_, rfl, rfl, rfl, rfl⟩
  simp [sendFront, hq]

/-- The number of a new submission is new. -/
lemma zipIdx_concat (submitted : List HttpRequest) (req : HttpRequest) :
    (submitted ++ [req]).zipIdx = submitted.zipIdx ++ [(req, submitted.length)] := by
  rw [List.zipIdx_append]
  simp

/-- The next request is not numbered yet. -/
lemma notMem_zipIdx (submitted : List HttpRequest) (req : HttpRequest) :
    (req, submitted.length) ∉ submitted.zipIdx := by
  intro h
  have := List.snd_lt_of_mem_zipIdx h
  simp at this

/-- A submission keeps the requests accounted for exactly when it finds the queue and the
connection as it needs them. -/
lemma Accounted.submit_iff (h : Accounted client) (req : HttpRequest) :
    Accounted (client.submit req) ↔
      (client.connected = true → client.requests = [] ∧ client.currentConnected = true) := by
  unfold Accounted at h ⊢
  rcases hc : client.connected with _ | _
  · -- queued behind the others
    obtain ⟨h₁, h₂, h₃⟩ := submit_of_not_connected hc req
    rw [h₁, h₂, h₃, zipIdx_concat, ← h, List.append_assoc]
    simp
  · obtain ⟨noted, hsubmit, h₁, h₂, h₃, h₄⟩ := submit_of_connected hc req
    rw [hsubmit]
    simp only [true_implies]
    rcases hcur : client.currentConnected with _ | _
    · -- dropped
      rw [sendRequest_of_not_connected (h₄.trans hcur), h₁, h₂, h₃, zipIdx_concat, h]
      simp
    · -- sent at once, ahead of what is queued
      obtain ⟨h₅, h₆, h₇⟩ := sendRequest_of_connected (h₄.trans hcur)
      rw [h₅, h₆, h₇, h₁, h₂, h₃, zipIdx_concat]
      simp only [and_true]
      constructor
      · intro heq
        rcases hq : client.requests with _ | ⟨q, qs⟩
        · rfl
        · rw [← h, hq, List.append_assoc, List.append_assoc, List.append_cancel_left_eq] at heq
          have hmem : (req, client.submitted.length) ∈ client.submitted.zipIdx := by
            rw [← h, hq, (List.cons.inj heq).1]
            simp
          exact absurd hmem (notMem_zipIdx _ _)
      · intro hq
        rw [← h, hq]
        simp

/-- Sending the front of the queue keeps the requests accounted for exactly when the queue is
empty or the connection is connected. -/
lemma Accounted.sendFront_iff (h : Accounted client) :
    Accounted client.sendFront ↔ (client.requests ≠ [] → client.currentConnected = true) := by
  unfold Accounted at h ⊢
  rcases hq : client.requests with _ | ⟨q, qs⟩
  · simpa [sendFront, hq] using h
  · obtain ⟨popped, hsend, h₁, h₂, h₃, h₄⟩ := sendFront_of_cons hq
    rw [hsend]
    simp only [ne_eq, reduceCtorEq, not_false_eq_true, true_implies]
    rcases hcur : client.currentConnected with _ | _
    · -- dropped: one request less than were submitted
      rw [sendRequest_of_not_connected (h₄.trans hcur), h₁, h₂, h₃, ← h, hq]
      simp
    · obtain ⟨h₅, h₆, h₇⟩ := sendRequest_of_connected (h₄.trans hcur)
      rw [h₅, h₆, h₇, h₁, h₂, h₃, ← h, hq]
      simp

/-! ## Every step -/

/-- The same requests submitted, handed over and queued. -/
def SameRequests (client client' : HttpClient) : Prop :=
  client'.submitted = client.submitted ∧ client'.handed = client.handed ∧
    client'.requests = client.requests

/-- Only the requests count for the account. -/
lemma SameRequests.accounted_iff (h : SameRequests client client') :
    Accounted client' ↔ Accounted client := by
  obtain ⟨h₁, h₂, h₃⟩ := h
  unfold Accounted
  rw [h₁, h₂, h₃]

/-- What each step can do to the requests: a submission, the send of the front of the queue from
a state with the same requests, or nothing. -/
lemma Step.cases (h : Step client event client') :
    (∃ req, event = .submit req ∧ client' = client.submit req) ∨
      ((event = .announce ∨ event = .drain) ∧ ∃ before : HttpClient,
        SameRequests client before ∧ before.currentConnected = client.currentConnected ∧
        SameRequests before.sendFront client') ∨
      (SendsInOrder client event ∧ SameRequests client client') := by
  unfold Step step at h
  cases event with
  | submit req => exact .inl ⟨req, rfl, (Option.some.inj h).symm⟩
  | disconnect =>
      right; right
      obtain rfl := Option.some.inj h
      refine ⟨trivial, ?_⟩
      unfold disconnect
      rcases client.connection with _ | k <;> exact ⟨rfl, rfl, rfl⟩
  | newConnection | establish | clear | remove =>
      right; right
      rcases hp : client.point <;> simp only [hp, reduceCtorEq] at h
      obtain rfl := Option.some.inj h
      exact ⟨trivial, rfl, rfl, rfl⟩
  | ask =>
      right; right
      rcases hp : client.point <;> simp only [hp, reduceCtorEq] at h
      split at h
      · obtain rfl := Option.some.inj h
        exact ⟨trivial, rfl, rfl, rfl⟩
      · obtain rfl := Option.some.inj h
        exact ⟨trivial, rfl, rfl, rfl⟩
  | announce =>
      right; left
      rcases hp : client.point with _ | _ | _ | k | _ | _ | _ <;> simp only [hp, reduceCtorEq] at h
      obtain rfl := Option.some.inj h
      exact ⟨.inl rfl, { client with connected := true, point := .up k }, ⟨rfl, rfl, rfl⟩, rfl,
        rfl, rfl, rfl⟩
  | receive k chunk =>
      right; right
      rcases hp : client.point <;> simp only [hp, reduceCtorEq] at h
      rcases hk : client.connections[k]? with _ | conn <;> simp only [hk, reduceCtorEq] at h
      split at h
      · rcases hr : receiveChunk client.useThreadPool conn chunk with conn' | _ | _ <;>
          simp only [hr, reduceCtorEq] at h
        obtain rfl := Option.some.inj h
        exact ⟨trivial, rfl, rfl, rfl⟩
      · cases h
  | drain =>
      right; left
      rcases hp : client.point <;> simp only [hp, reduceCtorEq] at h
      obtain rfl := Option.some.inj h
      exact ⟨.inr rfl, client, ⟨rfl, rfl, rfl⟩, rfl, rfl, rfl, rfl⟩
  | close k =>
      right; right
      rcases hp : client.point <;> simp only [hp, reduceCtorEq] at h
      rcases hk : client.connections[k]? with _ | conn <;> simp only [hk, reduceCtorEq] at h
      split at h
      · obtain rfl := Option.some.inj h
        exact ⟨trivial, rfl, rfl, rfl⟩
      · cases h

/-- One step keeps the requests accounted for exactly when it sends in order. -/
lemma Step.accounted_iff (ha : Accounted client) (h : Step client event client') :
    Accounted client' ↔ SendsInOrder client event := by
  rcases h.cases with ⟨req, rfl, rfl⟩ | ⟨hevent, before, hsame, hcur, hafter⟩ | ⟨hguard, hsame⟩
  · exact ha.submit_iff req
  · have hbefore : Accounted before := hsame.accounted_iff.mpr ha
    rw [hafter.accounted_iff, hbefore.sendFront_iff, hsame.2.2, hcur]
    rcases hevent with rfl | rfl <;> exact Iff.rfl
  · exact iff_of_true (hsame.accounted_iff.mpr ha) hguard

/-- **When no request is lost or overtaken.** Over every run of a client, in every order of the
calls of other threads and the callbacks of the loop thread: the requests handed to a connected
connection, followed by the queued ones, are the submitted ones in their order, in every state of
the run, exactly when every submission that finds `connected_` set finds an empty queue and a
connected connection, and every queued request that is sent finds a connected connection. -/
theorem accounted_iff_sendsInOrder (useThreadPool : Bool) (run : List (ClientEvent × HttpClient))
    (hrun : Path Step (new useThreadPool) run) :
    Throughout Accounted (new useThreadPool) run ↔
      MeetsAll SendsInOrder (new useThreadPool) run :=
  hrun.throughout_iff_meetsAll (fun _ _ _ ha h => h.accounted_iff ha) rfl

/-- Two requests, a connection, and a response that lets the second one go: all in order. -/
theorem accounted_two_requests :
    Throughout Accounted (new false) (Paths.trace step (new false)
      [.submit (getRequest (lit "/a")), .submit (getRequest (lit "/b")), .newConnection,
        .establish, .ask, .announce, .receive 0 (lit "HTTP/1.1 200 OK\r\n\r\n"), .drain]) :=
  (accounted_iff_sendsInOrder false _ (Paths.path_trace step _ _)).mpr (by decide)

/-- A third request, submitted while the second is still queued, overtakes it. A request that is
submitted after `disconnect` is lost. -/
theorem request_overtaken_and_request_lost :
    (¬ Throughout Accounted (new false) (Paths.trace step (new false)
        [.submit (getRequest (lit "/a")), .submit (getRequest (lit "/b")), .newConnection,
          .establish, .ask, .announce, .submit (getRequest (lit "/c"))]) ∧
      (Paths.last (new false) (Paths.trace step (new false)
        [.submit (getRequest (lit "/a")), .submit (getRequest (lit "/b")), .newConnection,
          .establish, .ask, .announce, .submit (getRequest (lit "/c"))])).handed =
        [(getRequest (lit "/a"), 0), (getRequest (lit "/c"), 2)]) ∧
    (¬ Throughout Accounted (new false) (Paths.trace step (new false)
        [.submit (getRequest (lit "/a")), .newConnection, .establish, .ask, .announce, .disconnect,
          .submit (getRequest (lit "/b"))]) ∧
      (Paths.last (new false) (Paths.trace step (new false)
        [.submit (getRequest (lit "/a")), .newConnection, .establish, .ask, .announce, .disconnect,
          .submit (getRequest (lit "/b"))])).requests = []) := by
  refine ⟨⟨by decide, by decide⟩, by decide, by decide⟩

end HttpClient

end SwiftNetCore
