import SwiftNetCore.TcpLink
import SwiftNetCore.Lib.Fair

/-!
# What is sent arrives

`SwiftNetCore.TcpLink` says that nothing is lost on the way. That it comes to an end is a matter of
the two pollers: bytes that have arrived must be read, and a channel that waits for `EPOLLOUT` must
be told that it can write. Under these two premises every message arrives, whatever else happens
meanwhile at either end, unless the sender closes, on the end of its own input, while bytes still
wait.

* `Reads`, `Writes`: the two premises, about a run that goes on for ever.
* `received_onEvent`, `sent_onEvent`: what was received and what was sent only grow.
* `delivered_in_the_end`: what was sent by any time has arrived at some later time.
-/

namespace SwiftNetCore

open Fair (Endless)

namespace TcpConnection

variable {c : TcpConnection} {n : ℕ}

/-- A writable event puts as many of the bytes that wait behind what was written. -/
lemma handleWrite_written (hw : c.isWriting = true) (hn : 0 < n) :
    (c.handleWrite (.wrote n)).written = c.written ++ c.outputBuffer.readable.take n := by
  unfold handleWrite
  simp only [hw, hn, if_true]
  split
  · split
    · rw [shutdownInLoop_written, queueWriteComplete_written]
    · rw [queueWriteComplete_written]
  · rfl

/-- `sendInLoop` is no call of `send`. -/
lemma sendInLoop_sent (c : TcpConnection) (message : Bytes) (result : WriteResult) :
    (c.sendInLoop message result).sent = c.sent := by
  have hwrite : ∀ d : TcpConnection, (d.writeAtOnce message result).2.2.sent = d.sent := by
    intro d
    unfold writeAtOnce
    split
    · cases result with
      | wrote n =>
          simp only
          split <;> simp
      | failed errno => rfl
    · rfl
  unfold sendInLoop
  split
  · rfl
  · simp only
    split
    · rw [sendLater_eq]
      exact hwrite { c with handed := c.handed ++ [message] }
    · exact hwrite { c with handed := c.handed ++ [message] }

/-- Messages are only added to those that were sent. -/
lemma sent_onEvent (c : TcpConnection) (event : OutputEvent) :
    c.sent <+: (c.onEvent event).sent := by
  cases event with
  | send message result =>
      show c.sent <+: ((c.noteSent message).send message result).sent
      rw [send_noteSent]
      split
      · rw [sendInLoop_sent]
        exact List.prefix_append _ _
      · exact List.prefix_rfl
  | shutdown =>
      show c.sent <+: c.shutdown.sent
      unfold shutdown shutdownInLoop
      split
      · split <;> exact List.prefix_rfl
      · exact List.prefix_rfl
  | writable result =>
      show c.sent <+: (c.handleWrite result).sent
      by_cases h : c.Drains result
      · rw [handleWrite_of_drains h]
        split <;> simp [shutdownWrite, emptied]
      · obtain ⟨n, -, heq⟩ := handleWrite_of_not_drains h
        rw [heq]

end TcpConnection

namespace LinkEnd

variable {x y x' y' : LinkEnd} {event : EndEvent}

/-- Nothing that was received or sent is taken back, at either end. -/
lemma onEvent_grows (he : x.onEvent y event = some (x', y')) :
    (x.received <+: x'.received ∧ x.conn.sent <+: x'.conn.sent) ∧
      (y.received <+: y'.received ∧ y.conn.sent <+: y'.conn.sent) := by
  cases event with
  | output output =>
      simp only [onEvent, Option.ite_none_right_eq_some, Option.some.injEq, Prod.mk.injEq] at he
      obtain ⟨-, rfl, rfl⟩ := he
      exact ⟨⟨List.prefix_rfl, TcpConnection.sent_onEvent _ _⟩, List.prefix_rfl, List.prefix_rfl⟩
  | read n =>
      simp only [onEvent, Option.ite_none_right_eq_some, Option.some.injEq, Prod.mk.injEq] at he
      obtain ⟨-, rfl, rfl⟩ := he
      refine ⟨⟨?_, List.prefix_rfl⟩, List.prefix_rfl, List.prefix_rfl⟩
      simp [received, ← List.append_assoc]
  | retrieve n =>
      obtain ⟨rfl, rfl⟩ := Prod.mk.inj (Option.some.inj he)
      refine ⟨⟨?_, List.prefix_rfl⟩, List.prefix_rfl, List.prefix_rfl⟩
      simp [received, Buffer.readable_retrieve]
  | eof =>
      simp only [onEvent, Option.ite_none_right_eq_some, Option.some.injEq, Prod.mk.injEq] at he
      obtain ⟨-, rfl, rfl⟩ := he
      exact ⟨⟨List.prefix_rfl, List.prefix_rfl⟩, List.prefix_rfl, List.prefix_rfl⟩
  | destroy =>
      simp only [onEvent, Option.ite_none_right_eq_some, Option.some.injEq, Prod.mk.injEq] at he
      obtain ⟨-, rfl, rfl⟩ := he
      exact ⟨⟨List.prefix_rfl, List.prefix_rfl⟩, List.prefix_rfl, List.prefix_rfl⟩

end LinkEnd

namespace Link

variable {state : ℕ → Link} {label : ℕ → Side × EndEvent} {s : Side} {n m : ℕ}

/-- What has come to the end `s` is read at some later time. -/
def Reads (state : ℕ → Link) (label : ℕ → Side × EndEvent) (s : Side) : Prop :=
  ∀ n, ((state n).ends s).incoming ≠ [] → ∃ m, n ≤ m ∧ ∃ k, label m = (s, .read k)

/-- When the channel of the end `s` waits for `EPOLLOUT`, `::write` takes some bytes at some later
time, or the end closes. -/
def Writes (state : ℕ → Link) (label : ℕ → Side × EndEvent) (s : Side) : Prop :=
  ∀ n, ((state n).ends s).conn.isWriting = true →
    ∃ m, n ≤ m ∧ ((state m).Closed s ∨
      ∃ k, 0 < k ∧ label m = (s, .output (.writable (.wrote k))))

/-- All that the end `s` had sent by the time `n` is received at some later time, in order, or `s`
has closed while bytes waited. -/
def Arrives (state : ℕ → Link) (s : Side) (n : ℕ) : Prop :=
  ∃ m, n ≤ m ∧ (((state n).ends s).conn.sent.flatten <+: ((state m).ends s.other).received ∨
    (state m).Closed s ∧ ((state m).ends s).conn.outputBuffer.readable ≠ [])

/-- What was received and sent only grows, at both ends. -/
lemma Step.grows {l l' : Link} {event : Side × EndEvent} (h : Step l event l') (s : Side) :
    (l.ends s).received <+: (l'.ends s).received ∧
      (l.ends s).conn.sent <+: (l'.ends s).conn.sent := by
  obtain ⟨x, y, he, hx, hy⟩ := step_cases h
  have hall := (forall_side_iff (P := fun r => (l.ends r).received <+: (l'.ends r).received ∧
    (l.ends r).conn.sent <+: (l'.ends r).conn.sent) event.1).mpr
  rw [hx, hy] at hall
  exact hall (LinkEnd.onEvent_grows he) s

/-- A read at the end `s` makes what it has received longer. -/
lemma Step.received_of_read {l l' : Link} {k : ℕ} (h : Step l (s, .read k) l') :
    (l.ends s).received.length < (l'.ends s).received.length := by
  obtain ⟨x, y, he, hx, -⟩ := step_cases h
  simp only [LinkEnd.onEvent, Option.ite_none_right_eq_some, Option.some.injEq,
    Prod.mk.injEq] at he
  obtain ⟨⟨-, hpos, hle, -⟩, rfl, -⟩ := he
  rw [hx]
  simp only [LinkEnd.received, Buffer.readable_readFd, List.length_append, List.length_take]
  omega

/-- A writable event that takes some bytes puts them on the way. -/
lemma Step.incoming_of_writable {l l' : Link} {k : ℕ} (hl : l.Ordered) (hs : ¬ l.Closed s)
    (hk : 0 < k) (h : Step l (s, .output (.writable (.wrote k))) l') :
    (l'.ends s.other).incoming ≠ [] := by
  obtain ⟨x, y, he, -, hy⟩ := step_cases h
  simp only [LinkEnd.onEvent, Option.ite_none_right_eq_some, Option.some.injEq,
    Prod.mk.injEq] at he
  obtain ⟨⟨hwithin, -⟩, -, rfl⟩ := he
  have hle : k ≤ (l.ends s).conn.outputBuffer.readable.length := hwithin
  have hwaits : (l.ends s).conn.outputBuffer.readable ≠ [] :=
    List.ne_nil_of_length_pos (hk.trans_le hle)
  have hw := (((hl.carries s).intact hs).writing).mpr hwaits
  have hwritten : ((l.ends s).conn.onEvent (.writable (.wrote k))).written =
      (l.ends s).conn.written ++ (l.ends s).conn.outputBuffer.readable.take k :=
    TcpConnection.handleWrite_written hw hk
  rw [hy]
  simp only [hwritten, List.drop_left, ne_eq, List.append_eq_nil_iff, List.take_eq_nil_iff, not_and]
  intro _ hor
  rcases hor with hzero | hnil
  · exact hk.ne' hzero
  · exact hwaits hnil

/-- **What is sent arrives.** In every endless run, with any events at both ends: when the
receiver reads what has come to it and the kernel takes what waits at the sender, all that was
sent by the time `n` is received at some later time, in order, unless the sender has closed while
bytes waited. -/
theorem delivered_in_the_end {highWaterMark : Side → ℕ} {writeComplete highWater : Side → Bool}
    (hrun : Endless Step state label)
    (hstart : state 0 = established highWaterMark writeComplete highWater)
    (hreads : Reads state label s.other) (hwrites : Writes state label s) (n : ℕ) :
    Arrives state s n := by
  by_contra hnever
  unfold Arrives at hnever
  push Not at hnever
  have hordered : ∀ m, (state m).Ordered := by
    intro m
    refine hrun.always (fun _ _ _ h hstep => h.step hstep) (n := 0) ?_ m (Nat.zero_le m)
    rw [hstart]
    exact ordered_established
  have hstream : ∀ m, ((state m).ends s.other).received ++ ((state m).ends s.other).incoming ++
      ((state m).ends s).conn.outputBuffer.readable = ((state m).ends s).conn.sent.flatten := by
    intro m
    rw [((hordered m).carries s).arrives, ((hordered m).carries s).stream]
  have hsent : ∀ m, n ≤ m → ((state n).ends s).conn.sent <+: ((state m).ends s).conn.sent := by
    intro m hm
    induction m, hm using Nat.le_induction with
    | base => exact List.prefix_rfl
    | succ m hm ih => exact ih.trans ((hrun m).grows s).2
  have hmono : Monotone fun m => ((state m).ends s.other).received.length :=
    monotone_nat_of_le_succ fun m => ((hrun m).grows s.other).1.length_le
  -- not all of it has arrived, at any time
  have hmissing : ∀ m, n ≤ m → ((state m).ends s.other).received.length <
      ((state n).ends s).conn.sent.flatten.length := by
    intro m hm
    by_contra hle
    refine (hnever m hm).1 (List.prefix_of_prefix_length_le (hsent m hm).flatten ?_ (not_lt.mp hle))
    rw [← hstream m, List.append_assoc]
    exact List.prefix_append _ _
  have hread : ∀ m, ((state m).ends s.other).incoming ≠ [] → ∃ k, m ≤ k ∧
      ((state m).ends s.other).received.length < ((state k).ends s.other).received.length := by
    intro m hne
    obtain ⟨k, hk, j, hlabel⟩ := hreads m hne
    have hstep := hrun k
    rw [hlabel] at hstep
    exact ⟨k + 1, Nat.le_succ_of_le hk, (hmono hk).trans_lt hstep.received_of_read⟩
  -- what has not arrived is on the way or waits at the sender
  have hsomewhere : ∀ m, n ≤ m → ((state m).ends s).conn.outputBuffer.readable = [] →
      ((state m).ends s.other).incoming ≠ [] := by
    intro m hm hempty hnil
    have hlen := congrArg List.length (hstream m)
    rw [hempty, hnil, List.append_nil, List.append_nil] at hlen
    have hle := (hsent m hm).flatten.length_le
    have hlt := hmissing m hm
    omega
  have hgrows : ∀ m, n ≤ m → ∃ k, m ≤ k ∧
      ((state m).ends s.other).received.length < ((state k).ends s.other).received.length := by
    intro m hm
    by_cases hin : ((state m).ends s.other).incoming = []
    · have hwaits : ((state m).ends s).conn.outputBuffer.readable ≠ [] :=
        fun hempty => hsomewhere m hm hempty hin
      have hopen : ¬ (state m).Closed s := fun hc => hwaits ((hnever m hm).2 hc)
      have hw := ((((hordered m).carries s).intact hopen).writing).mpr hwaits
      -- when the kernel takes some of it, or the sender closes, the receiver has something to read
      obtain ⟨k, hk, hthen⟩ := hwrites m hw
      have hcame : ∃ k', k ≤ k' ∧ ((state k').ends s.other).incoming ≠ [] := by
        by_cases hc : (state k).Closed s
        · exact ⟨k, le_rfl, hsomewhere k (hm.trans hk) ((hnever k (hm.trans hk)).2 hc)⟩
        · rcases hthen with hclosed | ⟨j, hj, hlabel⟩
          · exact absurd hclosed hc
          · have hstep := hrun k
            rw [hlabel] at hstep
            exact ⟨k + 1, Nat.le_succ k, hstep.incoming_of_writable (hordered k) hc hj⟩
      obtain ⟨k', hk', hne⟩ := hcame
      obtain ⟨r, hr, hlt⟩ := hread k' hne
      exact ⟨r, (hk.trans hk').trans hr, (hmono (hk.trans hk')).trans_lt hlt⟩
    · exact hread m hin
  obtain ⟨m, hm, hall⟩ := Fair.reaches_of_grows
    (f := fun m => ((state m).ends s.other).received.length) fun m hm _ => hgrows m hm
  exact absurd (hmissing m hm) (not_lt.mpr hall)

/-- A writable event that writes nothing, at a channel that does not wait, changes nothing. -/
lemma step_writable_failed {l : Link} (hw : (l.ends s).conn.isWriting = false) :
    Step l (s, .output (.writable (.failed .EWOULDBLOCK))) l := by
  have hsame : (l.ends s).conn.onEvent (.writable (.failed .EWOULDBLOCK)) = (l.ends s).conn := by
    rw [TcpConnection.onEvent]
    exact TcpConnection.handleWrite_of_not_writing hw
  have hpossible : (l.ends s).conn.Possible (.writable (.failed .EWOULDBLOCK)) := ⟨trivial, rfl⟩
  have hends : (fun r => if r = s then l.ends s else l.ends s.other) = l.ends := by
    funext r
    cases s <;> cases r <;> rfl
  simp only [Step, step, LinkEnd.onEvent, hpossible, if_true, hsame, List.drop_length,
    List.append_nil, Option.map_some, Option.some.injEq]
  rw [hends]

/-- A link without callbacks. -/
def plain : Link := established (fun _ => 4) (fun _ => false) (fun _ => false)

/-- A message that has to wait, is then written, and read. -/
def waitingMessage : List ((Side × EndEvent) × Link) :=
  Paths.trace step plain
    [(.client, .output (.send [1, 2] (.wrote 0))), (.client, .output (.writable (.wrote 2))),
      (.server, .read 2)]

/-- A message that waits arrives, in the run that is idle behind it. -/
theorem delivered_in_the_end_waiting : Arrives (Fair.stateOf plain waitingMessage) .client 1 := by
  have hrun : Endless Step (Fair.stateOf plain waitingMessage)
      (Fair.labelOf waitingMessage (.client, .output (.writable (.failed .EWOULDBLOCK)))) :=
    Fair.endless_of_path (Paths.path_trace step _ _) (step_writable_failed (by decide +kernel))
  have hlen : waitingMessage.length = 3 := by decide +kernel
  have hreads : Reads (Fair.stateOf plain waitingMessage)
      (Fair.labelOf waitingMessage (.client, .output (.writable (.failed .EWOULDBLOCK))))
      Side.client.other := by
    apply Fair.comes_of_path (Q := fun l : Link => (l.ends .server).incoming ≠ [])
      (R := fun (_ : Link) event => ∃ k, event = (Side.server, EndEvent.read k))
    · exact fun h => absurd h (by decide +kernel)
    · intro n hn _
      rw [hlen] at hn ⊢
      exact ⟨2, by decide, Nat.lt_succ_iff.mp hn, 2, by decide +kernel⟩
  have hwrites : Writes (Fair.stateOf plain waitingMessage)
      (Fair.labelOf waitingMessage (.client, .output (.writable (.failed .EWOULDBLOCK))))
      Side.client := by
    apply Fair.comes_of_path (Q := fun l : Link => (l.ends .client).conn.isWriting = true)
      (R := fun (l : Link) event => l.Closed .client ∨ ∃ k, 0 < k ∧
        event = (Side.client, EndEvent.output (OutputEvent.writable (WriteResult.wrote k))))
    · exact fun h => absurd h (by decide +kernel)
    · intro n hn hw
      rw [hlen] at hn ⊢
      have hle : n ≤ 1 := by
        by_contra hgt
        obtain rfl : n = 2 := by omega
        exact absurd hw (by decide +kernel)
      exact ⟨1, by decide, hle, Or.inr ⟨2, by decide, by decide +kernel⟩⟩
  exact delivered_in_the_end hrun rfl hreads hwrites 1

end Link

end SwiftNetCore
