import SwiftNetCore.Http.Client
import SwiftNetCore.Http.ResponseText

/-!
# Responses as the client receives them

`HttpClient::handleResponse` parses with a new context each time, and `parseResponse` takes all
bytes behind a head as the body. So what has been read of a head is forgotten at the end of a
chunk, the next chunk is read as if it began with a status line, and a body ends where a chunk
ends.

* `receiveChunk_wait`, `receiveChunk_refused`, `receiveChunk_open`, `receiveChunk_closed`: what
  one chunk does, in four cases.
* `HarmlessCuts`: the division of one response into chunks under which it is delivered. Every cut
  falls into a line of the head that reads as a status line, the last one into one with the
  response's own status.
* `delivered_iff_harmless`: a list of responses is delivered, each once and in order, exactly
  when the chunks end where the responses end and the cuts inside each are harmless.
-/

namespace SwiftNetCore

open InputBuffer
open Delimited (PairFree unlines lineAt)

namespace HttpClient

variable {pool : Bool} {conn conn' : ClientConnection} {line chunk : Bytes}

/-- The responses that were passed on: with `useThreadPool_` those of the tasks submitted, else
those that `httpResponseCallback_` was called with. -/
def passed (pool : Bool) (conn : ClientConnection) : List HttpResponse :=
  if pool then conn.submitted else conn.responses

/-- `passOn` puts the response behind those passed on before. -/
@[simp] lemma passed_passOn (resp : HttpResponse) :
    passed pool (passOn pool resp conn) = passed pool conn ++ [resp] := by
  unfold passed passOn
  rcases pool <;> rfl

/-- What was passed on does not depend on the connection. -/
@[simp] lemma passed_setEndpoint (endpoint : Endpoint) :
    passed pool { conn with toEndpoint := endpoint } = passed pool conn := rfl

/-! ## One chunk -/

/-- Without a complete line, the bytes wait in the buffer. -/
lemma receiveChunk_wait (hb : PairFree CR LF (conn.inputBuffer ++ chunk)) :
    receiveChunk pool conn chunk =
      .returned { conn with inputBuffer := conn.inputBuffer ++ chunk } := by
  unfold receiveChunk handleResponse
  rw [HttpContext.parseResponse_statusLine_incomplete rfl hb]
  simp [HttpContext.gotAll]

/-- A first line that is no status line shuts the connection down. -/
lemma receiveChunk_refused {rest : Bytes} (hb : conn.inputBuffer ++ chunk = line ++ CR :: LF :: rest)
    (hl : PairFree CR LF line) (hstatus : ¬ IsStatusLine line) :
    ∃ conn', receiveChunk pool conn chunk = .returned conn' ∧ conn'.state ≠ .kConnected := by
  refine ⟨{ conn with
    toEndpoint := { conn.toEndpoint with inputBuffer := conn.inputBuffer ++ chunk }.shutdown },
    ?_, Endpoint.shutdown_state_ne _⟩
  unfold receiveChunk handleResponse
  simp only [hb]
  rw [HttpContext.parseResponse_refused rfl hl hstatus]
  simp

/-- What was read of an incomplete head is gone, and the incomplete line waits. -/
lemma receiveChunk_open {statusCode : ℤ} {ls : List Bytes} {tail : Bytes}
    (hb : conn.inputBuffer ++ chunk = line ++ CR :: LF :: (unlines CR LF ls ++ tail))
    (hl : PairFree CR LF line) (hstatus : HttpContext.statusOfLine line = some statusCode)
    (hls : ∀ l ∈ ls, IsHeaderLine l) (ht : PairFree CR LF tail) :
    receiveChunk pool conn chunk = .returned { conn with inputBuffer := tail } := by
  unfold receiveChunk handleResponse
  simp only [hb]
  rw [HttpContext.parseResponse_head_open rfl hl hstatus hls ht]
  simp [HttpContext.gotAll]

/-- The response of a complete head is passed on, with all bytes behind the head as its body. -/
lemma receiveChunk_closed {statusCode : ℤ} {ls : List Bytes} {e rest : Bytes}
    (hb : conn.inputBuffer ++ chunk =
      line ++ CR :: LF :: (unlines CR LF ls ++ (e ++ CR :: LF :: rest)))
    (hl : PairFree CR LF line) (hstatus : HttpContext.statusOfLine line = some statusCode)
    (hls : ∀ l ∈ ls, IsHeaderLine l) (he : IsEndLine e) :
    ∃ resp : HttpResponse, resp.statusCode = .ofInt statusCode ∧ resp.body = rest ∧
      receiveChunk pool conn chunk =
        .returned (passOn pool resp { conn with inputBuffer := [] }) := by
  refine ⟨(HttpContext.addResponseHeaderLines
    (HttpResponse.setStatusCode {} statusCode) ls).setBody rest, ?_, rfl, ?_⟩
  · simp [HttpResponse.setBody, HttpResponse.setStatusCode]
  · unfold receiveChunk handleResponse
    simp only [hb]
    rw [HttpContext.parseResponse_head_closed rfl hl hstatus hls he]
    simp [HttpContext.gotAll]

/-- One chunk always is handled; it passes on at most one response, and a connection that is
shut down stays so. -/
lemma receiveChunk_returns (pool : Bool) (conn : ClientConnection) (chunk : Bytes) :
    ∃ conn' resps, receiveChunk pool conn chunk = .returned conn' ∧
      passed pool conn' = passed pool conn ++ resps ∧
      (conn'.state = .kConnected → conn.state = .kConnected) := by
  rcases HttpContext.response_cases (conn.inputBuffer ++ chunk) with hb |
    ⟨line, rest, hb, hl, hline⟩ | ⟨line, statusCode, ls, tail, hb, hl, hstatus, hls, ht⟩ |
    ⟨line, statusCode, ls, e, rest, hb, hl, hstatus, hls, he⟩
  · exact ⟨_, [], receiveChunk_wait hb, by simp, id⟩
  · unfold receiveChunk handleResponse
    simp only [hb]
    rw [HttpContext.parseResponse_refused rfl hl hline]
    refine ⟨_, [], rfl, by simp, fun h => ?_⟩
    exact absurd h (Endpoint.shutdown_state_ne _)
  · exact ⟨_, [], receiveChunk_open hb hl hstatus hls ht, by simp, id⟩
  · obtain ⟨resp, -, -, h⟩ := receiveChunk_closed hb hl hstatus hls he
    exact ⟨_, [resp], h, passed_passOn resp, by simp⟩

/-! ## Chunks, one after the other -/

/-- The chunks arrive one after the other. -/
def receiveAll (pool : Bool) (conn : ClientConnection) : List Bytes → Outcome ClientConnection
  | [] => .returned conn
  | chunk :: cs => (receiveChunk pool conn chunk).bind fun conn' => receiveAll pool conn' cs

/-- A list of chunks is received by its first chunk, and then the others. -/
lemma receiveAll_cons (h : receiveChunk pool conn chunk = .returned conn') (cs : List Bytes) :
    receiveAll pool conn (chunk :: cs) = receiveAll pool conn' cs := by
  rw [receiveAll, h, Outcome.returned_bind]

/-- The chunks of two lists are received one list behind the other. -/
lemma receiveAll_append (conn : ClientConnection) (cs ds : List Bytes) :
    receiveAll pool conn (cs ++ ds) =
      (receiveAll pool conn cs).bind fun conn' => receiveAll pool conn' ds := by
  induction cs generalizing conn with
  | nil => rfl
  | cons c cs ih =>
      obtain ⟨conn', -, h, -⟩ := receiveChunk_returns pool conn c
      rw [List.cons_append, receiveAll_cons h, receiveAll_cons h, ih]

/-- Later chunks pass on more responses, and do not bring a connection back. -/
lemma receiveAll_mono {cs : List Bytes} (h : receiveAll pool conn cs = .returned conn') :
    (∃ resps, passed pool conn' = passed pool conn ++ resps) ∧
      (conn'.state = .kConnected → conn.state = .kConnected) := by
  induction cs generalizing conn with
  | nil =>
      cases h
      exact ⟨⟨[], by simp⟩, id⟩
  | cons c cs ih =>
      obtain ⟨conn₁, resps, hc, hr, hs⟩ := receiveChunk_returns pool conn c
      rw [receiveAll_cons hc] at h
      obtain ⟨⟨resps', hr'⟩, hs'⟩ := ih h
      exact ⟨⟨resps ++ resps', by rw [hr', hr, List.append_assoc]⟩, fun h => hs (hs' h)⟩

/-- Every list of chunks is received. -/
lemma receiveAll_returns (pool : Bool) (conn : ClientConnection) (cs : List Bytes) :
    ∃ conn', receiveAll pool conn cs = .returned conn' := by
  induction cs generalizing conn with
  | nil => exact ⟨conn, rfl⟩
  | cons c cs ih =>
      obtain ⟨conn', -, h, -⟩ := receiveChunk_returns pool conn c
      rw [receiveAll_cons h]
      exact ih conn'

/-! ## Cuts inside one response -/

/-- Every chunk of `cs` starts inside a line among `ls` that reads as a status line, the last one
inside a line with the status `code`. The first chunk starts at `offset`. -/
def CutsIn (ls : List Bytes) (code : HttpStatusCode) (offset : ℕ) (cs : List Bytes) : Prop :=
  ∀ pre post, cs = pre ++ post → post ≠ [] → ∃ l statusCode,
    lineAt ls (offset + pre.flatten.length) = some l ∧
      HttpContext.statusOfLine l = some statusCode ∧
      (post.length = 1 → HttpStatusCode.ofInt statusCode = code)

variable {ls : List Bytes} {code : HttpStatusCode} {offset : ℕ} {cs : List Bytes}

/-- Without a further chunk there is no cut. -/
lemma cutsIn_nil : CutsIn ls code offset [] := by
  intro pre post heq hne
  exact absurd (List.append_eq_nil_iff.mp heq.symm).2 hne

/-- The first cut falls into a line that reads as a status line, with the status of the response if
there is no further one, and the others fall behind it. -/
lemma cutsIn_cons {c : Bytes} :
    CutsIn ls code offset (c :: cs) ↔
      (∃ l statusCode, lineAt ls offset = some l ∧
        HttpContext.statusOfLine l = some statusCode ∧
        (cs = [] → HttpStatusCode.ofInt statusCode = code)) ∧
      CutsIn ls code (offset + c.length) cs := by
  constructor
  · intro h
    refine ⟨?_, fun pre post heq hne => ?_⟩
    · obtain ⟨l, statusCode, h₁, h₂, h₃⟩ := h [] (c :: cs) rfl (by simp)
      exact ⟨l, statusCode, by simpa using h₁, h₂, fun hcs => h₃ (by simp [hcs])⟩
    · obtain ⟨l, statusCode, h₁, h₂⟩ := h (c :: pre) post (by rw [heq]; rfl) hne
      exact ⟨l, statusCode, by simpa [Nat.add_assoc] using h₁, h₂⟩
  · rintro ⟨⟨l, statusCode, h₁, h₂, h₃⟩, h⟩ (_ | ⟨d, pre⟩) post heq hne
    · obtain rfl : c :: cs = post := heq
      exact ⟨l, statusCode, by simpa using h₁, h₂, fun hlen => h₃ (by simpa using hlen)⟩
    · obtain ⟨rfl, htail⟩ := List.cons.inj heq
      obtain ⟨l, statusCode, h₁, h₂⟩ := h pre post htail hne
      exact ⟨l, statusCode, by simpa [Nat.add_assoc] using h₁, h₂⟩

/-- Behind some lines, offsets count from their end. -/
lemma cutsIn_append {ms : List Bytes} (h : (unlines CR LF ms).length ≤ offset) :
    CutsIn (ms ++ ls) code offset cs ↔
      CutsIn ls code (offset - (unlines CR LF ms).length) cs := by
  have hline : ∀ n, lineAt (ms ++ ls) (offset + n) =
      lineAt ls (offset - (unlines CR LF ms).length + n) := fun n => by
    rw [Delimited.lineAt_append (show (unlines CR LF ms).length ≤ offset + n by omega)]
    congr 1
    omega
  unfold CutsIn
  simp only [hline]

/-- An offset inside the first line is in that line. -/
lemma lineAt_first {l : Bytes} (h : offset < l.length + 2) (ls : List Bytes) :
    lineAt (l :: ls) offset = some l := if_pos h

/-- Bytes that end inside the head, behind its first line, are some whole lines and the beginning of
the next. -/
lemma exists_next_line {l l' x y v : Bytes} (hle : l.length + 2 ≤ x.length)
    (hbytes : x ++ y = unlines CR LF (l :: ls) ++ v)
    (hl' : lineAt (l :: ls) x.length = some l') :
    ∃ ms ns w, ls = ms ++ l' :: ns ∧ x = l ++ CR :: LF :: (unlines CR LF ms ++ w) ∧
      w ++ y = unlines CR LF (l' :: ns) ++ v ∧ w.length < l'.length + 2 := by
  obtain ⟨ms, ns, heq, hstart, hend⟩ := (Delimited.lineAt_eq_some_iff (a := CR) (b := LF)).mp hl'
  rcases ms with _ | ⟨m, ms⟩
  · obtain ⟨rfl, -⟩ := List.cons.inj heq
    simp only [Delimited.unlines_nil, List.length_nil] at hend
    omega
  · obtain ⟨rfl, rfl⟩ := List.cons.inj heq
    have hlines : unlines CR LF (l :: (ms ++ l' :: ns)) =
        unlines CR LF (l :: ms) ++ unlines CR LF (l' :: ns) :=
      Delimited.unlines_append (l :: ms) (l' :: ns)
    change x ++ y = unlines CR LF (l :: (ms ++ l' :: ns)) ++ v at hbytes
    rw [hlines, List.append_assoc] at hbytes
    obtain ⟨w, rfl, hw⟩ := Delimited.exists_between hbytes hstart
    refine ⟨ms, ns, w, rfl, by simp, hw.symm, ?_⟩
    rw [List.length_append] at hend
    omega

/-- A line that reads as a status line is not the empty line at the end of the head. -/
lemma exists_of_isStatusLine {l : Bytes} {ms ns : List Bytes} (hstatus : IsStatusLine l)
    (h : ls ++ [[]] = ms ++ l :: ns) : ∃ ns', ns = ns' ++ [[]] ∧ ls = ms ++ l :: ns' := by
  rcases List.eq_nil_or_concat ns with rfl | ⟨ns', e, rfl⟩
  · obtain ⟨-, hnil⟩ := List.append_inj' h rfl
    obtain ⟨rfl, -⟩ := List.cons.inj hnil
    exact absurd hstatus (by decide)
  · rw [List.concat_eq_append, ← List.cons_append, ← List.append_assoc] at h
    obtain ⟨h₁, h₂⟩ := List.append_inj' h rfl
    obtain ⟨rfl, -⟩ := List.cons.inj h₂
    exact ⟨ns', List.concat_eq_append, h₁⟩

/-- The beginning of a line has no delimiter. -/
lemma pairFree_of_beginning {l w y v : Bytes} (hl : PairFree CR LF l)
    (h : w ++ y = unlines CR LF (l :: ls) ++ v) (hlen : w.length < l.length + 2) :
    PairFree CR LF w := by
  have hsplit : w ++ y = l ++ CR :: LF :: (unlines CR LF ls ++ v) := by simpa using h
  exact Delimited.pairFree_of_append_eq CR_ne_LF hl hsplit hlen

/-- Cuts behind some whole lines of a head are cuts in the lines that follow. -/
lemma cutsIn_next_iff {l l' x w : Bytes} {ms ns : List Bytes}
    (hx : x = l ++ CR :: LF :: (unlines CR LF ms ++ w)) :
    CutsIn (l :: (ms ++ l' :: ns ++ [[]])) code x.length cs ↔
      CutsIn (l' :: (ns ++ [[]])) code w.length cs := by
  have hoffset : x.length = (unlines CR LF (l :: ms)).length + w.length := by
    rw [hx, Delimited.length_unlines_cons]
    simp only [List.length_append, List.length_cons]
    omega
  have hlines : l :: (ms ++ l' :: ns ++ [[]]) = l :: ms ++ l' :: (ns ++ [[]]) := by simp
  have hge : (unlines CR LF (l :: ms)).length ≤ x.length := by omega
  rw [hlines, cutsIn_append hge, hoffset, Nat.add_sub_cancel_left]

/-- The chunks of one response, from the line `l` of its head on, of which the buffer has the
beginning: where the cuts are harmless, the response is passed on. -/
lemma receiveAll_of_cutsIn {l body : Bytes} (hl : PairFree CR LF l)
    (hls : ∀ l ∈ ls, IsHeaderLine l) (hlen : conn.inputBuffer.length < l.length + 2)
    (hbytes : conn.inputBuffer ++ cs.flatten = unlines CR LF (l :: (ls ++ [[]])) ++ body)
    (hcuts : CutsIn (l :: (ls ++ [[]])) code conn.inputBuffer.length cs) :
    ∃ resp : HttpResponse, resp.statusCode = code ∧ resp.body = body ∧
      receiveAll pool conn cs = .returned (passOn pool resp { conn with inputBuffer := [] }) := by
  induction cs generalizing conn l ls with
  | nil =>
      -- the buffer would have more than the beginning of the line
      have := congrArg List.length hbytes
      rw [List.flatten_nil, List.append_nil, List.length_append,
        Delimited.length_unlines_cons] at this
      omega
  | cons c cs ih =>
      obtain ⟨⟨l', statusCode, hl', hstatus, hcode⟩, hcuts⟩ := cutsIn_cons.mp hcuts
      obtain rfl : l = l' := by
        rw [lineAt_first hlen] at hl'
        exact Option.some.inj hl'
      rw [List.flatten_cons, ← List.append_assoc] at hbytes
      rcases cs with _ | ⟨d, ds⟩
      · -- the last chunk completes the response
        rw [List.flatten_nil, List.append_nil] at hbytes
        have hclosed : conn.inputBuffer ++ c =
            l ++ CR :: LF :: (unlines CR LF ls ++ ([] ++ CR :: LF :: body)) := by
          simpa using hbytes
        obtain ⟨resp, hresp, hbody, h⟩ := receiveChunk_closed hclosed hl hstatus hls isEndLine_nil
        exact ⟨resp, hresp.trans (hcode rfl), hbody, by rw [receiveAll_cons h, receiveAll]⟩
      · by_cases hshort : (conn.inputBuffer ++ c).length < l.length + 2
        · -- the line is still incomplete
          have hfree := pairFree_of_beginning hl hbytes hshort
          obtain ⟨resp, hresp, hbody, h⟩ :=
            @ih { conn with inputBuffer := conn.inputBuffer ++ c } ls l hl hls hshort hbytes
              (by rwa [← List.length_append] at hcuts)
          exact ⟨resp, hresp, hbody, by rw [receiveAll_cons (receiveChunk_wait hfree), h]⟩
        · -- what was read of the head is gone; the line of the cut has to be a status line
          rw [← List.length_append] at hcuts
          obtain ⟨⟨l', statusCode', hl', hstatus', -⟩, -⟩ := cutsIn_cons.mp hcuts
          obtain ⟨ms, ns, w, heq, hx, hw, hwlen⟩ :=
            exists_next_line (not_lt.mp hshort) hbytes hl'
          obtain ⟨ns', rfl, rfl⟩ := exists_of_isStatusLine (by simp [IsStatusLine, hstatus']) heq
          have hl'free : PairFree CR LF l' := (hls l' (by simp)).1
          have hfree := pairFree_of_beginning hl'free hw hwlen
          have hstep : receiveChunk pool _ _ = .returned _ :=
            receiveChunk_open hx hl hstatus (fun m hm => hls m (by simp [hm])) hfree
          obtain ⟨resp, hresp, hbody, h⟩ := @ih { conn with inputBuffer := w } ns' l' hl'free
            (fun m hm => hls m (by simp [hm])) hwlen hw ((cutsIn_next_iff hx).mp hcuts)
          exact ⟨resp, hresp, hbody, by rw [receiveAll_cons hstep, h]⟩

/-- The status and the body of a response. -/
def outcome (resp : HttpResponse) : HttpStatusCode × Bytes := (resp.statusCode, resp.body)

/-- Bytes that end inside the head, behind its first line, end in the empty line, or in a header
line. -/
lemma head_cut_cases {l x y v : Bytes} (hle : l.length + 2 ≤ x.length)
    (hlt : x.length < (unlines CR LF (l :: (ls ++ [[]]))).length)
    (hbytes : x ++ y = unlines CR LF (l :: (ls ++ [[]])) ++ v) :
    (∃ w, x = l ++ CR :: LF :: (unlines CR LF ls ++ w) ∧ w ++ y = CR :: LF :: v ∧
      w.length < 2) ∨
    ∃ ms l' ns w, ls = ms ++ l' :: ns ∧ x = l ++ CR :: LF :: (unlines CR LF ms ++ w) ∧
      w ++ y = unlines CR LF (l' :: (ns ++ [[]])) ++ v ∧ w.length < l'.length + 2 := by
  obtain ⟨l', hl'⟩ := Delimited.exists_lineAt hlt
  obtain ⟨ms, ns, w, heq, hx, hw, hwlen⟩ := exists_next_line hle hbytes hl'
  rcases List.eq_nil_or_concat ns with rfl | ⟨ns', e, rfl⟩
  · left
    obtain ⟨rfl, hnil⟩ := List.append_inj' heq rfl
    obtain rfl : [] = l' := (List.cons.inj hnil).1
    exact ⟨w, hx, by simpa using hw, hwlen⟩
  · right
    rw [List.concat_eq_append] at heq hw
    have hsplit : ls ++ [[]] = (ms ++ l' :: ns') ++ [e] := by simpa using heq
    obtain ⟨rfl, hlast⟩ := List.append_inj' hsplit rfl
    obtain rfl : [] = e := (List.cons.inj hlast).1
    exact ⟨ms, l', ns', w, rfl, hx, hw, hwlen⟩

/-- The chunks begin with those of one response, which are cut harmlessly and leave an empty
buffer; from there the others, which have the bytes `v`, lead to `conn'`. -/
def Divided (pool : Bool) (conn conn' : ClientConnection) (lines : List Bytes) (code : HttpStatusCode)
    (body v : Bytes) (cs : List Bytes) : Prop :=
  ∃ cs₁ cs₂ conn₁, cs = cs₁ ++ cs₂ ∧ cs₁ ≠ [] ∧
    conn.inputBuffer ++ cs₁.flatten = unlines CR LF lines ++ body ∧
    CutsIn lines code conn.inputBuffer.length cs₁ ∧
    receiveAll pool conn₁ cs₂ = .returned conn' ∧ conn₁.inputBuffer = [] ∧ cs₂.flatten = v ∧
    (passed pool conn₁).map outcome = (passed pool conn).map outcome ++ [(code, body)]

section Divided

variable {l body v c : Bytes} {statusCode : ℤ}

/-- A chunk that ends inside the line may come in front of divided chunks. -/
lemma Divided.cons_of_wait (hshort : (conn.inputBuffer ++ c).length < l.length + 2)
    (h : Divided pool { conn with inputBuffer := conn.inputBuffer ++ c } conn' (l :: ls) code body v
      cs) :
    Divided pool conn conn' (l :: ls) code body v (c :: cs) := by
  obtain ⟨cs₁, cs₂, conn₁, rfl, hne, hbytes, hcuts, hrest⟩ := h
  obtain ⟨d, ds, rfl⟩ := List.exists_cons_of_ne_nil hne
  -- the line is a status line, since the next chunk starts in it
  obtain ⟨⟨l', statusCode, hl', hstatus, -⟩, -⟩ := cutsIn_cons.mp hcuts
  obtain rfl : l = l' := by
    rw [lineAt_first hshort] at hl'
    exact Option.some.inj hl'
  have hlen : conn.inputBuffer.length < l.length + 2 := by
    rw [List.length_append] at hshort
    omega
  refine ⟨c :: d :: ds, cs₂, conn₁, rfl, by simp, by simpa using hbytes, ?_, hrest⟩
  refine cutsIn_cons.mpr ⟨⟨l, statusCode, lineAt_first hlen ls, hstatus, by simp⟩, ?_⟩
  rw [← List.length_append]
  exact hcuts

/-- A chunk that ends inside a later line may come in front of divided chunks when the line reads as
a status line. -/
lemma Divided.cons_of_open {l' w : Bytes} {ms ns : List Bytes}
    (hlen : conn.inputBuffer.length < l.length + 2)
    (hstatus : HttpContext.statusOfLine l = some statusCode)
    (hx : conn.inputBuffer ++ c = l ++ CR :: LF :: (unlines CR LF ms ++ w))
    (h : Divided pool { conn with inputBuffer := w } conn' (l' :: (ns ++ [[]])) code body v cs) :
    Divided pool conn conn' (l :: (ms ++ l' :: ns ++ [[]])) code body v (c :: cs) := by
  obtain ⟨cs₁, cs₂, conn₁, rfl, hne, hbytes, hcuts, hrest⟩ := h
  refine ⟨c :: cs₁, cs₂, conn₁, rfl, by simp, ?_, ?_, hrest⟩
  · rw [List.flatten_cons, ← List.append_assoc, hx]
    simp only at hbytes
    simp [hbytes]
  · refine cutsIn_cons.mpr ⟨⟨l, statusCode, lineAt_first hlen _, hstatus,
      fun hnil => absurd hnil hne⟩, ?_⟩
    rw [← List.length_append]
    exact (cutsIn_next_iff hx).mpr hcuts

/-- A chunk that completes the head passes a response on, which has to be this one. -/
lemma divided_of_closed {more : List (HttpStatusCode × Bytes)} (hl : PairFree CR LF l)
    (hls : ∀ l ∈ ls, IsHeaderLine l) (hlen : conn.inputBuffer.length < l.length + 2)
    (hstatus : HttpContext.statusOfLine l = some statusCode)
    (hhead : (unlines CR LF (l :: (ls ++ [[]]))).length ≤ (conn.inputBuffer ++ c).length)
    (hbytes : conn.inputBuffer ++ c ++ cs.flatten =
      unlines CR LF (l :: (ls ++ [[]])) ++ (body ++ v))
    (h : receiveAll pool conn (c :: cs) = .returned conn')
    (hmore : (passed pool conn').map outcome =
      (passed pool conn).map outcome ++ (code, body) :: more) :
    Divided pool conn conn' (l :: (ls ++ [[]])) code body v (c :: cs) := by
  obtain ⟨w, hw, hrest⟩ := Delimited.exists_between hbytes hhead
  have hclosed : conn.inputBuffer ++ c =
      l ++ CR :: LF :: (unlines CR LF ls ++ ([] ++ CR :: LF :: w)) := by
    simpa using hw
  obtain ⟨resp, hcode, hbody, hstep⟩ := receiveChunk_closed hclosed hl hstatus hls isEndLine_nil
  rw [receiveAll_cons hstep] at h
  obtain ⟨⟨resps, hresps⟩, -⟩ := receiveAll_mono h
  have hresp : outcome resp = (code, body) := by
    rw [hresps, passed_passOn] at hmore
    simp only [passed_setEndpoint, List.map_append, List.map_cons, List.map_nil, List.append_assoc,
      List.append_cancel_left_eq] at hmore
    exact (List.cons.inj hmore).1
  obtain ⟨rfl, rfl⟩ := Prod.mk.inj hresp
  subst hbody
  refine ⟨[c], cs, _, rfl, by simp, by simpa using hw, ?_, h, by simp, ?_, by simp [hresp]⟩
  · exact cutsIn_cons.mpr ⟨⟨l, statusCode, lineAt_first hlen _, hstatus, fun _ => hcode.symm⟩,
      cutsIn_nil⟩
  · exact (List.append_cancel_left hrest).symm

/-- A line that is complete and no status line shuts the connection down. -/
lemma state_ne_of_refused (hl : PairFree CR LF l) (hline : ¬ IsStatusLine l)
    (hle : l.length + 2 ≤ (conn.inputBuffer ++ c).length)
    (hbytes : conn.inputBuffer ++ c ++ cs.flatten = l ++ CR :: LF :: v)
    (h : receiveAll pool conn (c :: cs) = .returned conn') : conn'.state ≠ .kConnected := by
  have hsplit : conn.inputBuffer ++ c ++ cs.flatten = l ++ [CR, LF] ++ v := by simpa using hbytes
  obtain ⟨w, hw, -⟩ := Delimited.exists_between hsplit (by simpa using hle)
  have hw' : conn.inputBuffer ++ c = l ++ CR :: LF :: w := by simpa using hw
  obtain ⟨conn₁, hstep, hdown⟩ := receiveChunk_refused hw' hl hline
  rw [receiveAll_cons hstep] at h
  exact fun hstate => hdown ((receiveAll_mono h).2 hstate)

end Divided

/-- A cut in the empty line that ends a head shuts the connection down. -/
lemma state_ne_of_cut_in_end (hlen : conn.inputBuffer.length < 2) {v : Bytes}
    (hbytes : conn.inputBuffer ++ cs.flatten = CR :: LF :: v)
    (h : receiveAll pool conn cs = .returned conn') : conn'.state ≠ .kConnected := by
  induction cs generalizing conn with
  | nil =>
      have := congrArg List.length hbytes
      simp only [List.flatten_nil, List.append_nil, List.length_cons] at this
      omega
  | cons c cs ih =>
      rw [List.flatten_cons, ← List.append_assoc] at hbytes
      by_cases hshort : (conn.inputBuffer ++ c).length < 2
      · have hfree : PairFree CR LF (conn.inputBuffer ++ c) :=
          Delimited.pairFree_of_append_eq CR_ne_LF Delimited.pairFree_nil hbytes hshort
        rw [receiveAll_cons (receiveChunk_wait hfree)] at h
        exact @ih { conn with inputBuffer := conn.inputBuffer ++ c } hshort hbytes h
      · -- the empty line is complete, and is no status line
        exact state_ne_of_refused Delimited.pairFree_nil (by decide) (not_lt.mp hshort) hbytes h

/-- Where the next response passed on is this one, there are chunks that have its bytes, and their
cuts are harmless. -/
lemma divided_of_receiveAll {l body v : Bytes} {more : List (HttpStatusCode × Bytes)}
    (hl : PairFree CR LF l) (hls : ∀ l ∈ ls, IsHeaderLine l)
    (hlen : conn.inputBuffer.length < l.length + 2)
    (hbytes : conn.inputBuffer ++ cs.flatten = unlines CR LF (l :: (ls ++ [[]])) ++ (body ++ v))
    (h : receiveAll pool conn cs = .returned conn') (hstate : conn'.state = .kConnected)
    (hmore : (passed pool conn').map outcome =
      (passed pool conn).map outcome ++ (code, body) :: more) :
    Divided pool conn conn' (l :: (ls ++ [[]])) code body v cs := by
  induction cs generalizing conn l ls with
  | nil =>
      exfalso
      have := congrArg List.length hbytes
      rw [List.flatten_nil, List.append_nil, List.length_append,
        Delimited.length_unlines_cons] at this
      omega
  | cons c cs ih =>
      rw [List.flatten_cons, ← List.append_assoc] at hbytes
      by_cases hshort : (conn.inputBuffer ++ c).length < l.length + 2
      · -- the line is still incomplete
        have hfree := pairFree_of_beginning hl hbytes hshort
        rw [receiveAll_cons (receiveChunk_wait hfree)] at h
        exact .cons_of_wait hshort
          (@ih { conn with inputBuffer := conn.inputBuffer ++ c } ls l hl hls hshort hbytes h hmore)
      · have hle := not_lt.mp hshort
        -- the line is complete: it is a status line, or the connection is shut down
        by_cases hline : IsStatusLine l
        · obtain ⟨statusCode, hstatus⟩ := Option.ne_none_iff_exists'.mp hline
          by_cases hhead :
            (conn.inputBuffer ++ c).length < (unlines CR LF (l :: (ls ++ [[]]))).length
          · rcases head_cut_cases hle hhead hbytes with ⟨w, hx, hw, hwlen⟩ |
              ⟨ms, l', ns, w, rfl, hx, hw, hwlen⟩
            · -- the cut is in the empty line
              have hfree : PairFree CR LF w :=
                Delimited.pairFree_of_append_eq CR_ne_LF Delimited.pairFree_nil hw hwlen
              rw [receiveAll_cons (receiveChunk_open hx hl hstatus hls hfree)] at h
              exact absurd hstate
                (@state_ne_of_cut_in_end pool { conn with inputBuffer := w } conn' cs hwlen _ hw h)
            · -- the cut is in a header line, which is read as a status line next
              have hl'free : PairFree CR LF l' := (hls l' (by simp)).1
              have hfree := pairFree_of_beginning hl'free hw hwlen
              have hms : ∀ m ∈ ms, IsHeaderLine m := fun m hm => hls m (by simp [hm])
              rw [receiveAll_cons (receiveChunk_open hx hl hstatus hms hfree)] at h
              exact .cons_of_open hlen hstatus hx (@ih { conn with inputBuffer := w } ns l' hl'free
                (fun m hm => hls m (by simp [hm])) hwlen hw h hmore)
          · exact divided_of_closed hl hls hlen hstatus (not_lt.mp hhead) hbytes h hmore
        · have hbytes' : conn.inputBuffer ++ c ++ cs.flatten =
              l ++ CR :: LF :: (unlines CR LF (ls ++ [[]]) ++ (body ++ v)) := by
            simpa using hbytes
          exact absurd hstate (state_ne_of_refused hl hline hle hbytes' h)

/-! ## A list of responses -/

/-- The chunks have the bytes of the response, and every cut falls into a line of the head that
reads as a status line, the last one into a line with the response's own status. -/
def HarmlessCuts (resp : HttpResponse) (cs : List Bytes) : Prop :=
  ∃ line ls, resp.HasLines line ls ∧ cs.flatten = resp.text ∧
    CutsIn (line :: (ls ++ [[]])) resp.statusCode 0 cs

/-- The chunks end where the responses end, and the cuts inside each response are harmless. -/
def Harmless (resps : List HttpResponse) (cs : List Bytes) : Prop :=
  ∃ css, cs = css.flatten ∧ List.Forall₂ HarmlessCuts resps css

/-- The text of a response consists of its lines. -/
lemma HasLines.text_eq {resp : HttpResponse} {line : Bytes} (h : resp.HasLines line ls) :
    resp.text = unlines CR LF (line :: (ls ++ [[]])) ++ resp.body := by
  rw [resp.text_eq, h.1]
  simp [headText]

/-- Harmless cuts deliver every response, in order. -/
lemma receiveAll_of_harmless {resps : List HttpResponse} {css : List (List Bytes)}
    (h : List.Forall₂ HarmlessCuts resps css) (hbuf : conn.inputBuffer = []) :
    ∃ conn', receiveAll pool conn css.flatten = .returned conn' ∧ conn'.state = conn.state ∧
      (passed pool conn').map outcome = (passed pool conn).map outcome ++ resps.map outcome := by
  induction h generalizing conn with
  | nil => exact ⟨conn, rfl, rfl, by simp⟩
  | @cons resp cs resps css hcuts _ ih =>
      obtain ⟨line, ls, hlines, hbytes, hcuts⟩ := hcuts
      have hbytes' : conn.inputBuffer ++ cs.flatten =
          unlines CR LF (line :: (ls ++ [[]])) ++ resp.body := by
        rw [hbuf, hbytes, HasLines.text_eq hlines, List.nil_append]
      obtain ⟨resp', hcode, hbody, hone⟩ := receiveAll_of_cutsIn hlines.2.1 hlines.2.2
        (by simp [hbuf]) hbytes' (by simpa [hbuf] using hcuts)
      obtain ⟨conn', hall, hstate, hresps⟩ :=
        @ih (passOn pool resp' { conn with inputBuffer := [] }) (by simp)
      refine ⟨conn', ?_, by simpa using hstate, ?_⟩
      · rw [List.flatten_cons, receiveAll_append, hone, Outcome.returned_bind, hall]
      · rw [hresps]
        simp [outcome, hcode, hbody]

/-- Cuts are harmless in plain heads only. -/
lemma plainHead_of_harmless {resps : List HttpResponse} {css : List (List Bytes)}
    (h : List.Forall₂ HarmlessCuts resps css) : ∀ resp ∈ resps, resp.PlainHead := by
  induction h with
  | nil => simp
  | cons hcuts _ ih =>
      obtain ⟨line, ls, hlines, -⟩ := hcuts
      exact List.forall_mem_cons.mpr ⟨⟨line, ls, hlines⟩, ih⟩

/-- Responses with plain heads that are delivered, each once and in order, were cut harmlessly. -/
lemma harmless_of_receiveAll {resps : List HttpResponse}
    (hplain : ∀ resp ∈ resps, resp.PlainHead) (hbuf : conn.inputBuffer = [])
    (hne : ∀ c ∈ cs, c ≠ []) (hbytes : cs.flatten = resps.flatMap HttpResponse.text)
    (h : receiveAll pool conn cs = .returned conn') (hstate : conn'.state = .kConnected)
    (hout : (passed pool conn').map outcome = (passed pool conn).map outcome ++ resps.map outcome) :
    Harmless resps cs := by
  induction resps generalizing conn cs with
  | nil =>
      obtain rfl : cs = [] := by
        rcases cs with _ | ⟨c, cs⟩
        · rfl
        · simp only [List.flatten_cons, List.flatMap_nil, List.append_eq_nil_iff] at hbytes
          exact absurd hbytes.1 (hne c (by simp))
      exact ⟨[], rfl, .nil⟩
  | cons resp resps ih =>
      obtain ⟨line, ls, hlines⟩ := hplain resp (by simp)
      have hbytes' : conn.inputBuffer ++ cs.flatten = unlines CR LF (line :: (ls ++ [[]])) ++
          (resp.body ++ resps.flatMap HttpResponse.text) := by
        rw [hbuf, hbytes, List.flatMap_cons, HasLines.text_eq hlines]
        simp
      obtain ⟨cs₁, cs₂, conn₁, rfl, -, hbytes₁, hcuts, hrest, hbuf₁, hbytes₂, hresps⟩ :=
        divided_of_receiveAll hlines.2.1 hlines.2.2 (by simp [hbuf]) hbytes' h hstate
          (by simpa [outcome] using hout)
      obtain ⟨css, rfl, hcss⟩ := ih (fun r hr => hplain r (by simp [hr])) hbuf₁
        (fun c hc => hne c (by simp [hc])) hbytes₂ hrest (by rw [hout, hresps]; simp [outcome])
      refine ⟨cs₁ :: css, rfl, .cons ⟨line, ls, hlines, ?_, ?_⟩ hcss⟩
      · rw [HasLines.text_eq hlines, ← hbytes₁, hbuf, List.nil_append]
      · simpa [hbuf] using hcuts

/-! ## The client -/

/-- The connection but for what was sent on it: `onMessage` can send a queued request behind every
chunk, which changes nothing for the responses. -/
def forgetSent (conn : ClientConnection) : ClientConnection :=
  { conn with sent := [] }

/-- Which is not the state, nor what was passed on. -/
lemma same_of_forgetSent (pool : Bool) (h : forgetSent conn = forgetSent conn') :
    conn.state = conn'.state ∧ passed pool conn = passed pool conn' := by
  unfold forgetSent at h
  injection h with hendpoint hresponses hsubmitted
  injection hendpoint with hstate
  exact ⟨hstate, by rw [passed, passed, hresponses, hsubmitted]⟩

/-- What was sent on it does not count for a response. -/
lemma forgetSent_passOn (resp : HttpResponse) :
    forgetSent (passOn pool resp conn) = passOn pool resp (forgetSent conn) := by
  unfold passOn
  split <;> rfl

/-- What was sent does not matter to how a chunk is received. -/
lemma receiveChunk_forgetSent (h : receiveChunk pool conn chunk = .returned conn') :
    receiveChunk pool (forgetSent conn) chunk = .returned (forgetSent conn') := by
  have hbuf : ∀ buf : Bytes, ({ forgetSent conn with inputBuffer := buf } : ClientConnection) =
      forgetSent { conn with inputBuffer := buf } := fun _ => rfl
  unfold receiveChunk handleResponse at h ⊢
  show (HttpContext.parseResponse {} (conn.inputBuffer ++ chunk)).map _ = _
  rcases hp : HttpContext.parseResponse {} (conn.inputBuffer ++ chunk) with p | _ | _ <;>
    simp only [hp, Outcome.map, reduceCtorEq, Outcome.returned.injEq] at h ⊢
  subst h
  by_cases hok : p.ok = true
  · by_cases hgot : p.context.gotAll = true
    · simp only [hok, hgot, if_true, forgetSent_passOn]
      rfl
    · simp only [hok, hgot, if_true]
      rfl
  · simp only [hok]
    unfold Endpoint.shutdown forgetSent
    by_cases hstate : conn.state = .kConnected
    · simp [hstate]
    · simp [hstate]

/-- A connection that sends is the same but for what was sent. -/
lemma forgetSent_send (conn : ClientConnection) (message : Bytes) :
    forgetSent { conn with toEndpoint := conn.toEndpoint.send message } = forgetSent conn := by
  unfold forgetSent Endpoint.send
  split <;> rfl

/-- A request sent leaves every connection as it is, but for what was sent on it. -/
lemma sendRequest_connections (client : HttpClient) (r : HttpRequest × ℕ) (k : ℕ) :
    (client.sendRequest r).connections[k]?.map forgetSent =
      client.connections[k]?.map forgetSent := by
  unfold sendRequest
  split
  · next i _ =>
    by_cases hcur : client.currentConnected = true
    · rw [if_pos hcur]
      simp only [modifyEndpoint, List.getElem?_modify]
      rcases client.connections[k]? with _ | conn
      · rfl
      · by_cases hi : i = k
        · simp [hi, forgetSent_send]
        · simp [hi]
    · rw [if_neg hcur]
  · rfl

/-- Sending the front of the queue leaves every connection as it is, but for what was sent on it. -/
lemma sendFront_connections (client : HttpClient) (k : ℕ) :
    client.sendFront.connections[k]?.map forgetSent = client.connections[k]?.map forgetSent := by
  unfold sendFront
  split
  · rfl
  · rw [sendRequest_connections]

/-- Sending the front of the queue leaves `useThreadPool_` as it is. -/
lemma sendFront_useThreadPool (client : HttpClient) :
    client.sendFront.useThreadPool = client.useThreadPool := by
  unfold sendFront sendRequest
  rcases client.requests with _ | ⟨r, rs⟩
  · rfl
  · rcases client.connection with _ | k
    · rfl
    · dsimp only
      split <;> rfl

/-- A readable event of the connection `k`, with the whole of `onMessage`. -/
def deliver (client : HttpClient) (k : ℕ) (chunk : Bytes) : Option HttpClient :=
  (client.step (.receive k chunk)).bind fun client => client.step .drain

/-- The chunks arrive on the connection `k`, one after the other. -/
def deliverAll (client : HttpClient) (k : ℕ) : List Bytes → Option HttpClient
  | [] => some client
  | chunk :: cs => (client.deliver k chunk).bind fun client' => deliverAll client' k cs

variable {client : HttpClient} {k : ℕ}

/-- The client hands a chunk to a connection that is up, which receives it. -/
lemma deliver_of_receiveChunk (hpool : client.useThreadPool = pool) (hidle : client.point = .idle)
    (hk : client.connections[k]? = some conn)
    (hup : conn.state = .kConnected ∨ conn.state = .kDisconnecting)
    (h : receiveChunk pool conn chunk = .returned conn') :
    ∃ client', client.deliver k chunk = some client' ∧ client'.useThreadPool = pool ∧
      client'.point = .idle ∧ client'.connections[k]?.map forgetSent = some (forgetSent conn') := by
  have hlt : k < client.connections.length := (List.getElem?_eq_some_iff.mp hk).1
  refine ⟨{ sendFront { client with
    connections := client.connections.set k conn'
    point := .message k } with point := .idle }, ?_, ?_, rfl, ?_⟩
  · simp [deliver, step, hidle, hk, hup, hpool, h]
  · exact (sendFront_useThreadPool _).trans hpool
  · refine (sendFront_connections _ k).trans ?_
    simp [hlt]

/-- A chunk does not take a connection down that is up. -/
lemma receiveChunk_up (hup : conn.state = .kConnected ∨ conn.state = .kDisconnecting)
    (h : receiveChunk pool conn chunk = .returned conn') :
    conn'.state = .kConnected ∨ conn'.state = .kDisconnecting := by
  unfold receiveChunk handleResponse at h
  rcases hp : HttpContext.parseResponse {} (conn.inputBuffer ++ chunk) with p | _ | _ <;>
    simp only [hp, Outcome.map, reduceCtorEq, Outcome.returned.injEq] at h
  subst h
  by_cases hok : p.ok = true
  · by_cases hgot : p.context.gotAll = true
    · simpa [hok, hgot] using hup
    · simpa [hok, hgot] using hup
  · rw [if_neg hok]
    unfold Endpoint.shutdown
    rcases hup with hc | hd
    · simp [hc]
    · simp [hd]

/-- All chunks, through the client, leave the connection as `receiveAll` does, but for what was sent
on it. -/
lemma deliverAll_of_receiveAll (hpool : client.useThreadPool = pool)
    (hidle : client.point = .idle)
    (hk : client.connections[k]?.map forgetSent = some (forgetSent conn))
    (hup : conn.state = .kConnected ∨ conn.state = .kDisconnecting)
    (h : receiveAll pool conn cs = .returned conn') :
    ∃ client', client.deliverAll k cs = some client' ∧
      client'.connections[k]?.map forgetSent = some (forgetSent conn') := by
  induction cs generalizing client conn with
  | nil =>
      obtain rfl := Outcome.returned.inj h
      exact ⟨client, rfl, hk⟩
  | cons c cs ih =>
      obtain ⟨conn₀, hk₀, hsame⟩ := Option.map_eq_some_iff.mp hk
      obtain ⟨conn₁, -, hc, -⟩ := receiveChunk_returns pool conn c
      obtain ⟨conn₂, -, hc₀, -⟩ := receiveChunk_returns pool conn₀ c
      rw [receiveAll_cons hc] at h
      -- the two connections differ in what was sent, before the chunk and behind it
      have hsame' : forgetSent conn₂ = forgetSent conn₁ := by
        have h₁ := receiveChunk_forgetSent hc
        have h₂ := receiveChunk_forgetSent hc₀
        rw [hsame, h₁] at h₂
        exact (Outcome.returned.inj h₂).symm
      have hup₀ : conn₀.state = .kConnected ∨ conn₀.state = .kDisconnecting := by
        rwa [(same_of_forgetSent pool hsame).1]
      obtain ⟨client', hstep, hpool', hidle', hk'⟩ :=
        deliver_of_receiveChunk hpool hidle hk₀ hup₀ hc₀
      rw [hsame'] at hk'
      obtain ⟨client'', hall, hk''⟩ := ih hpool' hidle' hk' (receiveChunk_up hup hc) h
      exact ⟨client'', by rw [deliverAll, hstep, Option.bind_some, hall], hk''⟩

/-- The chunks are handled, the list that `list` reads off the connection gets each response once
and in order, and the connection is not shut down: `shutdown` would have left the state
`kConnected`, which no chunk brings back. -/
def Gets (list : ClientConnection → List HttpResponse) (client : HttpClient) (k : ℕ)
    (resps : List HttpResponse) (cs : List Bytes) : Prop :=
  ∃ client' conn conn', client.deliverAll k cs = some client' ∧
    client.connections[k]? = some conn ∧ client'.connections[k]? = some conn' ∧
    conn'.state = .kConnected ∧
    (list conn').map outcome = (list conn).map outcome ++ resps.map outcome

instance (list : ClientConnection → List HttpResponse) (client : HttpClient) (k : ℕ)
    (resps : List HttpResponse) (cs : List Bytes) : Decidable (Gets list client k resps cs) :=
  decidable_of_iff
    (((client.deliverAll k cs).any fun client' => client.connections[k]?.any fun conn =>
      client'.connections[k]?.any fun conn' => conn'.state = .kConnected ∧
        (list conn').map outcome = (list conn).map outcome ++ resps.map outcome) = true)
    (by simp [Gets, Option.any_eq_true])

/-- `httpResponseCallback_` is called for each response, once and in order, and the connection is
not shut down. -/
def Delivered (client : HttpClient) (k : ℕ) (resps : List HttpResponse) (cs : List Bytes) : Prop :=
  Gets ClientConnection.responses client k resps cs

instance (client : HttpClient) (k : ℕ) (resps : List HttpResponse) (cs : List Bytes) :
    Decidable (Delivered client k resps cs) :=
  inferInstanceAs (Decidable (Gets _ _ _ _ _))

/-- A task is submitted for each response, once and in order, and the connection is not shut
down. -/
def Submitted (client : HttpClient) (k : ℕ) (resps : List HttpResponse) (cs : List Bytes) : Prop :=
  Gets ClientConnection.submitted client k resps cs

/-- The client passes on what the connection alone passes on. -/
lemma gets_passed_iff {resps : List HttpResponse} (hpool : client.useThreadPool = pool)
    (hidle : client.point = .idle) (hk : client.connections[k]? = some conn)
    (hstate : conn.state = .kConnected) :
    Gets (passed pool) client k resps cs ↔ ∃ conn', receiveAll pool conn cs = .returned conn' ∧
      conn'.state = .kConnected ∧
      (passed pool conn').map outcome = (passed pool conn).map outcome ++ resps.map outcome := by
  obtain ⟨conn₁, h₁⟩ := receiveAll_returns pool conn cs
  obtain ⟨client₁, hall, hk₁⟩ :=
    deliverAll_of_receiveAll hpool hidle (by rw [hk]; rfl) (.inl hstate) h₁
  obtain ⟨conn₂, hk₂, hsame⟩ := Option.map_eq_some_iff.mp hk₁
  obtain ⟨hup, hresps⟩ := same_of_forgetSent pool hsame
  constructor
  · rintro ⟨client', conn₀, conn', hall', hk₀, hk', hstate', hout⟩
    obtain rfl : client₁ = client' := by simpa [hall] using hall'
    obtain rfl : conn = conn₀ := by simpa [hk] using hk₀
    obtain rfl : conn₂ = conn' := by simpa [hk₂] using hk'
    exact ⟨conn₁, h₁, by rwa [← hup], by rwa [← hresps]⟩
  · rintro ⟨conn', h, hstate', hout⟩
    obtain rfl : conn₁ = conn' := by simpa [h₁] using h
    exact ⟨client₁, conn, conn₂, hall, hk, hk₂, by rwa [hup], by rwa [hresps]⟩

/-- Harmless cuts in plain heads are what it takes, with and without the thread pool. -/
lemma gets_passed_iff_harmless {resps : List HttpResponse} (hpool : client.useThreadPool = pool)
    (hidle : client.point = .idle) (hk : client.connections[k]? = some conn)
    (hstate : conn.state = .kConnected) (hbuf : conn.inputBuffer = []) (hne : ∀ c ∈ cs, c ≠ [])
    (hbytes : cs.flatten = resps.flatMap HttpResponse.text) :
    (Gets (passed pool) client k resps cs ∧ ∀ resp ∈ resps, resp.PlainHead) ↔
      Harmless resps cs := by
  rw [gets_passed_iff hpool hidle hk hstate]
  constructor
  · rintro ⟨⟨conn', hall, hstate', hout⟩, hplain⟩
    exact harmless_of_receiveAll hplain hbuf hne hbytes hall hstate' hout
  · intro h
    obtain ⟨css, rfl, hcss⟩ := h
    obtain ⟨conn', hall, hstate', hout⟩ := receiveAll_of_harmless hcss hbuf
    exact ⟨⟨conn', hall, hstate'.trans hstate, hout⟩, plainHead_of_harmless hcss⟩

/-- **When the client decodes the responses of a server.** For a client without the thread pool, on
a connection that is up, with an empty buffer, for every list of responses and every division of
their bytes into non-empty chunks: chunks that end where the responses end, with harmless cuts
inside each, deliver every response once and in order, with its status and body, and do not shut the
connection down; and where the heads are plain, no other chunks do. -/
theorem delivered_iff_harmless (client : HttpClient) (k : ℕ) (conn : ClientConnection)
    (resps : List HttpResponse) (cs : List Bytes) (hpool : client.useThreadPool = false)
    (hidle : client.point = .idle) (hk : client.connections[k]? = some conn)
    (hstate : conn.state = .kConnected) (hbuf : conn.inputBuffer = []) (hne : ∀ c ∈ cs, c ≠ [])
    (hbytes : cs.flatten = resps.flatMap HttpResponse.text) :
    (Delivered client k resps cs ∧ ∀ resp ∈ resps, resp.PlainHead) ↔ Harmless resps cs :=
  gets_passed_iff_harmless hpool hidle hk hstate hbuf hne hbytes

/-- **With the thread pool** the same chunks submit a task for every response, once and in order.
Whether, when and in which order the tasks run is the pool's business: with `maxThreadPoolSize_`
left at its default of 0 none runs. -/
theorem submitted_iff_harmless (client : HttpClient) (k : ℕ) (conn : ClientConnection)
    (resps : List HttpResponse) (cs : List Bytes) (hpool : client.useThreadPool = true)
    (hidle : client.point = .idle) (hk : client.connections[k]? = some conn)
    (hstate : conn.state = .kConnected) (hbuf : conn.inputBuffer = []) (hne : ∀ c ∈ cs, c ≠ [])
    (hbytes : cs.flatten = resps.flatMap HttpResponse.text) :
    (Submitted client k resps cs ∧ ∀ resp ∈ resps, resp.PlainHead) ↔ Harmless resps cs :=
  gets_passed_iff_harmless hpool hidle hk hstate hbuf hne hbytes

/-- A client with one connection, which is up. -/
def upClient : HttpClient :=
  { connections := [{}], connection := some 0, connected := true }

/-- A response as the server sends it. -/
def okResponse (body : Bytes) : HttpResponse :=
  { statusCode := .k200Ok, statusMessage := lit "OK", body := body }

/-- Two responses, the first one cut in its status line. -/
theorem delivered_two_responses :
    Delivered upClient 0 [okResponse (lit "hi"), okResponse []]
        [lit "HTTP/", (okResponse (lit "hi")).text.drop 5, (okResponse []).text] ∧
      ∀ resp ∈ [okResponse (lit "hi"), okResponse []], resp.PlainHead := by
  refine (delivered_iff_harmless upClient 0 {} _ _ rfl rfl rfl rfl rfl (by decide) (by decide)).mpr
    ⟨[[lit "HTTP/", (okResponse (lit "hi")).text.drop 5], [(okResponse []).text]], rfl,
      .cons ⟨lit "HTTP/1.1 200 OK", [lit "Content-Length: 2", lit "Connection: Keep-Alive"],
        ⟨by decide, by decide, by decide⟩, by decide, ?_⟩
      (.cons ⟨lit "HTTP/1.1 200 OK", [lit "Content-Length: 0", lit "Connection: Keep-Alive"],
        ⟨by decide, by decide, by decide⟩, by decide, ?_⟩ .nil)⟩
  · refine cutsIn_cons.mpr ⟨⟨lit "HTTP/1.1 200 OK", 200, by decide, by decide, by decide⟩, ?_⟩
    exact cutsIn_cons.mpr ⟨⟨lit "HTTP/1.1 200 OK", 200, by decide, by decide, by decide⟩,
      cutsIn_nil⟩
  · exact cutsIn_cons.mpr ⟨⟨lit "HTTP/1.1 200 OK", 200, by decide, by decide, by decide⟩,
      cutsIn_nil⟩

/-- A cut in the body ends the body there, a cut in the header lines shuts the connection down,
and a response behind another one in the same chunk is taken for its body. -/
theorem not_delivered_when_cut :
    (okResponse (lit "hi")).closeConnection = false ∧
    (okResponse (lit "hi")).text = (okResponse (lit "hi")).head ++ lit "h" ++ lit "i" ∧
    ¬ Delivered upClient 0 [okResponse (lit "hi")]
      [(okResponse (lit "hi")).head ++ lit "h", lit "i"] ∧
    ¬ Delivered upClient 0 [okResponse (lit "hi")]
      [(okResponse (lit "hi")).text.take 20, (okResponse (lit "hi")).text.drop 20] ∧
    ¬ Delivered upClient 0 [okResponse (lit "hi"), okResponse (lit "hi")]
      [(okResponse (lit "hi")).text ++ (okResponse (lit "hi")).text] := by
  refine ⟨rfl, rfl, by decide, by decide, by decide⟩

/-- With the thread pool, `onMessage` itself calls the callback for nothing. -/
example : ¬ Delivered { upClient with useThreadPool := true } 0 [okResponse (lit "hi")]
    [(okResponse (lit "hi")).text] := by
  decide

end HttpClient

end SwiftNetCore
