import SwiftNetCore.Http.Grammar

/-!
# When the loop of `parseRequest` ends

Every branch of the loop takes bytes off the buffer, moves `state_` on or clears `hasMore`,
except two: the body state with a `Content-Length` larger than the bytes that are there, and
`kGotAll`. In both the body of the loop changes nothing and leaves `hasMore` set, so the loop
spins.

`BodyArrives context buf` says of the context and the bytes before the call that the first of
these is not met: if a POST head is complete, its body is all there. The loop ends exactly then,
and exactly then all its evaluations make progress (`parseRequest_ends_iff`).
-/

namespace SwiftNetCore

open InputBuffer
open Delimited (PairFree unlines)

namespace HttpContext

/-- The body that the head announces is all there, or its length is not announced. -/
def BodyPresent (request : HttpRequest) (buf : Bytes) : Prop :=
  contentLength request = [] ∨ sizeT (atoi (contentLength request)) ≤ buf.length

/-- If the bytes complete the head of a POST request, its body is all there. -/
def BodyFollowsHead (request : HttpRequest) (buf : Bytes) : Prop :=
  ∀ ls e rest, buf = unlines CR LF ls ++ (e ++ CR :: LF :: rest) →
    (∀ l ∈ ls, IsHeaderLine l) → IsEndLine e → request.method = .kPost →
    BodyPresent (addHeaderLines request ls) rest

/-- The condition on a context and the bytes under which the loop ends. -/
def BodyArrives (context : HttpContext) (buf : Bytes) : Prop :=
  match context.state with
  | .kExpectRequestLine =>
    ∀ line rest, buf = line ++ CR :: LF :: rest → PairFree CR LF line →
      ∀ request, processRequestLine context.request line = some (true, request) →
        BodyFollowsHead request rest
  | .kExpectHeaders => BodyFollowsHead context.request buf
  | .kExpectBody => BodyPresent context.request buf
  | .kGotAll => False

/-- An evaluation of the loop's body takes a byte off the buffer, moves `state_` on, or clears
`hasMore`. -/
def MakesProgress {β : Type} [InputBuffer β] (receiveTime : Timestamp) (p : Parse β) : Prop :=
  ∀ p', parseRequestIteration receiveTime p = .again p' →
    readableBytes p'.buf < readableBytes p.buf ∨ p'.context.state ≠ p.context.state

variable {receiveTime : Timestamp} {context : HttpContext} {buf : Bytes}

/-- The body state takes a body exactly when it is there. -/
lemma takeBody_eq_none_iff {request : HttpRequest} :
    takeBody request buf = none ↔ ¬ BodyPresent request buf := by
  unfold takeBody BodyPresent
  split_ifs with hc hle
  · simp [hc]
  · simp [hc, hle]
  · simp [hc, hle]

/-- In the body state the call does not return exactly when the body is not there. -/
lemma parseRequest_body_hangs_iff (hs : context.state = .kExpectBody) :
    parseRequest receiveTime context buf = .hangs ↔ ¬ BodyPresent context.request buf := by
  rw [parseRequest_body hs, finish_eq_hangs_iff, takeBody_eq_none_iff]
  exact and_iff_right trivial

/-- A text with an end line has a complete line behind all its header lines. -/
lemma not_pairFree_of_endLine {ls ls' : List Bytes} {tail e rest : Bytes}
    (hls : ∀ l ∈ ls, IsHeaderLine l) (hls' : ∀ l ∈ ls', IsHeaderLine l) (he : IsEndLine e)
    (heq : unlines CR LF ls ++ tail = unlines CR LF ls' ++ (e ++ CR :: LF :: rest)) :
    ¬ PairFree CR LF tail := by
  induction ls generalizing ls' with
  | nil =>
      obtain rfl : tail = unlines CR LF ls' ++ (e ++ CR :: LF :: rest) := by simpa using heq
      rw [← List.append_assoc]
      exact Delimited.not_pairFree_split
  | cons l ls ih =>
      obtain ⟨hl, hcolon⟩ := hls l (by simp)
      rcases ls' with _ | ⟨l', ls'⟩
      · obtain ⟨rfl, -⟩ := Delimited.split_unique CR_ne_LF hl he.1 (by simpa using heq)
        exact absurd hcolon he.2
      · obtain ⟨rfl, h⟩ := Delimited.split_unique CR_ne_LF hl (hls' l' (by simp)).1
          (by simpa using heq)
        exact ih (fun m hm => hls m (List.mem_cons_of_mem _ hm))
          (fun m hm => hls' m (List.mem_cons_of_mem _ hm)) (by simpa using h)

/-- In the header state the call does not return exactly when a POST head is complete and the
body is not there. -/
lemma parseRequest_headers_hangs_iff (hs : context.state = .kExpectHeaders) :
    parseRequest receiveTime context buf = .hangs ↔ ¬ BodyFollowsHead context.request buf := by
  obtain ⟨ls, tail, rfl, hls, ht | ⟨e, rest, rfl, he⟩⟩ := headers_cases buf
  · rw [parseRequest_headers_open hs hls ht]
    simp only [reduceCtorEq, false_iff, not_not]
    intro ls' e rest heq hls' he
    exact absurd ht (not_pairFree_of_endLine hls hls' he heq)
  · rw [parseRequest_headers_closed hs hls he, finish_eq_hangs_iff, takeBody_eq_none_iff]
    constructor
    · rintro ⟨hm, hb⟩ h
      exact hb (h ls e rest rfl hls he hm)
    · intro h
      by_contra hc
      refine h fun ls' e' rest' heq hls' he' hm => ?_
      obtain ⟨rfl, -, rfl⟩ := headers_unique hls hls' he he' heq
      by_contra hb
      exact hc ⟨hm, hb⟩

/-- Whether the body follows depends on the method and the headers of the request. -/
lemma bodyFollowsHead_congr {request request' : HttpRequest}
    (hm : request.method = request'.method) (hh : request.headers = request'.headers) :
    BodyFollowsHead request buf ↔ BodyFollowsHead request' buf := by
  simp only [BodyFollowsHead, BodyPresent, hm,
    fun ls => contentLength_congr (addHeaderLines_headers_congr hh ls)]

/-- The call never returns exactly when the condition on the context and the bytes fails. -/
lemma parseRequest_hangs_iff_not_bodyArrives :
    parseRequest receiveTime context buf = .hangs ↔ ¬ BodyArrives context buf := by
  unfold BodyArrives
  rcases hs : context.state with _ | _ | _ | _
  · rcases Delimited.pairFree_or_split CR_ne_LF buf with hb | ⟨line, rest, rfl, hl⟩
    · rw [parseRequest_requestLine_incomplete hs hb]
      simp only [reduceCtorEq, false_iff, not_not]
      rintro line rest rfl
      exact absurd hb Delimited.not_pairFree_split
    · rw [parseRequest_requestLine hs hl]
      have hcond : (∀ line' rest', line ++ CR :: LF :: rest = line' ++ CR :: LF :: rest' →
          PairFree CR LF line' → ∀ request,
            processRequestLine context.request line' = some (true, request) →
              BodyFollowsHead request rest') ↔
          ∀ request, processRequestLine context.request line = some (true, request) →
            BodyFollowsHead request rest := by
        refine ⟨fun h => h line rest rfl hl, fun h line' rest' heq hl' => ?_⟩
        obtain ⟨rfl, rfl⟩ := Delimited.split_unique CR_ne_LF hl hl' heq
        exact h
      simp only [hcond]
      rcases processRequestLine context.request line with _ | ⟨_ | _, request⟩
      · simp
      · simp
      · simp only [Option.some.injEq, Prod.mk.injEq, true_and, forall_eq']
        rw [parseRequest_headers_hangs_iff rfl]
        exact not_congr (bodyFollowsHead_congr rfl rfl)
  · exact parseRequest_headers_hangs_iff hs
  · exact parseRequest_body_hangs_iff hs
  · simp [parseRequest_gotAll hs]

/-- **When the loop ends.** For every content of the buffer and every context, the loop of
`parseRequest` ends exactly when the condition on the two holds, and exactly then every
evaluation of its body takes a byte off the buffer, moves `state_` on or clears `hasMore`. -/
theorem parseRequest_ends_iff (receiveTime : Timestamp) (context : HttpContext) (buf : Buffer) :
    (Loops.Halts (parseRequestIteration receiveTime) (⟨true, context, buf⟩ : Parse Buffer) ↔
        BodyArrives context buf.readable) ∧
      ((∀ p, Loops.Reaches (parseRequestIteration receiveTime) ⟨true, context, buf⟩ p →
          MakesProgress receiveTime p) ↔
        BodyArrives context buf.readable) := by
  have hhalts : Loops.Halts (parseRequestIteration receiveTime)
      (⟨true, context, buf⟩ : Parse Buffer) ↔ BodyArrives context buf.readable := by
    rw [← not_iff_not, ← parseRequest_hangs_iff, ← parseRequest_hangs_iff_not_bodyArrives]
    have h : parseRequest receiveTime context buf.readable =
        (parseRequest receiveTime context buf).map (Parse.map readable) :=
      parseRequest_readable context buf
    rw [h]
    rcases parseRequest receiveTime context buf with p | _ | _ <;> simp
  refine ⟨hhalts, ?_⟩
  rw [← hhalts]
  constructor
  · intro hprog
    obtain ⟨p, hreach, ⟨r, hr⟩ | hfix⟩ := Loops.exists_end
      (fun p : Parse Buffer => readableBytes p.buf)
      parseRequestIteration_progress (⟨true, context, buf⟩ : Parse Buffer)
    · exact hreach.halts_iff.mpr ⟨r, Loops.returns_of_leave hr⟩
    · rcases hprog p hreach p hfix with h | h
      · exact absurd h (lt_irrefl _)
      · exact absurd rfl h
  · intro h p hreach p' hp'
    rcases parseRequestIteration_progress p p' hp' with hlt | rfl
    · exact .inl hlt
    · exact absurd (hreach.halts_iff.mp h) (Loops.not_halts_of_fixed hp')

/-- A POST head that announces five bytes, with two of them: the loop never ends. -/
theorem parseRequest_spins :
    ¬ Loops.Halts (parseRequestIteration {}) (⟨true, {}, Buffer.ofBytes
      (lit "POST / HTTP/1.1\r\nContent-Length: 5\r\n\r\nab")⟩ : Parse Buffer) := by
  have h : parseRequest {} {} (lit "POST / HTTP/1.1\r\nContent-Length: 5\r\n\r\nab") = .hangs := by
    decide
  rw [← parseRequest_hangs_iff]
  rw [← Buffer.readable_ofBytes (lit "POST / HTTP/1.1\r\nContent-Length: 5\r\n\r\nab"),
    parseRequest_readable] at h
  rcases hp : parseRequest {} {}
    (Buffer.ofBytes (lit "POST / HTTP/1.1\r\nContent-Length: 5\r\n\r\nab")) with p | _ | _
  · simp [hp] at h
  · simp [hp] at h
  · rfl

end HttpContext

end SwiftNetCore
