import SwiftNetCore.Http.Grammar

/-!
# The grammar of request lines

`RequestLine` is a request line in its three parts: a method's name, a target without a space,
and one of two versions; `RequestLine.text` writes it out.

* `RequestLine.text_injective`: the text determines the parts.
* `isRequestLine_iff_text`: the lines that have the form of `Grammar` are the texts.
* `processRequestLine_text`: what the function stores for such a text, as one equation.
* `setTarget_path`, `setTarget_path_append_query`: the target, as `path_` and `query_` have it.
* `processRequestLine_grammar`: the function accepts the texts and no other line.
-/

namespace SwiftNetCore

open HttpRequest (methodOf)

/-! ## Request lines -/

/-- The names of the methods. -/
def methodNames : List (Bytes × Method) :=
  [(lit "GET", .kGet), (lit "POST", .kPost), (lit "HEAD", .kHead), (lit "PUT", .kPut),
    (lit "DELETE", .kDelete)]

/-- The names of the versions. -/
def versionNames : List (Bytes × Version) :=
  [(lit "HTTP/1.0", .kHttp10), (lit "HTTP/1.1", .kHttp11)]

/-- A request line in its parts. -/
@[ext]
structure RequestLine where
  /-- the name of the method -/
  methodName : Bytes
  /-- the target -/
  target : Bytes
  /-- the name of the version -/
  versionName : Bytes
  methodName_mem : methodName ∈ methodNames.map Prod.fst
  sp_notMem : SP ∉ target
  versionName_mem : versionName ∈ versionNames.map Prod.fst

namespace RequestLine

/-- The bytes of the line. -/
def text (l : RequestLine) : Bytes :=
  l.methodName ++ lit " " ++ l.target ++ lit " " ++ l.versionName

variable (l : RequestLine)

/-- The text of a request line has its three parts with blanks between them. -/
lemma text_eq : l.text = l.methodName ++ SP :: (l.target ++ SP :: l.versionName) := by
  have hsp : lit " " = [SP] := rfl
  simp [text, hsp]

/-- The name in a request line names a method. -/
lemma methodOf_methodName : methodOf l.methodName ≠ .kInvalid :=
  HttpRequest.methodOf_ne_kInvalid_iff.mpr l.methodName_mem

/-- The method that `setMethod` stores is the one named. -/
lemma methodName_mem_methodNames : (l.methodName, methodOf l.methodName) ∈ methodNames := by
  have h : ∀ m ∈ methodNames.map Prod.fst, (m, methodOf m) ∈ methodNames := by decide
  exact h _ l.methodName_mem

/-- The first space of the line is the one behind the method. -/
lemma find_text : find SP l.text = some (l.methodName, l.target ++ SP :: l.versionName) := by
  rw [text_eq]
  exact find_append (HttpRequest.sp_notMem_of_methodOf l.methodOf_methodName)

/-- The next space of the line is the one behind the target. -/
lemma find_target : find SP (l.target ++ SP :: l.versionName) = some (l.target, l.versionName) :=
  find_append l.sp_notMem

/-- **The text determines the parts.** -/
theorem text_injective : Function.Injective text := by
  intro l l' h
  have h₁ := l.find_text
  rw [h, l'.find_text, Option.some.injEq, Prod.mk.injEq] at h₁
  have h₂ := l.find_target
  rw [← h₁.2, l'.find_target, Option.some.injEq, Prod.mk.injEq] at h₂
  exact RequestLine.ext h₁.1.symm h₂.1.symm h₂.2.symm

end RequestLine

/-- The lines with the form of a request line are the texts of request lines. -/
lemma isRequestLine_iff_text {line : Bytes} :
    IsRequestLine line ↔ ∃ l : RequestLine, line = l.text := by
  constructor
  · rintro ⟨m, target, version, rfl, hm, ht, hv⟩
    have hversion : version ∈ versionNames.map Prod.fst := by
      rcases hv with rfl | rfl <;> decide
    let l : RequestLine :=
      ⟨m, target, version, HttpRequest.methodOf_ne_kInvalid_iff.mp hm, ht, hversion⟩
    exact ⟨l, l.text_eq.symm⟩
  · rintro ⟨l, rfl⟩
    refine ⟨l.methodName, l.target, l.versionName, l.text_eq, l.methodOf_methodName, l.sp_notMem,
      ?_⟩
    have := l.versionName_mem
    simpa [versionNames, or_comm] using this

namespace HttpContext

/-! ## The target -/

/-- The path is the part of the target before its first `?`. -/
lemma setTarget_path (request : HttpRequest) (target : Bytes) :
    (setTarget request target).path = target.takeWhile (· ≠ QUESTION) := by
  unfold setTarget
  rcases h : find QUESTION target with _ | ⟨path, query⟩
  · rw [find_eq_none_iff] at h
    symm
    apply List.takeWhile_eq_self_iff.mpr
    intro c hc
    have hne : c ≠ QUESTION := fun heq => h (heq ▸ hc)
    simpa using hne
  · obtain ⟨rfl, hpath⟩ := find_eq_some_iff.mp h
    have hall : ∀ c ∈ path, decide (c ≠ QUESTION) = true := by
      intro c hc
      have hne : c ≠ QUESTION := fun heq => hpath (heq ▸ hc)
      simpa using hne
    rw [List.takeWhile_append_of_pos hall]
    simp [HttpRequest.setPath, HttpRequest.setQuery]

/-- Path and query make up the target, where the query was empty. -/
lemma setTarget_path_append_query {request : HttpRequest} (h : request.query = [])
    (target : Bytes) :
    (setTarget request target).path ++ (setTarget request target).query = target := by
  unfold setTarget
  rcases hf : find QUESTION target with _ | ⟨path, query⟩
  · simp [HttpRequest.setPath, h]
  · exact (find_eq_some_iff.mp hf).1.symm

/-! ## The function on a request line -/

/-- The version that is stored for a name of `versionNames`.
Source: the comparison of the last character, HttpContext.cc 31-38 -/
def versionOf (version : Bytes) : Version :=
  if version = lit "HTTP/1.1" then .kHttp11 else .kHttp10

/-- What is stored is the version named. -/
lemma versionName_mem_versionNames (l : RequestLine) :
    (l.versionName, versionOf l.versionName) ∈ versionNames := by
  have h : ∀ v ∈ versionNames.map Prod.fst, (v, versionOf v) ∈ versionNames := by decide
  exact h _ l.versionName_mem

/-- **What the function stores for a request line.** -/
lemma processRequestLine_text {request : HttpRequest} (hr : request.method = .kInvalid)
    (l : RequestLine) :
    processRequestLine request l.text =
      some (true, (setTarget { request with method := methodOf l.methodName } l.target).setVersion
        (versionOf l.versionName)) := by
  rw [processRequestLine_eq hr, l.find_text]
  simp only [l.methodOf_methodName, if_false, l.find_target, versionOf]
  split_ifs with h₁ h₀
  · rfl
  · rfl
  · -- the table has no third name
    have := l.versionName_mem
    simp [versionNames, h₁, h₀] at this

/-- **The grammar of request lines.** Where the method may be set, the function accepts exactly
the texts of request lines; such a text has one decomposition, and `request_` then has its
method, its version and its target. -/
theorem processRequestLine_grammar (request : HttpRequest) (hr : request.method = .kInvalid)
    (line : Bytes) :
    ∃ (ok : Bool) (request' : HttpRequest),
      processRequestLine request line = some (ok, request') ∧
        (ok = true ↔ ∃ l : RequestLine, line = l.text) ∧
        ∀ l : RequestLine, line = l.text →
          (∀ l' : RequestLine, line = l'.text → l' = l) ∧
          (l.methodName, request'.method) ∈ methodNames ∧
          (l.versionName, request'.version) ∈ versionNames ∧
          request'.path = l.target.takeWhile (· ≠ QUESTION) ∧
          (request.query = [] → request'.path ++ request'.query = l.target) := by
  obtain ⟨ok, request', heq, hok, -⟩ := processRequestLine_spec hr line
  refine ⟨ok, request', heq, hok.trans isRequestLine_iff_text, ?_⟩
  rintro l rfl
  rw [processRequestLine_text hr, Option.some.injEq, Prod.mk.injEq] at heq
  obtain ⟨-, rfl⟩ := heq
  refine ⟨fun l' h => RequestLine.text_injective h.symm, ?_, versionName_mem_versionNames l,
    setTarget_path _ _, fun hq => ?_⟩
  · have hmethod := (setTarget_frame { request with method := methodOf l.methodName } l.target).1
    rw [HttpRequest.setVersion, hmethod]
    exact l.methodName_mem_methodNames
  · have hq' : { request with method := methodOf l.methodName }.query = [] := hq
    exact setTarget_path_append_query hq' l.target

/-- The grammar at a line with a query: its parts are found in the request. -/
theorem processRequestLine_grammar_get :
    ∃ request' : HttpRequest,
      processRequestLine {} (lit "GET /a?b=/c? HTTP/1.0") = some (true, request') ∧
        request'.method = .kGet ∧ request'.version = .kHttp10 ∧ request'.path = lit "/a" ∧
        request'.path ++ request'.query = lit "/a?b=/c?" := by
  have hl : lit "GET /a?b=/c? HTTP/1.0" = RequestLine.text
      ⟨lit "GET", lit "/a?b=/c?", lit "HTTP/1.0", by decide, by decide, by decide⟩ := rfl
  obtain ⟨ok, request', heq, hok, hparts⟩ :=
    processRequestLine_grammar {} rfl (lit "GET /a?b=/c? HTTP/1.0")
  obtain ⟨-, hm, hv, hpath, hquery⟩ := hparts _ hl
  obtain rfl : ok = true := hok.mpr ⟨_, hl⟩
  refine ⟨request', heq, ?_, ?_, hpath, hquery rfl⟩
  · have h : ∀ p ∈ methodNames, p.1 = lit "GET" → p.2 = .kGet := by decide
    exact h _ hm rfl
  · have h : ∀ p ∈ versionNames, p.1 = lit "HTTP/1.0" → p.2 = .kHttp10 := by decide
    exact h _ hv rfl

end HttpContext

end SwiftNetCore
