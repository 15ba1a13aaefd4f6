import SwiftNetCore.Http.HeaderText
import SwiftNetCore.Http.ResponseParser

/-!
# The text of a response

`appendToBuffer` writes what the fields hold. Its text has the head that is meant, one line for
the status and one for each header, when no `"\r\n"` is in the status message and in the headers
and the length of the body fits into the `char buf[32]` it is printed to (`plainHead_of_pairFree`).
All that the readers need is that each line of the head, but the first, has a colon (`PlainHead`).
-/

namespace SwiftNetCore

open InputBuffer
open Delimited (PairFree unlines)

namespace HttpResponse

/-! ## Text and head -/

/-- The bytes of one response. -/
def text (resp : HttpResponse) : Bytes := resp.appendToBuffer []

/-- The bytes of the head, with the empty line that ends it. -/
def head (resp : HttpResponse) : Bytes :=
  resp.preamble ++ resp.headers.toList.flatMap headerText ++ crlf

/-- The text of a response is its head and its body. -/
lemma text_eq (resp : HttpResponse) : resp.text = resp.head ++ resp.body := by
  simp [text, head, appendToBuffer]

/-- The head has these lines: a status line, and header lines of which each has a colon. -/
def HasLines (resp : HttpResponse) (line : Bytes) (ls : List Bytes) : Prop :=
  resp.head = headText line ls [] ∧ PairFree CR LF line ∧ ∀ l ∈ ls, IsHeaderLine l

/-- Every line of the head between the status line and the empty line has a colon. -/
def PlainHead (resp : HttpResponse) : Prop := ∃ line ls, resp.HasLines line ls

/-! ## Plain heads -/

/-- The start of the status line fits into `buf`. -/
lemma snprintf32_status (code : HttpStatusCode) :
    snprintf32 (lit "HTTP/1.1 " ++ decimal code.toInt ++ lit " ") =
      lit "HTTP/1.1 " ++ decimal code.toInt ++ lit " " := by
  cases code <;> decide

/-- The header lines that `appendToBuffer` writes. -/
def headerLines (resp : HttpResponse) : List Bytes :=
  (if resp.closeConnection then [lit "Connection: close"]
    else [lit "Content-Length: " ++ decimal resp.body.length, lit "Connection: Keep-Alive"]) ++
    resp.headers.toList.map fun h => h.1 ++ lit ": " ++ h.2

/-- The length of the body fits into `buf`, as long as it has at most 13 digits. -/
lemma snprintf32_length {n : ℕ} (h : n < 10 ^ 13) :
    snprintf32 (lit "Content-Length: " ++ decimal n ++ crlf) =
      lit "Content-Length: " ++ decimal n ++ crlf := by
  have hdigits := length_decimal_le (by omega) h
  apply List.take_of_length_le
  have h16 : (lit "Content-Length: ").length = 16 := rfl
  have h2 : crlf.length = 2 := rfl
  simp only [List.length_append]
  omega

/-- The head of a plain response has the lines that are meant. -/
lemma head_eq_headText {resp : HttpResponse} (hbody : resp.body.length < 10 ^ 13) :
    resp.head = headText
      (lit "HTTP/1.1 " ++ decimal resp.statusCode.toInt ++ lit " " ++ resp.statusMessage)
      resp.headerLines [] := by
  have hlines : (fun h : Bytes × Bytes => h.1 ++ lit ": " ++ h.2) = headerLine := rfl
  rw [head, preamble, snprintf32_status, snprintf32_length hbody, flatMap_headerText, headText,
    headerLines, hlines]
  split <;> simp

/-- A numeral has no carriage return. -/
lemma CR_notMem_decimal (n : ℕ) : CR ∉ decimal n := by
  intro h
  exact absurd (isdigit_of_mem_decimal h) (by decide)

/-- Headers without `"\r\n"` make header lines. -/
lemma isHeaderLine_headerLines {resp : HttpResponse}
    (hh : ∀ h ∈ resp.headers.toList, PairFree CR LF (h.1 ++ lit ": " ++ h.2)) :
    ∀ l ∈ resp.headerLines, IsHeaderLine l := by
  intro l hl
  rcases List.mem_append.mp hl with hl | hl
  · split at hl
    · obtain rfl := List.mem_singleton.mp hl
      exact ⟨by decide, by decide⟩
    · obtain rfl | hl := List.mem_cons.mp hl
      · have hcolon : COLON ∈ lit "Content-Length: " := by decide
        have hcr : CR ∉ lit "Content-Length: " := by decide
        refine ⟨Delimited.pairFree_of_notMem ?_, List.mem_append_left _ hcolon⟩
        exact fun h => (List.mem_append.mp h).elim hcr (CR_notMem_decimal _)
      · obtain rfl := List.mem_singleton.mp hl
        exact ⟨by decide, by decide⟩
  · obtain ⟨h, hmem, rfl⟩ := List.mem_map.mp hl
    have hcolon : COLON ∈ lit ": " := by decide
    exact ⟨hh h hmem, by simp [hcolon]⟩

/-- With no `"\r\n"` in the status message and in the headers, and a length that `buf` has room for,
the head is plain. -/
lemma plainHead_of_pairFree {resp : HttpResponse} (hm : PairFree CR LF resp.statusMessage)
    (hh : ∀ h ∈ resp.headers.toList, PairFree CR LF (h.1 ++ lit ": " ++ h.2))
    (hbody : resp.body.length < 10 ^ 13) : resp.PlainHead := by
  refine ⟨_, resp.headerLines, head_eq_headText hbody, ?_, isHeaderLine_headerLines hh⟩
  apply Delimited.PairFree.append_left _ hm
  cases resp.statusCode <;> decide

/-! ## The status line -/

/-- A line that begins as `appendToBuffer` begins it reads as a status line, with the status of
the response. -/
lemma statusOfLine_status (code : HttpStatusCode) (message : Bytes) :
    HttpContext.statusOfLine
      (lit "HTTP/1.1 " ++ decimal code.toInt ++ lit " " ++ message) = some (code.toInt : ℤ) := by
  have hversion : ∀ rest, find SP (lit "HTTP/1.1" ++ SP :: rest) = some (lit "HTTP/1.1", rest) :=
    fun rest => find_append (by decide)
  have hcode : find SP (decimal code.toInt ++ SP :: message) = some (decimal code.toInt, message) := by
    apply find_append
    cases code <;> decide
  have hline : lit "HTTP/1.1 " ++ decimal code.toInt ++ lit " " ++ message =
      lit "HTTP/1.1" ++ SP :: (decimal code.toInt ++ SP :: message) := by
    have h₁ : lit "HTTP/1.1 " = lit "HTTP/1.1" ++ [SP] := rfl
    have h₂ : lit " " = [SP] := rfl
    simp [h₁, h₂]
  have hatoi : atoi (decimal code.toInt) = code.toInt := by
    apply atoi_decimal
    cases code <;> decide
  have hok : HttpContext.isHttpVersion (lit "HTTP/1.1") = true := by decide
  unfold HttpContext.statusOfLine
  rw [hline, hversion]
  simp only [hok, if_true]
  rw [hcode]
  simp [hatoi]

end HttpResponse

end SwiftNetCore
