/-
**The limit on the size of a request.**

`RequestSizeLimitMiddleware` looks at the `Content-Length` header, the last one if there are several,
and answers with 413 if the number in it is over the limit.  It does not look at the body.  A request
that has no such header, because it is sent in chunks, or one that is no number, or one that is too
small, is passed on to the application with all of its body.

Main definitions:

* `FinAssist.pyInt` — `int` of a header;
* `FinAssist.HttpRequest` — a request as the server hands it over;
* `FinAssist.serve` — **the middleware around an application**.

Main results:

* `FinAssist.limit_holds_iff` — for which requests the limit holds.
-/

import FinAssist.UploadApi

set_option relaxedAutoImplicit false
set_option autoImplicit false

namespace FinAssist

/-! ### `int` of a header -/

abbrev Bytes := List UInt8

/-- A blank of ASCII. -/
def isSpaceByte (b : UInt8) : Bool := b == 32 || (9 ≤ b && b ≤ 13)

/-- A decimal digit. -/
def digitByte? (b : UInt8) : Option ℕ := if 48 ≤ b ∧ b ≤ 57 then some (b.toNat - 48) else none

/-- Digits, with single underscores between them. -/
def digitBytes? : Bytes → Option (List ℕ)
  | [] => none
  | [b] => (digitByte? b).map fun digit => [digit]
  | b :: 95 :: s => do
      let digit ← digitByte? b
      let digits ← digitBytes? s
      pure (digit :: digits)
  | b :: s => do
      let digit ← digitByte? b
      let digits ← digitBytes? s
      pure (digit :: digits)

/-- `sys.int_info.default_max_str_digits`: longer numbers are not read. -/
def maxStrDigits : ℕ := 4300

/-- A number without its sign. -/
def unsignedInt? (s : Bytes) : Option ℕ :=
  (digitBytes? s).bind fun digits =>
    if digits.length ≤ maxStrDigits then some (digits.foldl (fun n digit => 10 * n + digit) 0)
    else none

/-- `int(s)`, or nothing where it raises a `ValueError`. -/
def pyInt (s : Bytes) : Option ℤ :=
  match ((s.dropWhile isSpaceByte).reverse.dropWhile isSpaceByte).reverse with
  | 43 :: s => (unsignedInt? s).map fun n => (n : ℤ)
  | 45 :: s => (unsignedInt? s).map fun n => -(n : ℤ)
  | s => (unsignedInt? s).map fun n => (n : ℤ)

example : pyInt " 1_024".toUTF8.toList = some 1024 := by decide +kernel

/-! ### Requests -/

/-- A request as the server hands it over: the headers, and what `receive` returns of the body, one
chunk after the other. -/
structure HttpRequest where
  headers : List (Bytes × Bytes)
  chunks : List Bytes

namespace HttpRequest

/-- The body. -/
def body (request : HttpRequest) : Bytes := request.chunks.flatten

/-- `dict(raw_headers).get(name)`: of several headers the last one counts. -/
def header? (request : HttpRequest) (name : Bytes) : Option Bytes :=
  request.headers.reverse.lookup name

/-- `b"content-length"`. -/
def contentLengthName : Bytes := "content-length".toUTF8.toList

/-- What the middleware takes for the size of the body: nothing without the header, and 0 if it is no
number. -/
def declaredSize? (request : HttpRequest) : Option ℤ :=
  (request.header? contentLengthName).map fun value => (pyInt value).getD 0

/-- Whether the middleware refuses the request. -/
def isRefused (maxBytes : ℕ) (request : HttpRequest) : Bool :=
  match request.declaredSize? with
  | none => false
  | some declaredSize => (maxBytes : ℤ) < declaredSize

end HttpRequest

/-- **An application**, as far as it reads: of what it has received so far it says whether it asks for
more. -/
abbrev Reader := List Bytes → Bool

/-- What an application receives of some chunks. -/
def Reader.receives (app : Reader) : List Bytes → List Bytes → List Bytes
  | received, [] => received
  | received, chunk :: chunks =>
      if app received then app.receives (received ++ [chunk]) chunks else received

/-- What becomes of a request: it was answered by the middleware, or the application has it. -/
structure Handled where
  refusal : Option Response
  received : List Bytes

/-- **`RequestSizeLimitMiddleware.__call__`**, of a scope of type `http`. -/
def serve (maxBytes : ℕ) (app : Reader) (request : HttpRequest) : Handled :=
  if request.isRefused maxBytes then ⟨some (requestBodyTooLarge maxBytes), []⟩
  else ⟨none, app.receives [] request.chunks⟩

/-- **The limit holds for a request**: no application receives more, and a body over the limit is
answered with 413. -/
def Limited (maxBytes : ℕ) (request : HttpRequest) : Prop :=
  ∀ app : Reader, (serve maxBytes app request).received.flatten.length ≤ maxBytes ∧
    (maxBytes < request.body.length →
      ∃ response, (serve maxBytes app request).refusal = some response ∧ response.status = 413)

/-! ### When it holds -/

theorem receives_prefix (app : Reader) : ∀ (chunks received : List Bytes),
    app.receives received chunks <+: received ++ chunks := by
  intro chunks
  induction chunks with
  | nil =>
      intro received
      rw [Reader.receives, List.append_nil]
  | cons chunk chunks ih =>
      intro received
      rw [Reader.receives]
      split
      · simpa using ih (received ++ [chunk])
      · exact List.prefix_append _ _

/-- No application receives more than the body. -/
theorem receives_length_le (app : Reader) (chunks : List Bytes) :
    (app.receives [] chunks).flatten.length ≤ chunks.flatten.length := by
  obtain ⟨rest, hrest⟩ := receives_prefix app chunks []
  rw [List.nil_append] at hrest
  calc (app.receives [] chunks).flatten.length
      ≤ (app.receives [] chunks).flatten.length + rest.flatten.length := Nat.le_add_right _ _
    _ = chunks.flatten.length := by rw [← List.length_append, ← List.flatten_append, hrest]

/-- An application that always asks for more receives everything. -/
theorem receives_all : ∀ {chunks received : List Bytes},
    Reader.receives (fun _ => true) received chunks = received ++ chunks := by
  intro chunks
  induction chunks with
  | nil =>
      intro received
      rw [Reader.receives, List.append_nil]
  | cons chunk chunks ih =>
      intro received
      rw [Reader.receives, if_pos rfl, ih, List.append_assoc, List.singleton_append]

theorem serve_refused {maxBytes : ℕ} {app : Reader} {request : HttpRequest}
    (h : request.isRefused maxBytes = true) :
    serve maxBytes app request = ⟨some (requestBodyTooLarge maxBytes), []⟩ := if_pos h

theorem serve_passed {maxBytes : ℕ} {app : Reader} {request : HttpRequest}
    (h : ¬ request.isRefused maxBytes = true) :
    serve maxBytes app request = ⟨none, app.receives [] request.chunks⟩ := if_neg h

theorem isRefused_iff {maxBytes : ℕ} {request : HttpRequest} :
    request.isRefused maxBytes = true ↔ ∃ value n,
      request.header? HttpRequest.contentLengthName = some value ∧ pyInt value = some n ∧
        (maxBytes : ℤ) < n := by
  rw [HttpRequest.isRefused, HttpRequest.declaredSize?]
  cases request.header? HttpRequest.contentLengthName with
  | none => simp
  | some value =>
      cases hvalue : pyInt value with
      | none =>
          simp only [Option.map_some, hvalue, Option.getD_none, decide_eq_true_eq]
          exact ⟨fun h => by omega, by rintro ⟨v, n, hv, hn, -⟩; cases hv; simp [hvalue] at hn⟩
      | some n => simp [hvalue]

/-- **The limit holds for a request if and only if** its body is within the limit, or the last
`Content-Length` is a number over it. -/
theorem limit_holds_iff (maxBytes : ℕ) (request : HttpRequest) :
    Limited maxBytes request ↔
      request.body.length ≤ maxBytes ∨ ∃ value n,
        request.header? HttpRequest.contentLengthName = some value ∧ pyInt value = some n ∧
          (maxBytes : ℤ) < n := by
  rw [← isRefused_iff]
  constructor
  · intro h
    by_cases hrefused : request.isRefused maxBytes = true
    · exact Or.inr hrefused
    · have hall := (h fun _ => true).1
      rw [serve_passed hrefused, receives_all, List.nil_append] at hall
      exact Or.inl hall
  · rintro hor app
    by_cases hrefused : request.isRefused maxBytes = true
    · rw [serve_refused hrefused]
      exact ⟨Nat.zero_le _, fun _ => ⟨_, rfl, rfl⟩⟩
    · have hsmall := hor.resolve_right hrefused
      rw [serve_passed hrefused]
      exact ⟨(receives_length_le app request.chunks).trans hsmall,
        fun hlarge => absurd hsmall (by omega)⟩

namespace Sample

/-- A body of 1025 bytes, sent in chunks. -/
def chunkedRequest : HttpRequest := ⟨[], [List.replicate 1024 0, [0]]⟩

theorem chunkedRequest_length : chunkedRequest.body.length = 1025 := by
  rw [HttpRequest.body, chunkedRequest, List.flatten_cons, List.length_append,
    List.length_replicate]
  rfl

end Sample

/-- **A body over the limit, sent in chunks**, is received by the application. -/
theorem chunked_body_received :
    1024 < Sample.chunkedRequest.body.length ∧
      (serve 1024 (fun _ => true) Sample.chunkedRequest).received = Sample.chunkedRequest.chunks ∧
      (serve 1024 (fun _ => true) Sample.chunkedRequest).refusal = none ∧
      ¬ Limited 1024 Sample.chunkedRequest := by
  have hlength := Sample.chunkedRequest_length
  have hreceived : (serve 1024 (fun _ => true) Sample.chunkedRequest).received =
      Sample.chunkedRequest.chunks := receives_all
  refine ⟨by omega, hreceived, rfl, fun h => ?_⟩
  have hall := (h fun _ => true).1
  rw [hreceived] at hall
  change Sample.chunkedRequest.body.length ≤ 1024 at hall
  omega

/-! ### Uploads -/

/-- The requests whose uploads the middleware refuses. -/
theorem isRefused_eq_isTooLarge {maxBytes : ℕ} {request : HttpRequest} {uploadRequest : UploadRequest}
    (h : uploadRequest.contentLength =
      (request.header? HttpRequest.contentLengthName).bind pyInt) :
    request.isRefused maxBytes = uploadRequest.isTooLarge maxBytes := by
  rw [UploadRequest.isTooLarge, h, HttpRequest.isRefused, HttpRequest.declaredSize?]
  cases request.header? HttpRequest.contentLengthName with
  | none => simp
  | some value => cases hvalue : pyInt value <;> simp [hvalue]

end FinAssist
