/-
**The scanner of uploaded files.**

`StubFileSafetyScanner` looks at a file before anything is stored of it: its size, the extension of
its name, the first bytes of it, and the pages of a PDF.  The type of the extension has to be the
type of the bytes.  The type that the client declares is compared with neither, and a name without
a point counts as an extension, so a file may be accepted that is not what it was declared to be.

Main definitions:

* `FinAssist.PdfLibrary` — `pypdf`, as far as it is used;
* `FinAssist.FileSafetyScanner.scan` — **the scanner**;
* `FinAssist.FileSafetyScanner.Passes` — what it checks;
* `FinAssist.FileSafetyScanner.Agrees` — what an accepted file is promised to be.

Main results:

* `FinAssist.FileSafetyScanner.scan_eq` — the scanner, check by check;
* `FinAssist.FileSafetyScanner.scan_eq_ok_iff` — **which files are accepted**, and with what report;
* `FinAssist.scan_agrees_iff` — for which files the promise is kept.
-/

import FinAssist.DocumentExtractor

set_option relaxedAutoImplicit false
set_option autoImplicit false

namespace FinAssist

/-! ### PDF -/

/-- What `pypdf` raises: a `PdfReadError`, or any other exception. -/
inductive PdfError
  | pdfReadError (text : String)
  | other (text : String)
  deriving DecidableEq

/-- **`pypdf`, as far as it is used**; each reading of a file may raise. -/
structure PdfLibrary where
  isEncrypted : List UInt8 → Except PdfError Bool
  pageCount : List UInt8 → Except PdfError ℕ
  pageTexts : List UInt8 → Except PdfError (List String)

/-- `except PdfReadError as exc`: other exceptions pass. -/
def PdfError.translated : PdfError → Error
  | pdfReadError text => .extractionFailed "unknown" ("unreadable PDF: " ++ text)
  | other text => .external text

theorem PdfError.isExternal_translated (e : PdfError) : e.translated.isExternal = true := by
  cases e <;> rfl

/-- `_pdf_page_count`. -/
def PdfLibrary.pdfPageCount (P : PdfLibrary) (data : List UInt8) : Except Error ℕ :=
  match P.isEncrypted data with
  | .error e => .error e.translated
  | .ok true => .error (.unsupportedDocumentType "application/pdf (encrypted)")
  | .ok false =>
      match P.pageCount data with
      | .error e => .error e.translated
      | .ok n => .ok n

theorem PdfLibrary.pdfPageCount_eq_ok_iff {P : PdfLibrary} {data : List UInt8} {n : ℕ} :
    P.pdfPageCount data = .ok n ↔ P.isEncrypted data = .ok false ∧ P.pageCount data = .ok n := by
  rw [pdfPageCount]
  cases P.isEncrypted data with
  | error e => simp
  | ok encrypted =>
      cases encrypted with
      | true => simp
      | false => cases P.pageCount data <;> simp

theorem PdfLibrary.isExternal_of_pdfPageCount (P : PdfLibrary) {data : List UInt8} {e : Error}
    (h : P.pdfPageCount data = .error e) : e.isExternal = true := by
  rw [pdfPageCount] at h
  split at h
  next readError _ => exact Except.error.inj h ▸ readError.isExternal_translated
  · exact Except.error.inj h ▸ rfl
  · split at h
    next readError _ => exact Except.error.inj h ▸ readError.isExternal_translated
    · cases h

/-! ### Types of content -/

/-- `_MAGIC_BYTES_BY_CONTENT_TYPE`. -/
def magicBytesByContentType : List (String × List UInt8) :=
  [("application/pdf", [0x25, 0x50, 0x44, 0x46, 0x2d]),
    ("image/png", [0x89, 0x50, 0x4e, 0x47, 0x0d, 0x0a, 0x1a, 0x0a]),
    ("image/jpeg", [0xff, 0xd8, 0xff])]

/-- `_ALLOWED_EXTENSIONS`. -/
def allowedExtensions : List (String × String) :=
  [(".pdf", "application/pdf"), (".png", "image/png"), (".jpg", "image/jpeg"),
    (".jpeg", "image/jpeg")]

/-- What is after the last point of a name, all of it where there is no point:
`filename.rpartition(".")[2]`. -/
def suffixOf (filename : String) : String :=
  String.ofList (filename.toList.reverse.takeWhile (· ≠ '.')).reverse

/-- `_extension_of`. -/
def extensionOf (U : Unicode) (filename : String) : String :=
  if suffixOf filename = "" then "" else "." ++ U.lower (suffixOf filename)

/-- `_sniff_content_type`. -/
def sniffContentType (data : List UInt8) : Option String :=
  (magicBytesByContentType.find? fun m => m.2.isPrefixOf data).map Prod.fst

/-! ### The scanner -/

/-- `StubFileSafetyScanner`: its limits, and what it uses. -/
structure FileSafetyScanner where
  maxSizeBytes : ℕ
  maxPages : ℕ
  pdf : PdfLibrary
  unicode : Unicode

namespace FileSafetyScanner

variable (S : FileSafetyScanner)

/-- The type that the extension of a name stands for. -/
def expectedContentType (filename : String) : Option String :=
  allowedExtensions.lookup (extensionOf S.unicode filename)

/-- The pages of a file of this type. -/
def pageCount (contentType : String) (data : List UInt8) : Except Error ℕ :=
  if contentType = "application/pdf" then S.pdf.pdfPageCount data else .ok 1

/-- **`StubFileSafetyScanner.scan`.** -/
def scan (data : List UInt8) (filename declaredContentType : String) :
    Except Error FileSafetyReport := do
  if S.maxSizeBytes < data.length then
    throw (.documentTooLarge data.length S.maxSizeBytes)
  match S.expectedContentType filename with
  | none => throw (.unsupportedDocumentType declaredContentType)
  | some expectedContentType =>
      if sniffContentType data ≠ some expectedContentType then
        throw (.unsupportedDocumentType declaredContentType)
      let pageCount ← S.pageCount expectedContentType data
      if S.maxPages < pageCount then
        throw (.pageLimitExceeded pageCount S.maxPages)
      pure ⟨expectedContentType, pageCount⟩

/-- **What the scanner checks** of a file. -/
structure Passes (data : List UInt8) (filename : String) (contentType : String) (pages : ℕ) :
    Prop where
  size : data.length ≤ S.maxSizeBytes
  extension : S.expectedContentType filename = some contentType
  bytes : sniffContentType data = some contentType
  pdf : contentType = "application/pdf" →
    S.pdf.isEncrypted data = .ok false ∧ S.pdf.pageCount data = .ok pages
  image : contentType ≠ "application/pdf" → pages = 1
  pages : pages ≤ S.maxPages

/-- **What an accepted file is promised to be**: of allowed size, with a name that ends with an
allowed extension after a point, with the type of that extension both in its bytes and declared, and
with as many pages as are reported. -/
structure Agrees (data : List UInt8) (filename declaredContentType : String)
    (report : FileSafetyReport) : Prop where
  size : data.length ≤ S.maxSizeBytes
  point : '.' ∈ filename.toList
  extension : allowedExtensions.lookup ("." ++ S.unicode.lower (suffixOf filename)) =
    some report.detectedContentType
  bytes : sniffContentType data = some report.detectedContentType
  declared : declaredContentType = report.detectedContentType
  pdf : report.detectedContentType = "application/pdf" →
    S.pdf.isEncrypted data = .ok false ∧ S.pdf.pageCount data = .ok report.pageCount
  image : report.detectedContentType ≠ "application/pdf" → report.pageCount = 1
  pages : report.pageCount ≤ S.maxPages

variable {S} {data : List UInt8} {filename declaredContentType : String}

theorem pageCount_eq_ok_iff {contentType : String} {n : ℕ} :
    S.pageCount contentType data = .ok n ↔
      (contentType = "application/pdf" →
        S.pdf.isEncrypted data = .ok false ∧ S.pdf.pageCount data = .ok n) ∧
      (contentType ≠ "application/pdf" → n = 1) := by
  rw [pageCount]
  split
  next h => simp [h, PdfLibrary.pdfPageCount_eq_ok_iff]
  next h => simp [h, eq_comm]

/-- The scanner, check by check. -/
theorem scan_eq : S.scan data filename declaredContentType =
    if S.maxSizeBytes < data.length then .error (.documentTooLarge data.length S.maxSizeBytes)
    else match S.expectedContentType filename with
      | none => .error (.unsupportedDocumentType declaredContentType)
      | some contentType =>
          if sniffContentType data = some contentType then
            match S.pageCount contentType data with
            | .error e => .error e
            | .ok n =>
                if S.maxPages < n then .error (.pageLimitExceeded n S.maxPages)
                else .ok ⟨contentType, n⟩
          else .error (.unsupportedDocumentType declaredContentType) := by
  rw [scan]
  by_cases hsize : S.maxSizeBytes < data.length
  · simp only [hsize, if_true]
    rfl
  · simp only [hsize, if_false]
    cases S.expectedContentType filename with
    | none => rfl
    | some contentType =>
        by_cases hbytes : sniffContentType data = some contentType
        · simp only [hbytes, ne_eq, not_true_eq_false, if_false, if_true]
          cases S.pageCount contentType data with
          | error e => rfl
          | ok n =>
              by_cases hlimit : S.maxPages < n <;> simp [hlimit, bind, Except.bind, pure,
                Except.pure, throw, throwThe, MonadExceptOf.throw]
        · simp only [hbytes, ne_eq, not_false_eq_true, if_true, if_false]
          rfl

/-- **Which files are accepted**, and with what report. -/
theorem scan_eq_ok_iff {report : FileSafetyReport} :
    S.scan data filename declaredContentType = .ok report ↔
      S.Passes data filename report.detectedContentType report.pageCount := by
  rw [scan_eq]
  constructor
  · intro h
    split at h
    · cases h
    next hsize =>
      split at h
      · cases h
      next contentType hexpected =>
        split at h
        next hbytes =>
          split at h
          · cases h
          next n hpages =>
            split at h
            · cases h
            next hlimit =>
              obtain rfl := Except.ok.inj h
              obtain ⟨hpdf, himage⟩ := pageCount_eq_ok_iff.1 hpages
              exact ⟨not_lt.1 hsize, hexpected, hbytes, hpdf, himage, not_lt.1 hlimit⟩
        · cases h
  · intro h
    have hpages : S.pageCount report.detectedContentType data = .ok report.pageCount :=
      pageCount_eq_ok_iff.2 ⟨h.pdf, h.image⟩
    rw [if_neg (not_lt.2 h.size), h.extension]
    simp only [h.bytes, hpages, if_true]
    rw [if_neg (not_lt.2 h.pages)]

/-- What it raises is of the documents, or of the PDF library. -/
theorem isExternal_of_scan {e : Error} (h : S.scan data filename declaredContentType = .error e) :
    e.isExternal = true := by
  rw [scan_eq] at h
  split at h
  · exact Except.error.inj h ▸ rfl
  · split at h
    · exact Except.error.inj h ▸ rfl
    next contentType _ =>
      split at h
      · split at h
        next pageError hpages =>
          obtain rfl := Except.error.inj h
          rw [pageCount] at hpages
          split at hpages
          · exact S.pdf.isExternal_of_pdfPageCount hpages
          · cases hpages
        · split at h
          · exact Except.error.inj h ▸ rfl
          · cases h
      · exact Except.error.inj h ▸ rfl

end FileSafetyScanner

/-- **When the promise about an accepted file is kept**: unless the file passes all the checks, its
name has a point and it was declared to be what its extension stands for. -/
theorem scan_agrees_iff (S : FileSafetyScanner) (data : List UInt8)
    (filename declaredContentType : String) :
    (∀ report, S.scan data filename declaredContentType = .ok report →
      S.Agrees data filename declaredContentType report) ↔
    ∀ contentType pages, S.Passes data filename contentType pages →
      '.' ∈ filename.toList ∧ declaredContentType = contentType := by
  constructor
  · intro h contentType pages hpasses
    have hagrees := h ⟨contentType, pages⟩ (FileSafetyScanner.scan_eq_ok_iff.2 hpasses)
    exact ⟨hagrees.point, hagrees.declared⟩
  · intro h report hreport
    have hpasses := FileSafetyScanner.scan_eq_ok_iff.1 hreport
    obtain ⟨hpoint, hdeclared⟩ := h _ _ hpasses
    -- an extension that is allowed is not empty
    have hextension : extensionOf S.unicode filename =
        "." ++ S.unicode.lower (suffixOf filename) := by
      have hexpected := hpasses.extension
      rw [FileSafetyScanner.expectedContentType, extensionOf] at hexpected
      rw [extensionOf]
      split at hexpected
      · have hnone : allowedExtensions.lookup "" = none := by decide
        rw [hnone] at hexpected
        cases hexpected
      next hne => rw [if_neg hne]
    exact ⟨hpasses.size, hpoint, hextension ▸ hpasses.extension, hpasses.bytes, hdeclared,
      hpasses.pdf, hpasses.image, hpasses.pages⟩

namespace Sample

/-- A library that reads no file. -/
def noPdf : PdfLibrary where
  isEncrypted _ := .error (.pdfReadError "EOF marker not found")
  pageCount _ := .error (.pdfReadError "EOF marker not found")
  pageTexts _ := .error (.pdfReadError "EOF marker not found")

def scanner : FileSafetyScanner := ⟨1024, 20, noPdf, .ascii⟩

def png : List UInt8 := [0x89, 0x50, 0x4e, 0x47, 0x0d, 0x0a, 0x1a, 0x0a]

/-- The scanner accepts the picture under a name of the right extension. -/
theorem scan_png {filename : String} (h : scanner.expectedContentType filename = some "image/png")
    (declaredContentType : String) :
    scanner.scan png filename declaredContentType = .ok ⟨"image/png", 1⟩ :=
  FileSafetyScanner.scan_eq_ok_iff.2
    ⟨by decide, h, by decide +kernel, fun hpdf => absurd hpdf (by decide), fun _ => rfl, by decide⟩

end Sample

/-- A picture that is declared as one is accepted as what it is. -/
theorem scan_agrees_png : Sample.scanner.Agrees Sample.png "photo.PNG" "image/png" ⟨"image/png", 1⟩ :=
  (scan_agrees_iff Sample.scanner Sample.png "photo.PNG" "image/png").2
    (fun contentType pages h => by
      have hbytes := h.bytes
      rw [show sniffContentType Sample.png = some "image/png" by decide +kernel] at hbytes
      exact ⟨by decide +kernel, Option.some.inj hbytes⟩) _ (Sample.scan_png (by decide +kernel) _)

/-- **A picture that was declared as text is accepted**, and so is one whose name has no point. -/
theorem scan_ignores_declared :
    (∃ report, Sample.scanner.scan Sample.png "photo.png" "text/plain" = .ok report ∧
      ¬ Sample.scanner.Agrees Sample.png "photo.png" "text/plain" report) ∧
    ∃ report, Sample.scanner.scan Sample.png "png" "image/png" = .ok report ∧
      ¬ Sample.scanner.Agrees Sample.png "png" "image/png" report :=
  ⟨⟨_, Sample.scan_png (by decide +kernel) _, fun h => absurd h.declared (by decide)⟩,
    _, Sample.scan_png (by decide +kernel) _, fun h => absurd h.point (by decide +kernel)⟩

end FinAssist
