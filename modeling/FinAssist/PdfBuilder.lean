/-
**The synthetic documents as files: `build_minimal_pdf`.**

A document is a single page of text.  The file is written front to back: a header, five objects whose
offsets are noted while the buffer grows, the table of these offsets, and a trailer that ends with the
offset of the table.  Text is escaped by three replacements, one after another, of which the first is
that of the backslash.

Main definitions:

* `FinAssist.escapePdfText` — the three replacements;
* `FinAssist.contentStream` — the operators that show the lines;
* `FinAssist.PdfBuffer.appendObject`, `FinAssist.writeObjects` — the loop over the objects;
* `FinAssist.buildMinimalPdf` — the file;
* `FinAssist.IsPdf` — **what a reader of the file relies on**.

Main results:

* `FinAssist.escapePdfText_toList` — the replacements escape each character by itself;
* `FinAssist.writeObjects_holds` — every object stands at its offset;
* `FinAssist.contentStream_shows` — the content stream shows the lines;
* `FinAssist.minimal_pdf_valid` — **every file is valid and shows its lines**.
-/

import FinAssist.PdfStrings
import FinAssist.Timestamps

set_option relaxedAutoImplicit false
set_option autoImplicit false

namespace FinAssist

open Pdf

/-! ### Text -/

/-- `s.replace(old, new)` for a single character. -/
def replaceChar (old : Char) (new : List Char) (s : List Char) : List Char :=
  s.flatMap fun c => if c = old then new else [c]

/-- `_escape_pdf_text`. -/
def escapePdfText (text : String) : String :=
  String.ofList
    (replaceChar ')' ['\\', ')']
      (replaceChar '(' ['\\', '('] (replaceChar '\\' ['\\', '\\'] text.toList)))

/-- A character in `latin-1`; a question mark stands for what it lacks. -/
def latin1Byte (c : Char) : UInt8 := if c.toNat < 256 then UInt8.ofNat c.toNat else 63

/-- `s.encode("latin-1", errors="replace")`.  ASCII has the same bytes. -/
def encodeLatin1 (s : String) : Bytes := s.toList.map latin1Byte

def decodeLatin1 (s : Bytes) : String := String.ofList (s.map fun b => Char.ofNat b.toNat)

def isAscii (s : String) : Bool := s.toList.all fun c => c.toNat < 128

/-- `s.encode("ascii")`, which raises for any other character. -/
def encodeAscii (s : String) : Option Bytes := if isAscii s then some (encodeLatin1 s) else none

/-! ### The content stream -/

/-- What the loop appends for a line. -/
def shownLine (i : ℕ) (line : String) : List String :=
  (if i > 0 then ["T*"] else []) ++ ["(" ++ escapePdfText line ++ ") Tj"]

def contentLines (lines : List String) : List String :=
  ["BT", "/F1 12 Tf", "72 720 Td", "14 TL"] ++
    (lines.zipIdx.flatMap fun line => shownLine line.2 line.1) ++ ["ET"]

def contentStream (lines : List String) : Bytes :=
  encodeLatin1 ("\n".intercalate (contentLines lines))

/-! ### The file -/

/-- The object with the content stream. -/
def streamObject (content : Bytes) : Bytes :=
  encodeLatin1 ("<< /Length " ++ toString content.length ++ " >>\nstream\n") ++ content ++
    encodeLatin1 "\nendstream"

def pdfObjects (content : Bytes) : List Bytes :=
  [encodeLatin1 "<< /Type /Catalog /Pages 2 0 R >>",
    encodeLatin1 "<< /Type /Pages /Kids [3 0 R] /Count 1 >>",
    encodeLatin1
      ("<< /Type /Page /Parent 2 0 R /Resources << /Font << /F1 4 0 R >> >> " ++
        "/MediaBox [0 0 612 792] /Contents 5 0 R >>"),
    encodeLatin1 "<< /Type /Font /Subtype /Type1 /BaseFont /Helvetica >>",
    streamObject content]

/-- The buffer, and the offsets of the objects in it. -/
structure PdfBuffer where
  bytes : Bytes
  offsets : List ℕ

/-- An object as it stands in the file. -/
def pdfObject (i : ℕ) (body : Bytes) : Bytes :=
  encodeLatin1 (toString i ++ " 0 obj\n") ++ body ++ encodeLatin1 "\nendobj\n"

/-- The body of the loop over the objects. -/
def PdfBuffer.appendObject (b : PdfBuffer) (i : ℕ) (body : Bytes) : PdfBuffer where
  bytes := b.bytes ++ pdfObject i body
  offsets := b.offsets ++ [b.bytes.length]

/-- The header and the objects. -/
def writeObjects (objects : List Bytes) : PdfBuffer :=
  (objects.zipIdx 1).foldl (fun b object => b.appendObject object.2 object.1)
    ⟨encodeLatin1 "%PDF-1.4\n", []⟩

/-- The entry of an object that is in use. -/
def xrefEntry (offset : ℕ) : Bytes := encodeLatin1 (zeroPad 10 offset ++ " 00000 n \n")

def freeEntry : Bytes := encodeLatin1 "0000000000 65535 f \n"

/-- The table of the offsets. -/
def xrefTable (objectCount : ℕ) (offsets : List ℕ) : Bytes :=
  encodeLatin1 ("xref\n0 " ++ toString objectCount ++ "\n") ++ freeEntry ++
    offsets.flatMap xrefEntry

def pdfTrailer (objectCount : ℕ) (title : String) (xrefOffset : ℕ) : String :=
  "trailer\n<< /Size " ++ toString objectCount ++ " /Root 1 0 R /Info << /Title (" ++
    escapePdfText title ++ ") >> >>\nstartxref\n" ++ toString xrefOffset ++ "\n%%EOF"

/-- **`build_minimal_pdf`**; it raises where the trailer cannot be encoded. -/
def buildMinimalPdf (title : String) (lines : List String) : Option Bytes :=
  let objects := pdfObjects (contentStream lines)
  let buffer := writeObjects objects
  let xrefOffset := buffer.bytes.length
  let objectCount := objects.length + 1
  (encodeAscii (pdfTrailer objectCount title xrefOffset)).map fun trailer =>
    buffer.bytes ++ xrefTable objectCount buffer.offsets ++ trailer

/-! ### What is at an offset -/

/-- `part` is at an offset of a file. -/
def StandsAt (part : Bytes) (offset : ℕ) (file : Bytes) : Prop :=
  ∃ pre post, file = pre ++ part ++ post ∧ pre.length = offset

theorem StandsAt.append {part file : Bytes} {offset : ℕ} (h : StandsAt part offset file)
    (more : Bytes) : StandsAt part offset (file ++ more) := by
  obtain ⟨pre, post, rfl, hpre⟩ := h
  exact ⟨pre, post ++ more, by simp only [List.append_assoc], hpre⟩

theorem standsAt_end (file part : Bytes) : StandsAt part file.length (file ++ part) :=
  ⟨file, [], by rw [List.append_nil], rfl⟩

theorem StandsAt.left {part more file : Bytes} {offset : ℕ}
    (h : StandsAt (part ++ more) offset file) : StandsAt part offset file := by
  obtain ⟨pre, post, rfl, hpre⟩ := h
  exact ⟨pre, more ++ post, by simp only [List.append_assoc], hpre⟩

theorem StandsAt.right {part more file : Bytes} {offset : ℕ}
    (h : StandsAt (part ++ more) offset file) : StandsAt more (offset + part.length) file := by
  obtain ⟨pre, post, rfl, rfl⟩ := h
  exact ⟨pre ++ part, post, by simp only [List.append_assoc], List.length_append⟩

theorem StandsAt.le {part file : Bytes} {offset : ℕ} (h : StandsAt part offset file) :
    offset + part.length ≤ file.length := by
  obtain ⟨pre, post, rfl, rfl⟩ := h
  simp only [List.length_append]
  omega

/-! ### The objects -/

/-- The objects that are written stand at their offsets. -/
structure PdfBuffer.Holds (b : PdfBuffer) (written : List Bytes) : Prop where
  count : b.offsets.length = written.length
  placed : ∀ i body offset, written[i]? = some body → b.offsets[i]? = some offset →
    StandsAt (pdfObject (i + 1) body) offset b.bytes

theorem PdfBuffer.Holds.appendObject {b : PdfBuffer} {written : List Bytes} (h : b.Holds written)
    (body : Bytes) : (b.appendObject (written.length + 1) body).Holds (written ++ [body]) where
  count := by
    simp only [PdfBuffer.appendObject, List.length_append, h.count, List.length_singleton]
  placed i body' offset hbody hoffset := by
    simp only [PdfBuffer.appendObject] at hoffset ⊢
    rcases Nat.lt_or_ge i written.length with hlt | hge
    · rw [List.getElem?_append_left hlt] at hbody
      rw [List.getElem?_append_left (h.count ▸ hlt)] at hoffset
      exact (h.placed i body' offset hbody hoffset).append _
    · rw [List.getElem?_append_right hge] at hbody
      rw [List.getElem?_append_right (h.count ▸ hge), h.count] at hoffset
      rw [List.getElem?_singleton, Option.ite_none_right_eq_some] at hbody hoffset
      obtain ⟨hi, hbody⟩ := hbody
      obtain rfl : i = written.length := by omega
      cases hbody
      cases hoffset.2
      exact standsAt_end _ _

/-- **Every object stands at its offset.** -/
theorem writeObjects_holds (objects : List Bytes) : (writeObjects objects).Holds objects := by
  have hrun : ∀ (left written : List Bytes) (b : PdfBuffer), b.Holds written →
      ((left.zipIdx (written.length + 1)).foldl (fun b object => b.appendObject object.2 object.1)
        b).Holds (written ++ left) := by
    intro left
    induction left with
    | nil => exact fun written b hb => (List.append_nil written).symm ▸ hb
    | cons body left ih =>
        intro written b hb
        have hnext := ih (written ++ [body]) _ (hb.appendObject body)
        rw [List.zipIdx_cons, List.foldl_cons]
        simpa using hnext
  exact hrun objects [] ⟨encodeLatin1 "%PDF-1.4\n", []⟩ ⟨rfl, by simp⟩

/-! ### Escaping -/

/-- A character as it is in a literal string. -/
def escapedChar (c : Char) : List Char := if c = '\\' ∨ c = '(' ∨ c = ')' then ['\\', c] else [c]

/-- **The replacements escape each character by itself**: a later one finds nothing to replace in what
an earlier one put in. -/
theorem escapePdfText_toList (text : String) :
    (escapePdfText text).toList = text.toList.flatMap escapedChar := by
  rw [escapePdfText, String.toList_ofList, replaceChar, replaceChar, replaceChar,
    List.flatMap_assoc, List.flatMap_assoc]
  refine List.flatMap_congr fun c _ => ?_
  by_cases hbackslash : c = '\\'
  · subst hbackslash
    rfl
  by_cases hopen : c = '('
  · subst hopen
    rfl
  by_cases hclose : c = ')'
  · subst hclose
    rfl
  simp [escapedChar, hbackslash, hopen, hclose]

example : (escapePdfText "a (b) c \\ d").toList = "a \\(b\\) c \\\\ d".toList := by decide +kernel

theorem latin1Byte_eq_iff {c : Char} {n : ℕ} (hn : n < 256) (hne : n ≠ 63) :
    latin1Byte c = UInt8.ofNat n ↔ c.toNat = n := by
  rw [latin1Byte]
  split
  next h =>
    rw [← UInt8.toNat_inj, UInt8.toNat_ofNat', UInt8.toNat_ofNat', Nat.mod_eq_of_lt h,
      Nat.mod_eq_of_lt hn]
  next h =>
    constructor
    · intro heq
      have hnat := congrArg UInt8.toNat heq
      rw [UInt8.toNat_ofNat', Nat.mod_eq_of_lt hn] at hnat
      exact absurd hnat.symm hne
    · intro heq
      omega

theorem latin1Byte_eq_iff' {c d : Char} (hd : d.toNat < 256) (hne : d.toNat ≠ 63) :
    latin1Byte c = UInt8.ofNat d.toNat ↔ c = d := by
  rw [latin1Byte_eq_iff hd hne]
  exact ⟨fun h => Char.toNat_inj.1 h, fun h => congrArg Char.toNat h⟩

theorem encodeLatin1_append (s t : String) :
    encodeLatin1 (s ++ t) = encodeLatin1 s ++ encodeLatin1 t := by
  rw [encodeLatin1, String.toList_append, List.map_append]
  rfl

theorem encodeLatin1_escape (text : String) :
    encodeLatin1 (escapePdfText text) = (encodeLatin1 text).flatMap escapeByte := by
  rw [encodeLatin1, escapePdfText_toList, List.map_flatMap, encodeLatin1, List.flatMap_map]
  refine List.flatMap_congr fun c _ => ?_
  have hbackslash : latin1Byte c = 92 ↔ c = '\\' :=
    latin1Byte_eq_iff' (d := '\\') (by decide) (by decide)
  have hopen : latin1Byte c = 40 ↔ c = '(' :=
    latin1Byte_eq_iff' (d := '(') (by decide) (by decide)
  have hclose : latin1Byte c = 41 ↔ c = ')' :=
    latin1Byte_eq_iff' (d := ')') (by decide) (by decide)
  rw [escapedChar, escapeByte, if_congr (or_congr hbackslash (or_congr hopen hclose)) rfl rfl]
  split
  · rfl
  · rfl

theorem encodeLatin1_intercalate (ls : List String) :
    encodeLatin1 ("\n".intercalate ls) = [10].intercalate (ls.map encodeLatin1) := by
  rw [encodeLatin1, String.toList_intercalate]
  induction ls with
  | nil => rfl
  | cons l ls ih =>
      cases ls with
      | nil => simp [encodeLatin1]
      | cons l' ls =>
          simp only [List.map_cons, List.intercalate_cons_cons, List.map_append] at ih ⊢
          rw [ih]
          rfl

/-! ### What the content stream shows -/

/-- What the loop appends for a line, and how it reads. -/
def shownPieces (i : ℕ) (line : String) : List (String × List Token) :=
  (if i > 0 then [("T*", [.word [84, 42]])] else []) ++
    [("(" ++ escapePdfText line ++ ") Tj",
      [.literal (lineFeeds (encodeLatin1 line)), .word showOperator])]

def contentPieces (lines : List String) : List (String × List Token) :=
  [("BT", [.word [66, 84]]),
    ("/F1 12 Tf", [.word [47, 70, 49], .word [49, 50], .word [84, 102]]),
    ("72 720 Td", [.word [55, 50], .word [55, 50, 48], .word [84, 100]]),
    ("14 TL", [.word [49, 52], .word [84, 76]])] ++
    (lines.zipIdx.flatMap fun line => shownPieces line.2 line.1) ++ [("ET", [.word [69, 84]])]

theorem contentPieces_fst (lines : List String) :
    (contentPieces lines).map Prod.fst = contentLines lines := by
  have hshown : ∀ line : String × ℕ,
      (shownPieces line.2 line.1).map Prod.fst = shownLine line.2 line.1 := by
    intro line
    rw [shownPieces, shownLine, List.map_append]
    split <;> rfl
  simp only [contentPieces, contentLines, List.map_append, List.map_flatMap, hshown, List.map_cons,
    List.map_nil]

theorem reads_shown (line : String) :
    Reads (encodeLatin1 ("(" ++ escapePdfText line ++ ") Tj"))
      [.literal (lineFeeds (encodeLatin1 line)), .word showOperator] := by
  have hreads := (reads_escaped (encodeLatin1 line)).white (b := 32)
    (reads_word (w := showOperator) (by decide)) (by decide)
  rw [encodeLatin1_append, encodeLatin1_append, encodeLatin1_escape]
  have hopen : encodeLatin1 "(" = [40] := by decide
  have hclose : encodeLatin1 ") Tj" = 41 :: 32 :: showOperator := by decide
  rw [hopen, hclose]
  simpa using hreads

/-- **Each piece of the content stream reads as it is meant.** -/
theorem reads_of_mem_contentPieces {lines : List String} {p : String × List Token}
    (h : p ∈ contentPieces lines) : Reads (encodeLatin1 p.1) p.2 := by
  have hwords : ∀ ws : List Bytes, ws.all isWord = true →
      Reads ([32].intercalate ws) (ws.map .word) :=
    fun _ hws => reads_words (List.all_eq_true.1 hws)
  rcases List.mem_append.1 h with h | h
  rcases List.mem_append.1 h with h | h
  · simp only [List.mem_cons, List.not_mem_nil, or_false] at h
    rcases h with rfl | rfl | rfl | rfl
    · exact hwords [[66, 84]] (by decide)
    · exact hwords [[47, 70, 49], [49, 50], [84, 102]] (by decide)
    · exact hwords [[55, 50], [55, 50, 48], [84, 100]] (by decide)
    · exact hwords [[49, 52], [84, 76]] (by decide)
  · obtain ⟨line, -, h⟩ := List.mem_flatMap.1 h
    rcases List.mem_append.1 h with h | h
    · split at h
      · obtain rfl := List.mem_singleton.1 h
        exact hwords [[84, 42]] (by decide)
      · exact absurd h List.not_mem_nil
    · obtain rfl := List.mem_singleton.1 h
      exact reads_shown line.1
  · obtain rfl := List.mem_singleton.1 h
    exact hwords [[69, 84]] (by decide)

def contentTokens (lines : List String) : List Token :=
  ((contentPieces lines).map Prod.snd).flatten

theorem tokens_contentStream (lines : List String) :
    tokens (contentStream lines) = some (contentTokens lines) := by
  have hreads := reads_intercalate (b := 10) (by decide)
    (p := (contentPieces lines).map fun p => (encodeLatin1 p.1, p.2))
    (by
      intro q hq
      obtain ⟨p, hp, rfl⟩ := List.mem_map.1 hq
      exact reads_of_mem_contentPieces hp)
  have hread := hreads [] nofun
  rw [contentStream, encodeLatin1_intercalate, ← contentPieces_fst]
  simpa [tokens_nil, contentTokens, Function.comp_def] using hread

theorem shownStrings_zipIdx (lines : List String) (k : ℕ) (ts : List Token) :
    shownStrings
      ((((lines.zipIdx k).flatMap fun line => shownPieces line.2 line.1).map Prod.snd).flatten ++ ts) =
      lines.map (fun line => lineFeeds (encodeLatin1 line)) ++ shownStrings ts := by
  induction lines generalizing k with
  | nil => rfl
  | cons line lines ih =>
      have hwords := shownStrings_words [[84, 42]]
      rw [List.zipIdx_cons, List.flatMap_cons, List.map_append, List.flatten_append,
        List.append_assoc, List.map_cons, List.cons_append, ← ih (k + 1), ← shownStrings_shown,
        shownPieces]
      split
      · exact hwords _
      · rfl

/-- **The content stream shows the lines.** -/
theorem shownStrings_contentTokens (lines : List String) :
    shownStrings (contentTokens lines) =
      lines.map fun line => lineFeeds (encodeLatin1 line) := by
  have hbefore := shownStrings_words
    [[66, 84], [47, 70, 49], [49, 50], [84, 102], [55, 50], [55, 50, 48], [84, 100], [49, 52], [84, 76]]
  have hlines := shownStrings_zipIdx lines 0 [.word [69, 84]]
  rw [contentTokens, contentPieces, List.map_append, List.map_append, List.flatten_append,
    List.flatten_append, List.append_assoc]
  refine (hbefore _).trans (hlines.trans ?_)
  exact List.append_nil _

/-- What is shown, as text. -/
theorem decodeLatin1_shown {line : String} (h : ∀ c ∈ line.toList, c.toNat < 256 ∧ c ≠ '\r') :
    decodeLatin1 (lineFeeds (encodeLatin1 line)) = line := by
  have hcr : (13 : UInt8) ∉ encodeLatin1 line := by
    intro hmem
    obtain ⟨c, hc, hbyte⟩ := List.mem_map.1 hmem
    have hiff : latin1Byte c = 13 ↔ c = '\r' := latin1Byte_eq_iff' (d := '\r') (by decide) (by decide)
    exact (h c hc).2 (hiff.1 hbyte)
  have hchars : (encodeLatin1 line).map (fun b => Char.ofNat b.toNat) = line.toList := by
    rw [encodeLatin1, List.map_map]
    refine (List.map_congr_left fun c hc => ?_).trans (List.map_id _)
    have hbyte : latin1Byte c = UInt8.ofNat c.toNat := if_pos (h c hc).1
    rw [Function.comp_apply, hbyte, UInt8.toNat_ofNat', Nat.mod_eq_of_lt (h c hc).1,
      Char.ofNat_toNat, id]
  rw [lineFeeds_eq_self hcr, decodeLatin1, hchars, String.ofList_toList]

/-! ### The file as a whole -/

theorem isAscii_append {s t : String} (hs : isAscii s = true) (ht : isAscii t = true) :
    isAscii (s ++ t) = true := by
  rw [isAscii, String.toList_append, List.all_append]
  exact Bool.and_eq_true_iff.2 ⟨hs, ht⟩

theorem isAscii_toString (n : ℕ) : isAscii (toString n) = true := by
  have hdigits : (toString n).toList = Nat.toDigits 10 n := Nat.toList_repr
  rw [isAscii, hdigits, List.all_eq_true]
  intro c hc
  have hdigit := Nat.isDigit_of_mem_toDigits (by omega) (by omega) hc
  have hrange : 48 ≤ c.toNat ∧ c.toNat ≤ 57 := by
    simpa [Char.isDigit, UInt32.le_iff_toNat_le] using hdigit
  exact decide_eq_true (by omega)

theorem isAscii_escapePdfText {title : String} (h : isAscii title = true) :
    isAscii (escapePdfText title) = true := by
  rw [isAscii, List.all_eq_true] at h ⊢
  rw [escapePdfText_toList]
  intro c hc
  obtain ⟨d, hd, hc⟩ := List.mem_flatMap.1 hc
  rw [escapedChar] at hc
  split at hc
  · rcases List.mem_cons.1 hc with rfl | hc
    · decide
    · rw [List.mem_singleton.1 hc]
      exact h d hd
  · rw [List.mem_singleton.1 hc]
    exact h d hd

theorem isAscii_pdfTrailer {title : String} (h : isAscii title = true) (objectCount xrefOffset : ℕ) :
    isAscii (pdfTrailer objectCount title xrefOffset) = true := by
  have hsize : isAscii ("trailer\n<< /Size " ++ toString objectCount) = true :=
    isAscii_append (by decide +kernel) (isAscii_toString objectCount)
  have hroot := isAscii_append hsize (t := " /Root 1 0 R /Info << /Title (") (by decide +kernel)
  have hclose := isAscii_append (isAscii_append hroot (isAscii_escapePdfText h))
    (t := ") >> >>\nstartxref\n") (by decide +kernel)
  exact isAscii_append (isAscii_append hclose (isAscii_toString xrefOffset)) (by decide +kernel)

theorem xrefEntry_length {offset : ℕ} (h : offset < 10 ^ 10) : (xrefEntry offset).length = 20 := by
  rw [xrefEntry, encodeLatin1_append, List.length_append]
  have hdigits : (encodeLatin1 (zeroPad 10 offset)).length = 10 := by
    rw [encodeLatin1, List.length_map, zeroPad_length (by omega) h]
  have hrest : (encodeLatin1 " 00000 n \n").length = 10 := by decide
  rw [hdigits, hrest]

/-- **What a reader of the file relies on**: where the offsets are, what is at them, how long the
entries and the content are, and where the title ends. -/
structure IsPdf (file : Bytes) (title : String) (content : Bytes) (xrefOffset : ℕ)
    (offsets : List ℕ) : Prop where
  header : encodeLatin1 "%PDF-1.4\n" <+: file
  startxref : encodeLatin1 ("startxref\n" ++ toString xrefOffset ++ "\n%%EOF") <:+ file
  xref : StandsAt (encodeLatin1 "xref\n0 6\n") xrefOffset file
  table : StandsAt (freeEntry ++ offsets.flatMap xrefEntry) (xrefOffset + 9) file
  inUse : offsets.length = 5
  objects : ∀ i offset, offsets[i]? = some offset →
    StandsAt (encodeLatin1 (toString (i + 1) ++ " 0 obj\n")) offset file
  entries : file.length < 10 ^ 10 → ∀ entry ∈ freeEntry :: offsets.map xrefEntry, entry.length = 20
  stream : ∃ offset, offsets[4]? = some offset ∧
    StandsAt (pdfObject 5 (streamObject content)) offset file
  title : ∃ before literal, file = before ++ encodeLatin1 "/Title (" ++ literal ∧
    readLiteral literal = some (lineFeeds (encodeLatin1 title),
      encodeLatin1 (" >> >>\nstartxref\n" ++ toString xrefOffset ++ "\n%%EOF"))

theorem writeObjects_header (objects : List Bytes) :
    encodeLatin1 "%PDF-1.4\n" <+: (writeObjects objects).bytes := by
  have hrun : ∀ (left : List (Bytes × ℕ)) (b : PdfBuffer),
      b.bytes <+: (left.foldl (fun b object => b.appendObject object.2 object.1) b).bytes := by
    intro left
    induction left with
    | nil => exact fun b => List.prefix_rfl
    | cons object left ih =>
        intro b
        have hnext := ih (b.appendObject object.2 object.1)
        exact (List.prefix_append b.bytes _).trans hnext
  exact hrun (objects.zipIdx 1) ⟨encodeLatin1 "%PDF-1.4\n", []⟩

/-- Where the title is in the trailer, and what follows it. -/
theorem encodeLatin1_pdfTrailer (objectCount : ℕ) (title : String) (xrefOffset : ℕ) :
    ∃ before, encodeLatin1 (pdfTrailer objectCount title xrefOffset) =
      before ++ (encodeLatin1 "/Title (" ++ ((encodeLatin1 title).flatMap escapeByte ++ 41 ::
        encodeLatin1 (" >> >>\nstartxref\n" ++ toString xrefOffset ++ "\n%%EOF"))) := by
  have hroot : encodeLatin1 " /Root 1 0 R /Info << /Title (" =
      encodeLatin1 " /Root 1 0 R /Info << " ++ encodeLatin1 "/Title (" := by decide +kernel
  have hclose : encodeLatin1 ") >> >>\nstartxref\n" =
      41 :: encodeLatin1 " >> >>\nstartxref\n" := by decide +kernel
  refine ⟨encodeLatin1 ("trailer\n<< /Size " ++ toString objectCount) ++
    encodeLatin1 " /Root 1 0 R /Info << ", ?_⟩
  unfold pdfTrailer
  -- the texts are made opaque, so that none is unfolded while the others are compared with it
  generalize "trailer\n<< /Size " = size
  generalize " /Root 1 0 R /Info << /Title (" = root at hroot ⊢
  generalize ") >> >>\nstartxref\n" = close at hclose ⊢
  generalize " >> >>\nstartxref\n" = startxref at hclose ⊢
  generalize " /Root 1 0 R /Info << " = root' at hroot ⊢
  generalize "/Title (" = titleKey at hroot ⊢
  generalize "\n%%EOF" = eof
  simp only [encodeLatin1_append, hroot, hclose, encodeLatin1_escape, List.append_assoc,
    List.cons_append]

/-- The table and the trailer, after the objects. -/
theorem isPdf_of_holds {b : PdfBuffer} {content : Bytes} (hb : b.Holds (pdfObjects content))
    (hheader : encodeLatin1 "%PDF-1.4\n" <+: b.bytes) (title : String) :
    IsPdf (b.bytes ++ xrefTable 6 b.offsets ++ encodeLatin1 (pdfTrailer 6 title b.bytes.length)) title
      content b.bytes.length b.offsets := by
  have htable : StandsAt
      (encodeLatin1 "xref\n0 6\n" ++ (freeEntry ++ b.offsets.flatMap xrefEntry)) b.bytes.length
      (b.bytes ++ xrefTable 6 b.offsets) := by
    rw [← List.append_assoc]
    exact standsAt_end b.bytes _
  have hobjects : ∀ i offset, b.offsets[i]? = some offset →
      ∃ body, (pdfObjects content)[i]? = some body ∧ StandsAt (pdfObject (i + 1) body) offset b.bytes := by
    intro i offset hoffset
    obtain ⟨hi, -⟩ := List.getElem?_eq_some_iff.1 hoffset
    obtain ⟨body, hbody⟩ : ∃ body, (pdfObjects content)[i]? = some body :=
      ⟨_, List.getElem?_eq_getElem (hb.count ▸ hi)⟩
    exact ⟨body, hbody, hb.placed i body offset hbody hoffset⟩
  have hcount : b.offsets.length = 5 := hb.count
  obtain ⟨before, htrailer⟩ := encodeLatin1_pdfTrailer 6 title b.bytes.length
  exact {
    header := (hheader.trans (List.prefix_append _ _)).trans (List.prefix_append _ _)
    startxref := by
      have hclose : encodeLatin1 " >> >>\nstartxref\n" =
          encodeLatin1 " >> >>\n" ++ encodeLatin1 "startxref\n" := by decide +kernel
      refine List.IsSuffix.trans ?_ (List.suffix_append _ _)
      rw [htrailer]
      generalize " >> >>\nstartxref\n" = both at hclose ⊢
      generalize "startxref\n" = startxref at hclose ⊢
      generalize "\n%%EOF" = eof
      simp only [encodeLatin1_append, hclose]
      refine ⟨before ++ encodeLatin1 "/Title (" ++ (encodeLatin1 title).flatMap escapeByte ++
        41 :: encodeLatin1 " >> >>\n", ?_⟩
      simp only [List.append_assoc, List.cons_append]
    xref := htable.left.append _
    table := htable.right.append _
    inUse := hcount
    objects := by
      intro i offset hoffset
      obtain ⟨body, -, hobject⟩ := hobjects i offset hoffset
      exact (hobject.left.left.append _).append _
    entries := by
      intro hsize entry hentry
      rcases List.mem_cons.1 hentry with rfl | hentry
      · decide +kernel
      · obtain ⟨offset, hoffset, rfl⟩ := List.mem_map.1 hentry
        obtain ⟨i, hi⟩ := List.mem_iff_getElem?.1 hoffset
        obtain ⟨body, -, hobject⟩ := hobjects i offset hi
        have hle := ((hobject.append (xrefTable 6 b.offsets)).append
          (encodeLatin1 (pdfTrailer 6 title b.bytes.length))).le
        exact xrefEntry_length (by omega)
    stream := by
      obtain ⟨offset, hoffset⟩ : ∃ offset, b.offsets[4]? = some offset :=
        ⟨_, List.getElem?_eq_getElem (by omega)⟩
      obtain ⟨body, hbody, hobject⟩ := hobjects 4 offset hoffset
      cases hbody
      exact ⟨offset, hoffset, (hobject.append _).append _⟩
    title := by
      refine ⟨b.bytes ++ xrefTable 6 b.offsets ++ before, _, ?_, readLiteral_escaped _ _⟩
      rw [htrailer]
      simp only [List.append_assoc] }

/-- **Every file is valid, and shows its lines**, whatever they are; as text the lines are given back
where they are Latin-1 and have no carriage return. -/
theorem minimal_pdf_valid (title : String) (lines : List String) (htitle : isAscii title = true) :
    ∃ file content xrefOffset offsets ts,
      buildMinimalPdf title lines = some file ∧
        IsPdf file title content xrefOffset offsets ∧
        tokens content = some ts ∧
        shownStrings ts = lines.map (fun line => lineFeeds (encodeLatin1 line)) ∧
        ((∀ line ∈ lines, ∀ c ∈ line.toList, c.toNat < 256 ∧ c ≠ '\r') →
          (shownStrings ts).map decodeLatin1 = lines) := by
  have hvalid := isPdf_of_holds (writeObjects_holds (pdfObjects (contentStream lines)))
    (writeObjects_header _) title
  have htrailer : encodeAscii (pdfTrailer 6 title
      (writeObjects (pdfObjects (contentStream lines))).bytes.length) = some _ :=
    if_pos (isAscii_pdfTrailer htitle _ _)
  have hfile := congrArg (Option.map fun trailer =>
    (writeObjects (pdfObjects (contentStream lines))).bytes ++
      xrefTable 6 (writeObjects (pdfObjects (contentStream lines))).offsets ++ trailer) htrailer
  refine ⟨_, _, _, _, _, hfile, hvalid, tokens_contentStream lines, shownStrings_contentTokens lines,
    fun hlines => ?_⟩
  rw [shownStrings_contentTokens, List.map_map]
  refine (List.map_congr_left fun line hline => ?_).trans (List.map_id _)
  exact decodeLatin1_shown (hlines line hline)

/-- A line with parentheses and a backslash is given back. -/
theorem minimal_pdf_escapes : ∃ file content xrefOffset offsets ts,
    buildMinimalPdf "Test" ["a (b) c \\ d"] = some file ∧
      IsPdf file "Test" content xrefOffset offsets ∧
      tokens content = some ts ∧
      (shownStrings ts).map decodeLatin1 = ["a (b) c \\ d"] := by
  obtain ⟨file, content, xrefOffset, offsets, ts, hfile, hvalid, htokens, -, hlines⟩ :=
    minimal_pdf_valid "Test" ["a (b) c \\ d"] (by decide +kernel)
  refine ⟨file, content, xrefOffset, offsets, ts, hfile, hvalid, htokens, hlines ?_⟩
  intro line hline
  obtain rfl := List.mem_singleton.1 hline
  have hchars : ("a (b) c \\ d".toList.all fun c => decide (c.toNat < 256 ∧ c ≠ '\r')) = true := by
    decide +kernel
  exact fun c hc => of_decide_eq_true (List.all_eq_true.1 hchars c hc)

end FinAssist
