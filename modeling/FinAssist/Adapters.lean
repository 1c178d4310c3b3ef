/-
**The adapters behind the ports.**

The handlers ask ports; this module answers them as the adapters of the repository do: the scanner
of uploaded files, the store of objects, the parser of documents and the extractor of facts.  The
clock, the ids and the external systems stay what they were.  What a third-party library does is a
parameter: the PDF library of the scanner and of the parser, and the names that the store takes.

Main definitions:

* `FinAssist.extractText` — the parser;
* `FinAssist.ObjectStore` — the store of objects, with what is in it;
* `FinAssist.adapters` — **the environment with the adapters**.

Main results:

* `FinAssist.ofPort_asPort` — what a handler gets of an adapter is what the adapter returns;
* `FinAssist.IdSource.adapters` — the ids stay new.
-/

import FinAssist.FileSafetyScanner
import FinAssist.FreshRuns

set_option relaxedAutoImplicit false
set_option autoImplicit false

namespace FinAssist

open ReadCommitted

/-! ### Answers -/

section Port

variable {α : Type}

/-- What an adapter returns, as the answer of its port. -/
def asPort : Except Error α → Except PortError α
  | .ok a => .ok a
  | .error e =>
      if h : e.isExternal = true then .error ⟨e, h⟩ else .error ⟨.external "", rfl⟩

/-- An adapter that raises no exception of the application. -/
def IsAdapter (r : Except Error α) : Prop := ∀ e, r = .error e → e.isExternal = true

theorem asPort_error {e : Error} (h : e.isExternal = true) :
    asPort (.error e : Except Error α) = .error ⟨e, h⟩ := dif_pos h

/-- **What a handler gets of an adapter** is what the adapter returns. -/
theorem ofPort_asPort {r : Except Error α} (h : IsAdapter r) :
    Handler.ofPort (asPort r) = Handler.ofExcept r := by
  cases r with
  | ok a => rfl
  | error e =>
      rw [asPort_error (h e rfl)]
      rfl

end Port

/-! ### The parser -/

/-- **`PyPdfDocumentParser.extract_text`.** -/
def extractText (P : PdfLibrary) (data : List UInt8) (contentType : String) :
    Except Error (List PageText) :=
  if contentType = "application/pdf" then
    match P.pageTexts data with
    | .error e => .error e.translated
    | .ok texts => .ok ((texts.zipIdx 1).map fun page => ⟨page.2, page.1⟩)
  else .error (.unsupportedDocumentType contentType)

/-! ### The store of objects -/

structure StoredObject where
  data : List UInt8
  contentType : String
  checksumSha256 : String
  deriving DecidableEq

/-- What is in the store, the latest version of an object first. -/
abbrev Objects := List (String × StoredObject)

/-- The segments of a key: `key.split("/")`. -/
def segments (key : String) : List (List Char) := key.toList.splitOn '/'

/-- `_scoped_key`. -/
def scopedKey (t : TenantId) (key : String) : Except Error String :=
  if key.toList.head? = some '/' ∨ ['.', '.'] ∈ segments key then
    .error (.valueError ("object key " ++ pyRepr key ++
      " must be a relative path with no '..' segments"))
  else .ok (t.value ++ "/" ++ key)

theorem scopedKey_eq_ok {t : TenantId} {key : String}
    (h : ¬ (key.toList.head? = some '/' ∨ ['.', '.'] ∈ segments key)) :
    scopedKey t key = .ok (t.value ++ "/" ++ key) := if_neg h

def sha256Hexdigest (data : List UInt8) : String := Sha256.hexdigestBytes (data.map UInt8.toNat)

/-- **An object store that is up**: of each name it says whether it is one for an object. -/
structure ObjectStore where
  takes : String → Bool

namespace ObjectStore

variable (O : ObjectStore)

/-- `S3ObjectStore.put_object`. -/
def putObject (objects : Objects) (t : TenantId) (key : String) (data : List UInt8)
    (contentType : String) : Except Error ObjectMetadata × Objects :=
  match scopedKey t key with
  | .error e => (.error e, objects)
  | .ok name =>
      if O.takes name then
        (.ok ⟨key, sha256Hexdigest data, data.length, contentType⟩,
          (name, ⟨data, contentType, sha256Hexdigest data⟩) :: objects)
      else (.error (.external "ClientError"), objects)

/-- The latest version of an object. -/
def latest (objects : Objects) (t : TenantId) (key : String) : Except Error StoredObject :=
  match scopedKey t key with
  | .error e => .error e
  | .ok name =>
      match objects.lookup name with
      | some object => .ok object
      | none => .error (.external ("object " ++ pyRepr key ++ " does not exist"))

/-- `S3ObjectStore.get_object`. -/
def getObject (objects : Objects) (t : TenantId) (key : String) : Except Error (List UInt8) :=
  (latest objects t key).map StoredObject.data

/-- `S3ObjectStore.get_object_metadata`. -/
def getObjectMetadata (objects : Objects) (t : TenantId) (key : String) :
    Except Error ObjectMetadata :=
  (latest objects t key).map fun object =>
    ⟨key, object.checksumSha256, object.data.length, object.contentType⟩

end ObjectStore

/-! ### The environment -/

section Environment

variable {σ : Type}

/-- **The environment with the adapters**: they answer their ports, the rest is answered as it
was. -/
def adapters (S : FileSafetyScanner) (O : ObjectStore) (E : Environment Answer σ) :
    Environment Answer (σ × Objects) := fun (s, objects) q =>
  match q with
  | .scan data filename declaredContentType =>
      (asPort (S.scan data filename declaredContentType), (s, objects))
  | .putObject t key data contentType =>
      let put := O.putObject objects t key data contentType
      (asPort put.1, (s, put.2))
  | .getObjectMetadata t key => (asPort (ObjectStore.getObjectMetadata objects t key), (s, objects))
  | .getObject t key => (asPort (ObjectStore.getObject objects t key), (s, objects))
  | .extractText data contentType => (asPort (extractText S.pdf data contentType), (s, objects))
  | .classify pages => (.ok (FinAssist.classify pages), (s, objects))
  | .extractFacts pages classification sourceChecksum =>
      (asPort (FinAssist.extractFacts S.unicode pages classification sourceChecksum), (s, objects))
  | q => ((E s q).1, ((E s q).2, objects))

variable {S : FileSafetyScanner} {O : ObjectStore} {E : Environment Answer σ}

theorem idOf_adapters (s : σ) (objects : Objects) :
    idOf (adapters S O E) (s, objects) = idOf E s := rfl

/-- **The ids stay new.** -/
def IdSource.adapters (G : IdSource E) : IdSource (FinAssist.adapters S O E) where
  used p := G.used p.1
  left p := G.left p.1
  new p := G.new p.1
  noted p := G.noted p.1
  kept p q id h := by
    cases q <;> first | exact h | exact G.kept p.1 _ id h
  spent p q := by
    cases q <;> first | exact Nat.le_add_right _ _ | exact G.spent p.1 _

end Environment

/-! ### The adapters raise nothing of the application -/

theorem isAdapter_scan (S : FileSafetyScanner) (data : List UInt8)
    (filename declaredContentType : String) : IsAdapter (S.scan data filename declaredContentType) :=
  fun _ h => FileSafetyScanner.isExternal_of_scan h

theorem isAdapter_extractText (P : PdfLibrary) (data : List UInt8) (contentType : String) :
    IsAdapter (extractText P data contentType) := by
  intro e h
  rw [extractText] at h
  split at h
  · cases hread : P.pageTexts data with
    | error pdfError =>
        rw [hread] at h
        exact Except.error.inj h ▸ pdfError.isExternal_translated
    | ok texts =>
        rw [hread] at h
        cases h
  · exact Except.error.inj h ▸ rfl

theorem isAdapter_scopedKey (t : TenantId) (key : String) : IsAdapter (scopedKey t key) := by
  intro e h
  rw [scopedKey] at h
  split at h
  · exact Except.error.inj h ▸ rfl
  · cases h

theorem isAdapter_putObject (O : ObjectStore) (objects : Objects) (t : TenantId) (key : String)
    (data : List UInt8) (contentType : String) :
    IsAdapter (O.putObject objects t key data contentType).1 := by
  intro e h
  rw [ObjectStore.putObject] at h
  cases hkey : scopedKey t key with
  | error keyError =>
      simp only [hkey] at h
      exact isAdapter_scopedKey t key e (Except.error.inj h ▸ hkey)
  | ok name =>
      simp only [hkey] at h
      split at h
      · cases h
      · exact Except.error.inj h ▸ rfl

end FinAssist
