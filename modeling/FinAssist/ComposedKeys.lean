/-
**Keys that are put together from identifiers.**

The id of a workflow and the idempotency key of an activity join their parts by colons, and the name
of an object joins a tenant id and a key by slashes.  A tenant id and an application id are what
`uuid.UUID` accepts, in any spelling, with colons in it or not; but no accepted string goes on with a
colon to another one, and none has a slash.  So the parts can be read off again, and an object stays
where its tenant's objects are.

Main definitions:

* `FinAssist.idempotencyKeyOf` — `_idempotency_key`, for any id of an activity;
* `FinAssist.resolve` — where a path leads;
* `FinAssist.Within` — a name that never leads out of a directory.

Main results:

* `FinAssist.work_keys_injective` — **no two units of work share a key**;
* `FinAssist.objects_isolated` — **no object is stored outside of its tenant**, and no upload outside
  of its document.
-/

import FinAssist.UploadApi
import FinAssist.UuidSpellings

set_option relaxedAutoImplicit false
set_option autoImplicit false

namespace FinAssist

open ReadCommitted

/-! ### Units of work -/

/-- An id of an activity. -/
structure ActivityId where
  value : String
  colonFree : ColonFree value

/-- `_idempotency_key(suffix=suffix)`, in an activity of a workflow. -/
def idempotencyKeyOf (workflowId : String) (activityId : ActivityId) (suffix : Option String) :
    String :=
  match suffix with
  | some suffix => workflowId ++ ":" ++ activityId.value ++ ":" ++ suffix
  | none => workflowId ++ ":" ++ activityId.value

/-- The id that Temporal has numbered an activity with. -/
def ActivityInfo.id (info : ActivityInfo) : ActivityId :=
  ⟨toString info.activityId, colonFree_nat _⟩

/-- The key that an activity reserves. -/
theorem idempotencyKey_eq (info : ActivityInfo) :
    idempotencyKey info = idempotencyKeyOf info.workflowId info.id none := rfl

/-- The key that an activity reserves for a document. -/
theorem documentKey_eq (info : ActivityInfo) (documentId : String) :
    documentKey info documentId = idempotencyKeyOf info.workflowId info.id (some documentId) := rfl

theorem ActivityId.ext_value {i j : ActivityId} (h : i.value = j.value) : i = j := by
  cases i
  cases j
  simpa using h

theorem Uuid4.ext_value {u v : Uuid4} (h : u.value = v.value) : u = v := by
  cases u
  cases v
  simpa using h

/-- **No two units of work share a key**: a workflow id determines the tenant, the application and
the version, in whatever spelling, and the key of an activity determines the workflow, the activity
and the document. -/
theorem work_keys_injective :
    (Function.Injective fun x : TenantId × ApplicationId × ℕ =>
      applicationWorkflowId x.1 x.2.1 x.2.2) ∧
    (Function.Injective fun x : String × ActivityId => idempotencyKeyOf x.1 x.2 none) ∧
    Function.Injective fun x : String × ActivityId × Uuid4 =>
      idempotencyKeyOf x.1 x.2.1 (some x.2.2.value) := by
  have hactivity : Function.Injective fun x : String × ActivityId =>
      idempotencyKeyOf x.1 x.2 none := by
    rintro ⟨w, i⟩ ⟨w', i'⟩ h
    obtain ⟨rfl, hi⟩ := colon_append_inj i.colonFree i'.colonFree h
    rw [ActivityId.ext_value hi]
  refine ⟨?_, hactivity, ?_⟩
  · rintro ⟨t, a, v⟩ ⟨t', a', v'⟩ h
    simp only [applicationWorkflowId_eq, String.append_assoc] at h
    obtain ⟨ht, h⟩ := Uuid.colon_inj t.isUuid t'.isUuid ((String.append_right_inj _).1 h)
    obtain ⟨ha, h⟩ := Uuid.colon_inj a.isUuid a'.isUuid h
    rw [TenantId.ext_value ht, ApplicationId.ext_value ha,
      toString_nat_inj ((String.append_right_inj _).1 h)]
  · rintro ⟨w, i, u⟩ ⟨w', i', u'⟩ h
    obtain ⟨hkey, hu⟩ := colon_append_inj u.colonFree u'.colonFree h
    have hsame := @hactivity (w, i) (w', i') hkey
    rw [(Prod.mk.inj hsame).1, (Prod.mk.inj hsame).2, Uuid4.ext_value hu]

/-! ### Paths -/

/-- One segment further: `.` and nothing stay, `..` goes up. -/
def enter (path : List (List Char)) (segment : List Char) : List (List Char) :=
  if segment = [] ∨ segment = ['.'] then path
  else if segment = ['.', '.'] then path.dropLast
  else path ++ [segment]

/-- Where a path leads. -/
def resolve (path : List (List Char)) : List (List Char) := path.foldl enter []

/-- A name for something in a directory: from the directory on, its path never leads out of it. -/
structure Within (directory : List (List Char)) (name : String) : Prop where
  begins : directory <+: segments name
  stays : ∀ n, directory.length ≤ n → directory <+: resolve ((segments name).take n)

/-- A segment that is the name of something. -/
def Proper (segment : List Char) : Prop := segment ≠ [] ∧ segment ≠ ['.'] ∧ segment ≠ ['.', '.']

theorem enter_proper {segment : List Char} (h : Proper segment) (path : List (List Char)) :
    enter path segment = path ++ [segment] := by
  rw [enter, if_neg (by simp [h.1, h.2.1]), if_neg h.2.2]

theorem prefix_enter {directory path : List (List Char)} {segment : List Char}
    (hsegment : segment ≠ ['.', '.']) (h : directory <+: path) :
    directory <+: enter path segment := by
  rw [enter, if_neg hsegment]
  split
  · exact h
  · exact h.trans (List.prefix_append _ _)

/-- Without `..` a path only leads further down. -/
theorem prefix_foldl {directory : List (List Char)} {rest : List (List Char)}
    (hrest : ['.', '.'] ∉ rest) : ∀ {path : List (List Char)}, directory <+: path →
      directory <+: rest.foldl enter path := by
  induction rest with
  | nil => exact fun h => h
  | cons segment rest ih =>
      rw [List.mem_cons, not_or] at hrest
      exact fun h => ih hrest.2 (prefix_enter (Ne.symm hrest.1) h)

/-- A directory of proper names is where its path leads. -/
theorem resolve_proper {directory : List (List Char)} (h : ∀ segment ∈ directory, Proper segment) :
    resolve directory = directory := by
  have hall : ∀ {path : List (List Char)}, directory.foldl enter path = path ++ directory := by
    induction directory with
    | nil => simp
    | cons segment directory ih =>
        intro path
        rw [List.foldl_cons, enter_proper (h segment List.mem_cons_self),
          ih fun s hs => h s (List.mem_cons_of_mem _ hs), List.append_assoc, List.singleton_append]
  exact hall.trans (List.nil_append _)

/-- **A path that begins in a directory and has no `..` stays there.** -/
theorem Within.of_segments {directory rest : List (List Char)} {name : String}
    (hname : segments name = directory ++ rest) (hproper : ∀ segment ∈ directory, Proper segment)
    (hrest : ['.', '.'] ∉ rest) : Within directory name := by
  refine ⟨hname ▸ List.prefix_append _ _, fun n hn => ?_⟩
  rw [hname, List.take_append, List.take_of_length_le hn, resolve, List.foldl_append]
  refine prefix_foldl (fun hmem => hrest (List.take_subset _ _ hmem)) ?_
  rw [show directory.foldl enter [] = directory from resolve_proper hproper]

/-! ### Names of objects -/

/-- A string without a slash. -/
def SlashFree (s : String) : Prop := '/' ∉ s.toList

theorem slashFree_of_accepts {s : String} (h : Uuid.accepts s = true) : SlashFree s :=
  Uuid.not_mem_of_accepts h (by decide) (by decide) (by decide)

/-- The segments behind a first one. -/
theorem segments_slash {s : String} (hs : SlashFree s) (x : String) :
    segments (s ++ "/" ++ x) = s.toList :: segments x := by
  have hlist : (s ++ "/" ++ x).toList = s.toList ++ '/' :: x.toList := by simp
  rw [segments, hlist, List.splitOn_eq_splitOnP]
  exact List.splitOnP_append_cons_of_forall_mem
    (fun c hc => beq_false_of_ne fun (heq : c = '/') => hs (heq ▸ hc)) '/' (beq_self_eq_true _) _

/-- The segments of a string without a slash. -/
theorem proper_of_accepts {s : String} (h : Uuid.accepts s = true) : Proper s.toList := by
  have hdot : '.' ∉ s.toList := Uuid.not_mem_of_accepts h (by decide) (by decide) (by decide)
  refine ⟨fun hnil => ?_, fun h => hdot (by simp [h]), fun h => hdot (by simp [h])⟩
  obtain rfl : s = "" := String.toList_inj.1 hnil
  exact absurd h (by decide)

theorem Uuid4.slashFree (u : Uuid4) : SlashFree u.value := fun h => absurd (u.chars h) (by decide)

theorem Uuid4.proper (u : Uuid4) : Proper u.value.toList := by
  have hdot : '.' ∉ u.value.toList := fun h => absurd (u.chars h) (by decide)
  refine ⟨fun hnil => ?_, fun h => hdot (by simp [h]), fun h => hdot (by simp [h])⟩
  have hempty : u.value = "" := String.toList_inj.1 hnil
  exact absurd (hempty ▸ u.isCanonical) (by decide)

theorem scopedKey_ok {t : TenantId} {key name : String} (h : scopedKey t key = .ok name) :
    name = t.value ++ "/" ++ key ∧ ['.', '.'] ∉ segments key := by
  rw [scopedKey] at h
  split at h
  · cases h
  next hno => exact ⟨(Except.ok.inj h).symm, fun hmem => hno (Or.inr hmem)⟩

/-- The directory of a tenant. -/
def tenantDirectory (t : TenantId) : List (List Char) := [t.value.toList]

/-- The directory of a document. -/
def documentDirectory (t : TenantId) (a : ApplicationId) (documentId : Uuid4) : List (List Char) :=
  [t.value.toList, "applications".toList, a.value.toList, documentId.value.toList]

theorem scopedKey_within {t : TenantId} {key name : String} (h : scopedKey t key = .ok name) :
    Within (tenantDirectory t) name := by
  obtain ⟨rfl, hdots⟩ := scopedKey_ok h
  refine Within.of_segments (segments_slash (slashFree_of_accepts t.isUuid) key) ?_ hdots
  exact fun segment hmem => List.mem_singleton.1 hmem ▸ proper_of_accepts t.isUuid

theorem segments_objectKeyOf (a : ApplicationId) (documentId : Uuid4) (filename : String) :
    segments (objectKeyOf a documentId.value filename) =
      ["applications".toList, a.value.toList, documentId.value.toList] ++ segments filename := by
  have hkey : objectKeyOf a documentId.value filename =
      "applications" ++ "/" ++ (a.value ++ "/" ++ (documentId.value ++ "/" ++ filename)) := by
    change "applications" ++ "/" ++ a.value ++ "/" ++ documentId.value ++ "/" ++ filename = _
    simp only [String.append_assoc]
  rw [hkey, segments_slash (by rw [SlashFree]; decide),
    segments_slash (slashFree_of_accepts a.isUuid),
    segments_slash documentId.slashFree]
  rfl

/-- **The object of an upload stays in the directory of its document.** -/
theorem scopedKey_objectKeyOf_within {t : TenantId} {a : ApplicationId} {documentId : Uuid4}
    {filename name : String} (h : scopedKey t (objectKeyOf a documentId.value filename) = .ok name) :
    Within (documentDirectory t a documentId) name := by
  obtain ⟨rfl, hdots⟩ := scopedKey_ok h
  rw [segments_objectKeyOf] at hdots
  have hsegments : segments (t.value ++ "/" ++ objectKeyOf a documentId.value filename) =
      documentDirectory t a documentId ++ segments filename := by
    rw [segments_slash (slashFree_of_accepts t.isUuid), segments_objectKeyOf]
    rfl
  refine Within.of_segments hsegments ?_ fun hmem => hdots (List.mem_append_right _ hmem)
  intro segment hmem
  simp only [documentDirectory, List.mem_cons, List.not_mem_nil, or_false] at hmem
  rcases hmem with rfl | rfl | rfl | rfl
  · exact proper_of_accepts t.isUuid
  · exact ⟨by decide, by decide, by decide⟩
  · exact proper_of_accepts a.isUuid
  · exact documentId.proper

/-! ### Who stores objects -/

/-- The questions whose answers leave the store as it is. -/
def Ask.KeepsObjects : Ask → Prop
  | .putObject .. => False
  | _ => True

/-- A program that stores nothing. -/
abbrev Handler.KeepsObjects {α : Type} (p : Handler α) : Prop := p.Asks Ask.KeepsObjects

section Programs

variable {α : Type} {t : TenantId}

theorem keepsObjects_execute {st : Statement} : (execute t st).KeepsObjects := by
  rintro (_ | _) <;> trivial

theorem keepsObjects_ofPort {r : Except PortError α} : (Handler.ofPort r).KeepsObjects := by
  cases r <;> trivial

theorem keepsObjects_insertAll : ∀ rows : List Row, (insertAll t rows).KeepsObjects
  | [] => trivial
  | _ :: rows => keepsObjects_execute.bind fun _ => keepsObjects_insertAll rows

theorem keepsObjects_requireReservation {key operationName : String} :
    (requireReservation t key operationName).KeepsObjects := by
  refine Prog.Asks.bind ⟨trivial, fun reservedAt refused => ?_⟩ fun reserved => ?_
  · rcases refused with _ | ⟨_ | _⟩ <;> trivial
  · cases reserved <;> trivial

theorem keepsObjects_requireApplication {a : ApplicationId} :
    (requireApplication t a).KeepsObjects := by
  refine Prog.Asks.bind (Prog.Asks.bind (fun _ => trivial) fun _ => trivial) fun found => ?_
  cases found <;> trivial

theorem keepsObjects_recordEvent (recording : Recording) (event : DomainEvent) :
    (recordEvent t recording event).KeepsObjects := by
  refine Prog.Asks.bind ⟨trivial, fun _ => trivial⟩ fun eventId =>
    Prog.Asks.bind ⟨trivial, fun _ => trivial⟩ fun at' => ?_
  cases recording.checkpoint with
  | some c => trivial
  | none => exact Prog.Asks.bind (fun _ => trivial) fun row => trivial

theorem keepsObjects_recordDomainEvents (events : List DomainEvent) :
    (recordDomainEvents t events).KeepsObjects := by
  have hevents : ∀ recording, (recordEvents t events recording).KeepsObjects := by
    induction events with
    | nil => exact fun recording => trivial
    | cons event events ih =>
        exact fun recording => (keepsObjects_recordEvent recording event).bind ih
  refine (hevents _).bind fun recording => (keepsObjects_insertAll _).bind fun _ => ?_
  have hrest : ∀ _ : Unit, Handler.KeepsObjects (do
      insertAll t (recording.newHashes.map .auditHash)
      insertAll t (recording.outbox.map .outboxEvent)) :=
    fun _ => (keepsObjects_insertAll _).bind fun _ => keepsObjects_insertAll _
  cases recording.checkpoint with
  | some c => exact keepsObjects_execute.bind hrest
  | none => exact hrest ()

end Programs

theorem keepsObjects_prepareUpload (command : UploadDocumentCommand) :
    (prepareUpload command).KeepsObjects :=
  keepsObjects_requireReservation.bind fun _ => keepsObjects_requireApplication.bind fun _ =>
    Prog.Asks.bind ⟨trivial, fun _ => trivial⟩ fun _ => keepsObjects_ofPort.bind fun _ =>
      Prog.Asks.bind ⟨trivial, fun _ => trivial⟩ fun _ => trivial

theorem keepsObjects_finishUpload (command : UploadDocumentCommand) (documentId : Uuid4)
    (metadata : ObjectMetadata) : (finishUpload command documentId metadata).KeepsObjects :=
  Prog.Asks.bind ⟨trivial, fun _ => trivial⟩ fun _ => keepsObjects_execute.bind fun _ =>
    (keepsObjects_recordDomainEvents _).bind fun _ => Prog.Asks.bind trivial fun _ => trivial

section Upload

variable {σ : Type} {S : FileSafetyScanner} {O : ObjectStore} {E : Environment Answer σ}

/-- **A program that stores nothing leaves the store as it is.** -/
theorem objects_alone {α : Type} {p : Handler α} (hp : p.KeepsObjects) (s : σ) (objects : Objects)
    (d : Database) (ws : List Write) :
    (p.alone postgres (adapters S O E) (s, objects) d ws).env.2 = objects := by
  refine Prog.Asks.alone_env (I := fun env : σ × Objects => env.2 = objects) ?_ hp rfl
  rintro ⟨s, objects'⟩ q hq rfl
  cases q <;> first | rfl | exact hq.elim

/-- **What an upload stores**: nothing, and then it has failed, or an object whose name has the new id
of the document in it. -/
def Stores (command : UploadDocumentCommand) (objects : Objects)
    (out : Outcome Database Write (σ × Objects) Error UploadDocumentResult) : Prop :=
  (out.env.2 = objects ∧ ∃ e, out.result = .error e) ∨
    ∃ (documentId : Uuid4) (name : String) (object : StoredObject),
      out.env.2 = (name, object) :: objects ∧ scopedKey command.tenantId
        (objectKeyOf command.applicationId documentId.value command.filename) = .ok name

theorem stores_storeUpload (command : UploadDocumentCommand) (report : FileSafetyReport)
    (documentId : Uuid4) (s : σ) (objects : Objects) (d : Database) (ws : List Write) :
    Stores command objects
      ((storeUpload command report documentId).alone postgres (adapters S O E) (s, objects) d ws) := by
  have hadapter := isAdapter_putObject O objects command.tenantId
    (objectKeyOf command.applicationId documentId.value command.filename) command.data
    report.detectedContentType
  rw [storeUpload, Prog.alone_bind_ok (alone_ask _)]
  simp only [adapters, ofPort_asPort hadapter]
  cases hkey : scopedKey command.tenantId
      (objectKeyOf command.applicationId documentId.value command.filename) with
  | error e =>
      simp only [ObjectStore.putObject, hkey]
      exact Or.inl ⟨rfl, e, rfl⟩
  | ok name =>
      by_cases htakes : O.takes name = true
      · simp only [ObjectStore.putObject, hkey, htakes, if_true]
        exact Or.inr ⟨documentId, name, _,
          objects_alone (keepsObjects_finishUpload command documentId _) _ _ _ _, hkey⟩
      · simp only [ObjectStore.putObject, hkey, if_neg htakes]
        exact Or.inl ⟨rfl, _, rfl⟩

theorem stores_uploadDocument (command : UploadDocumentCommand) (s : σ) (objects : Objects)
    (d : Database) : Stores command objects
      ((uploadDocument command).alone postgres (adapters S O E) (s, objects) d []) := by
  have hprepared := objects_alone (S := S) (O := O) (E := E) (keepsObjects_prepareUpload command)
    s objects d []
  rw [uploadDocument_eq]
  match hp : (prepareUpload command).alone postgres (adapters S O E) (s, objects) d [] with
  | ⟨d₁, ws₁, (s₁, objects₁), .error e⟩ =>
      rw [hp] at hprepared
      rw [Prog.alone_bind_error hp]
      exact Or.inl ⟨hprepared, e, rfl⟩
  | ⟨d₁, ws₁, (s₁, objects₁), .ok (report, documentId)⟩ =>
      rw [hp] at hprepared
      rw [Prog.alone_bind_ok hp]
      obtain rfl : objects₁ = objects := hprepared
      exact stores_storeUpload command report documentId s₁ objects₁ d₁ ws₁

end Upload

/-- **Objects are isolated.**  The name of an object determines the tenant and the key, and never
leads out of the tenant's directory; and what an upload stores, under whatever filename, is in the
directory of its document, or it has failed. -/
theorem objects_isolated :
    (∀ t t' key key' name, scopedKey t key = .ok name → scopedKey t' key' = .ok name →
      t = t' ∧ key = key') ∧
    (∀ t key name, scopedKey t key = .ok name → Within (tenantDirectory t) name) ∧
    ∀ {σ : Type} (S : FileSafetyScanner) (O : ObjectStore) (E : Environment Answer σ)
      (command : UploadDocumentCommand) (s : σ) (objects : Objects) (d : Database),
      let out := (uploadDocument command).alone postgres (adapters S O E) (s, objects) d []
      (out.env.2 = objects ∧ ∃ e, out.result = .error e) ∨
        ∃ (documentId : Uuid4) (name : String) (object : StoredObject),
          out.env.2 = (name, object) :: objects ∧
            Within (documentDirectory command.tenantId command.applicationId documentId) name := by
  refine ⟨fun t t' key key' name h h' => ?_, fun t key name h => scopedKey_within h, ?_⟩
  · have hname := (scopedKey_ok h).1.symm.trans (scopedKey_ok h').1
    have hsegments := congrArg segments hname
    rw [segments_slash (slashFree_of_accepts t.isUuid),
      segments_slash (slashFree_of_accepts t'.isUuid)] at hsegments
    obtain rfl : t = t' := TenantId.ext_value (String.toList_inj.1 (List.cons.inj hsegments).1)
    exact ⟨rfl, (String.append_right_inj _).1 hname⟩
  · intro σ S O E command s objects d
    rcases stores_uploadDocument (S := S) (O := O) (E := E) command s objects d with
      hfailed | ⟨documentId, name, object, hstored, hkey⟩
    · exact Or.inl hfailed
    · exact Or.inr ⟨documentId, name, object, hstored, scopedKey_objectKeyOf_within hkey⟩

end FinAssist
