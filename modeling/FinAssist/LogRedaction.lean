/-
**The redaction of log events.**

`_redact_sensitive_fields` puts a placeholder where a key of a log event is a sensitive one, in
whatever case.  It goes through the keys of the event and not through the values: a sensitive key of
a dictionary that is a value, or in a list that is one, is left as it is, and what is stored under it
reaches the renderer.

Main definitions:

* `FinAssist.LogValue` — a value of a log event;
* `FinAssist.redactSensitiveFields` — **the redactor**;
* `FinAssist.Alike` — two values that differ only under sensitive keys, at any depth;
* `FinAssist.hasSensitiveKey` — whether there is such a key in a value.

Main results:

* `FinAssist.redactSensitiveFields_entries` — what the redactor does;
* `FinAssist.redaction_safe_iff` — for which events no value of a sensitive field gets through.
-/

import Mathlib.Data.List.Basic

set_option relaxedAutoImplicit false
set_option autoImplicit false

namespace FinAssist

/-! ### Log events -/

/-- A value of a log event: a text, a list, a dictionary, or anything else. -/
inductive LogValue (α : Type) : Type
  | text (s : String)
  | other (a : α)
  | list (items : List (LogValue α))
  | dict (entries : List (String × LogValue α))

/-- A log event: a dictionary. -/
structure EventDict (α : Type) where
  entries : List (String × LogValue α)
  nodup : (entries.map Prod.fst).Nodup

/-- `_REDACTED`. -/
def redacted : String := "***REDACTED***"

/-- `_SENSITIVE_KEYS`. -/
def sensitiveKeys : List String :=
  ["password", "secret", "token", "authorization", "api_key", "ssn", "national_id",
    "account_number", "card_number", "document_text", "prompt", "model_output"]

/-- A character of `key.lower()`, as far as it can be one of a word of ASCII letters: besides the
capital letters only the Kelvin sign becomes such a letter. -/
def lowerChar (c : Char) : Char := if c = Char.ofNat 0x212A then 'k' else c.toLower

/-- `key.lower() in _SENSITIVE_KEYS`. -/
def isSensitive (key : String) : Bool := sensitiveKeys.contains (key.map lowerChar)

example : isSensitive "Api_Key" = true := by decide +kernel

section Redaction

variable {α : Type}

/-- `entries[key] = value`, where the key is there already: it stays in its place. -/
def setEntry (key : String) (value : LogValue α) (entries : List (String × LogValue α)) :
    List (String × LogValue α) :=
  entries.map fun entry => if entry.1 = key then (key, value) else entry

theorem setEntry_keys (key : String) (value : LogValue α) (entries : List (String × LogValue α)) :
    (setEntry key value entries).map Prod.fst = entries.map Prod.fst := by
  rw [setEntry, List.map_map]
  refine List.map_congr_left fun entry _ => ?_
  simp only [Function.comp_apply]
  split
  next h => exact h.symm
  next => rfl

/-- One turn of the loop. -/
def redactKey (entries : List (String × LogValue α)) (key : String) : List (String × LogValue α) :=
  if isSensitive key then setEntry key (.text redacted) entries else entries

theorem redactKey_keys (entries : List (String × LogValue α)) (key : String) :
    (redactKey entries key).map Prod.fst = entries.map Prod.fst := by
  rw [redactKey]
  split
  · exact setEntry_keys key _ entries
  · rfl

theorem foldl_redactKey_keys (keys : List String) : ∀ entries : List (String × LogValue α),
    (keys.foldl redactKey entries).map Prod.fst = entries.map Prod.fst := by
  induction keys with
  | nil => exact fun entries => rfl
  | cons key keys ih =>
      intro entries
      rw [List.foldl_cons, ih, redactKey_keys]

/-- **`_redact_sensitive_fields`.** -/
def redactSensitiveFields (event : EventDict α) : EventDict α where
  entries := (event.entries.map Prod.fst).foldl redactKey event.entries
  nodup := by
    rw [foldl_redactKey_keys]
    exact event.nodup

/-- What becomes of an entry. -/
def redactEntry (entry : String × LogValue α) : String × LogValue α :=
  if isSensitive entry.1 then (entry.1, .text redacted) else entry

theorem redactEntry_sensitive {entry : String × LogValue α} (h : isSensitive entry.1 = true) :
    redactEntry entry = (entry.1, .text redacted) := if_pos h

theorem redactEntry_other {entry : String × LogValue α} (h : isSensitive entry.1 = false) :
    redactEntry entry = entry := by
  rw [redactEntry, h]
  rfl

/-- What a run of the loop over some keys has done. -/
theorem foldl_redactKey (keys : List String) : ∀ entries : List (String × LogValue α),
    keys.foldl redactKey entries = entries.map fun entry =>
      if entry.1 ∈ keys then redactEntry entry else entry := by
  induction keys with
  | nil =>
      intro entries
      simp
  | cons key keys ih =>
      intro entries
      rw [List.foldl_cons, ih, redactKey]
      cases hkey : isSensitive key with
      | true =>
          rw [if_pos rfl, setEntry, List.map_map]
          refine List.map_congr_left fun entry _ => ?_
          by_cases heq : entry.1 = key
          · have hsame : redactEntry (key, (.text redacted : LogValue α)) = (key, .text redacted) :=
              redactEntry_sensitive hkey
            simp only [Function.comp_apply, heq, if_true, hsame, ite_self, List.mem_cons, true_or]
            rw [redactEntry_sensitive (heq ▸ hkey), heq]
          · simp only [Function.comp_apply, List.mem_cons, heq, false_or, if_false]
      | false =>
          rw [if_neg Bool.false_ne_true]
          refine List.map_congr_left fun entry _ => ?_
          by_cases heq : entry.1 = key
          · rw [redactEntry_other (heq ▸ hkey), ite_self, ite_self]
          · simp only [List.mem_cons, heq, false_or]

/-- **What the redactor does**: every entry by itself. -/
theorem redactSensitiveFields_entries (event : EventDict α) :
    (redactSensitiveFields event).entries = event.entries.map redactEntry := by
  refine (foldl_redactKey _ event.entries).trans ?_
  exact List.map_congr_left fun entry hentry => if_pos (List.mem_map_of_mem hentry)

/-! ### Two events that differ under sensitive keys -/

mutual

/-- **Two values that differ only under sensitive keys**, at any depth. -/
inductive Alike : LogValue α → LogValue α → Prop
  | text (s : String) : Alike (.text s) (.text s)
  | other (a : α) : Alike (.other a) (.other a)
  | list {items items' : List (LogValue α)} (h : AlikeItems items items') :
      Alike (.list items) (.list items')
  | dict {entries entries' : List (String × LogValue α)} (h : AlikeEntries entries entries') :
      Alike (.dict entries) (.dict entries')

inductive AlikeItems : List (LogValue α) → List (LogValue α) → Prop
  | nil : AlikeItems [] []
  | cons {v w : LogValue α} {items items' : List (LogValue α)} (h : Alike v w)
      (hs : AlikeItems items items') : AlikeItems (v :: items) (w :: items')

inductive AlikeEntries : List (String × LogValue α) → List (String × LogValue α) → Prop
  | nil : AlikeEntries [] []
  | sensitive {key : String} (v w : LogValue α) {entries entries' : List (String × LogValue α)}
      (h : isSensitive key = true) (hs : AlikeEntries entries entries') :
      AlikeEntries ((key, v) :: entries) ((key, w) :: entries')
  | cons (key : String) {v w : LogValue α} {entries entries' : List (String × LogValue α)}
      (h : Alike v w) (hs : AlikeEntries entries entries') :
      AlikeEntries ((key, v) :: entries) ((key, w) :: entries')

end

mutual

/-- Whether there is a sensitive key in a value. -/
def hasSensitiveKey : LogValue α → Bool
  | .text _ => false
  | .other _ => false
  | .list items => itemsHaveSensitiveKey items
  | .dict entries => entriesHaveSensitiveKey entries

def itemsHaveSensitiveKey : List (LogValue α) → Bool
  | [] => false
  | v :: items => hasSensitiveKey v || itemsHaveSensitiveKey items

def entriesHaveSensitiveKey : List (String × LogValue α) → Bool
  | [] => false
  | (key, v) :: entries => isSensitive key || hasSensitiveKey v || entriesHaveSensitiveKey entries

end

mutual

/-- **Without a sensitive key there is nothing to differ in.** -/
theorem Alike.eq {v w : LogValue α} (h : Alike v w) (hv : hasSensitiveKey v = false) : v = w :=
  match h with
  | .text s => rfl
  | .other a => rfl
  | .list hs => congrArg LogValue.list (hs.eq (by simpa [hasSensitiveKey] using hv))
  | .dict hs => congrArg LogValue.dict (hs.eq (by simpa [hasSensitiveKey] using hv))

theorem AlikeItems.eq {items items' : List (LogValue α)} (h : AlikeItems items items')
    (hv : itemsHaveSensitiveKey items = false) : items = items' :=
  match h with
  | .nil => rfl
  | .cons h hs => by
      simp only [itemsHaveSensitiveKey, Bool.or_eq_false_iff] at hv
      rw [h.eq hv.1, hs.eq hv.2]

theorem AlikeEntries.eq {entries entries' : List (String × LogValue α)}
    (h : AlikeEntries entries entries') (hv : entriesHaveSensitiveKey entries = false) :
    entries = entries' :=
  match h with
  | .nil => rfl
  | .sensitive v w h hs => by
      simp only [entriesHaveSensitiveKey, Bool.or_eq_false_iff, h] at hv
      exact absurd hv.1.1 (by simp)
  | .cons key h hs => by
      simp only [entriesHaveSensitiveKey, Bool.or_eq_false_iff] at hv
      rw [h.eq hv.1.2, hs.eq hv.2]

end

mutual

/-- A value with something else under its sensitive keys. -/
def altered : LogValue α → LogValue α
  | .text s => .text s
  | .other a => .other a
  | .list items => .list (alteredItems items)
  | .dict entries => .dict (alteredEntries entries)

def alteredItems : List (LogValue α) → List (LogValue α)
  | [] => []
  | v :: items => altered v :: alteredItems items

def alteredEntries : List (String × LogValue α) → List (String × LogValue α)
  | [] => []
  | (key, v) :: entries =>
      (key, if isSensitive key then .list [v] else altered v) :: alteredEntries entries

end

mutual

theorem alike_altered : ∀ v : LogValue α, Alike v (altered v)
  | .text s => .text s
  | .other a => .other a
  | .list items => .list (alikeItems_altered items)
  | .dict entries => .dict (alikeEntries_altered entries)

theorem alikeItems_altered : ∀ items : List (LogValue α), AlikeItems items (alteredItems items)
  | [] => .nil
  | v :: items => .cons (alike_altered v) (alikeItems_altered items)

theorem alikeEntries_altered : ∀ entries : List (String × LogValue α),
    AlikeEntries entries (alteredEntries entries)
  | [] => .nil
  | (key, v) :: entries => by
      rw [alteredEntries]
      cases hkey : isSensitive key with
      | true => exact .sensitive v _ hkey (alikeEntries_altered entries)
      | false => exact .cons key (alike_altered v) (alikeEntries_altered entries)

end

mutual

/-- **It is another value if there is a sensitive key in it.** -/
theorem hasSensitiveKey_of_altered : ∀ {v : LogValue α}, altered v = v → hasSensitiveKey v = false
  | .text _, _ => rfl
  | .other _, _ => rfl
  | .list _, h => itemsHaveSensitiveKey_of_altered (LogValue.list.inj h)
  | .dict _, h => entriesHaveSensitiveKey_of_altered (LogValue.dict.inj h)

theorem itemsHaveSensitiveKey_of_altered : ∀ {items : List (LogValue α)},
    alteredItems items = items → itemsHaveSensitiveKey items = false
  | [], _ => rfl
  | v :: items, h => by
      obtain ⟨hv, hitems⟩ := List.cons.inj h
      rw [itemsHaveSensitiveKey, hasSensitiveKey_of_altered hv,
        itemsHaveSensitiveKey_of_altered hitems]
      rfl

theorem entriesHaveSensitiveKey_of_altered : ∀ {entries : List (String × LogValue α)},
    alteredEntries entries = entries → entriesHaveSensitiveKey entries = false
  | [], _ => rfl
  | (key, v) :: entries, h => by
      obtain ⟨hentry, hentries⟩ := List.cons.inj h
      have hvalue := (Prod.mk.inj hentry).2
      rw [entriesHaveSensitiveKey, entriesHaveSensitiveKey_of_altered hentries]
      cases hkey : isSensitive key with
      | true =>
          rw [hkey, if_pos rfl] at hvalue
          have hsize := congrArg sizeOf hvalue
          simp at hsize
          omega
      | false =>
          rw [hkey, if_neg Bool.false_ne_true] at hvalue
          rw [hasSensitiveKey_of_altered hvalue]
          rfl

end

/-! ### The result -/

theorem EventDict.ext_entries {event event' : EventDict α} (h : event.entries = event'.entries) :
    event = event' := by
  cases event
  cases event'
  simpa using h

/-- **The redaction of an event is safe**: an event that differs from it only under sensitive keys is
passed on as the same, and all other entries are passed on as they are. -/
def RedactionSafe (event : EventDict α) : Prop :=
  (∀ event' : EventDict α, AlikeEntries event.entries event'.entries →
    redactSensitiveFields event = redactSensitiveFields event') ∧
  ∀ entry, isSensitive entry.1 = false →
    (entry ∈ (redactSensitiveFields event).entries ↔ entry ∈ event.entries)

/-- The other entries are passed on as they are. -/
theorem mem_redactSensitiveFields {event : EventDict α} {entry : String × LogValue α}
    (h : isSensitive entry.1 = false) :
    entry ∈ (redactSensitiveFields event).entries ↔ entry ∈ event.entries := by
  rw [redactSensitiveFields_entries, List.mem_map]
  constructor
  · rintro ⟨entry', hmem, heq⟩
    cases hkey : isSensitive entry'.1 with
    | true =>
        rw [redactEntry_sensitive hkey] at heq
        rw [← heq, hkey] at h
        cases h
    | false =>
        rw [redactEntry_other hkey] at heq
        exact heq ▸ hmem
  · exact fun hmem => ⟨entry, hmem, redactEntry_other h⟩

/-- Entries that differ only under sensitive keys, where there are none further down. -/
theorem AlikeEntries.redacted {entries entries' : List (String × LogValue α)}
    (h : AlikeEntries entries entries') (hclean : ∀ entry ∈ entries, isSensitive entry.1 = false →
      hasSensitiveKey entry.2 = false) : entries.map redactEntry = entries'.map redactEntry :=
  match h with
  | .nil => rfl
  | .sensitive v w hkey hs => by
      rw [List.map_cons, List.map_cons, redactEntry_sensitive hkey, redactEntry_sensitive hkey,
        hs.redacted fun entry hmem => hclean entry (List.mem_cons_of_mem _ hmem)]
  | .cons (v := v) key h hs => by
      rw [List.map_cons, List.map_cons,
        hs.redacted fun entry hmem => hclean entry (List.mem_cons_of_mem _ hmem)]
      cases hkey : isSensitive key with
      | true => rw [redactEntry_sensitive hkey, redactEntry_sensitive hkey]
      | false => rw [h.eq (hclean (key, v) List.mem_cons_self hkey)]

/-- An event with something else under all sensitive keys further down. -/
def EventDict.altered (event : EventDict α) : EventDict α where
  entries := event.entries.map fun entry => (entry.1, FinAssist.altered entry.2)
  nodup := by
    rw [List.map_map]
    exact event.nodup

theorem alikeEntries_map_altered : ∀ entries : List (String × LogValue α),
    AlikeEntries entries (entries.map fun entry => (entry.1, altered entry.2))
  | [] => .nil
  | (key, v) :: entries => .cons key (alike_altered v) (alikeEntries_map_altered entries)

/-- **The redaction of an event is safe if and only if** no value of its other entries has a sensitive
key in it. -/
theorem redaction_safe_iff (event : EventDict α) :
    RedactionSafe event ↔ ∀ entry ∈ event.entries, isSensitive entry.1 = false →
      hasSensitiveKey entry.2 = false := by
  constructor
  · intro h entry hmem hkey
    have hsame := congrArg EventDict.entries
      (h.1 event.altered (alikeEntries_map_altered event.entries))
    rw [redactSensitiveFields_entries, redactSensitiveFields_entries, EventDict.altered,
      List.map_map] at hsame
    have hentry := List.map_inj_left.1 hsame entry hmem
    have haltered : redactEntry (entry.1, altered entry.2) = (entry.1, altered entry.2) :=
      redactEntry_other hkey
    rw [redactEntry_other hkey, Function.comp_apply, haltered] at hentry
    exact hasSensitiveKey_of_altered (congrArg Prod.snd hentry).symm
  · refine fun h => ⟨fun event' hagree => EventDict.ext_entries ?_, fun entry hkey =>
      mem_redactSensitiveFields hkey⟩
    rw [redactSensitiveFields_entries, redactSensitiveFields_entries]
    exact hagree.redacted h

namespace Sample

/-- An event with a password in a dictionary. -/
def loginEvent (password : String) : EventDict Empty where
  entries := [("event", .text "user.login"),
    ("request", .dict [("user", .text "ada"), ("password", .text password)])]
  nodup := (by decide +kernel : ["event", "request"].Nodup)

end Sample

/-- **A password in a dictionary is passed on.** -/
theorem nested_password_passed :
    AlikeEntries (Sample.loginEvent "hunter2").entries (Sample.loginEvent "swordfish").entries ∧
      redactSensitiveFields (Sample.loginEvent "hunter2") ≠
        redactSensitiveFields (Sample.loginEvent "swordfish") ∧
      ¬ RedactionSafe (Sample.loginEvent "hunter2") := by
  have hkey : isSensitive "request" = false := by decide +kernel
  have hagree : AlikeEntries (Sample.loginEvent "hunter2").entries
      (Sample.loginEvent "swordfish").entries :=
    .cons "event" (.text _) (.cons "request" (.dict (.cons "user" (.text _)
      (.sensitive _ _ (by decide +kernel) .nil))) .nil)
  have hdiffer : redactSensitiveFields (Sample.loginEvent "hunter2") ≠
      redactSensitiveFields (Sample.loginEvent "swordfish") := by
    intro heq
    have hmem : (("request", .dict [("user", .text "ada"), ("password", .text "hunter2")]) :
        String × LogValue Empty) ∈ (redactSensitiveFields (Sample.loginEvent "hunter2")).entries :=
      (mem_redactSensitiveFields hkey).2 (by simp [Sample.loginEvent])
    rw [heq, mem_redactSensitiveFields hkey] at hmem
    simp [Sample.loginEvent] at hmem
  exact ⟨hagree, hdiffer, fun h => hdiffer (h.1 _ hagree)⟩

end Redaction

end FinAssist
