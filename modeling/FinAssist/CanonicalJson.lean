/-
**The text that is hashed determines what was hashed.**

`_canonical_json` writes what an audit row is hashed from as one line of JSON.  A string is quoted
and escaped so that it says itself where it ends, a number ends where the object does, and the keys
of an object come in one order; so the line determines the hash before, the event's id, its type,
its application, its time and its payload.

Main results:

* `FinAssist.prefixFree_escapeChar`, `prefixFree_quoteJson` — a string is read off the text;
* `FinAssist.dump_payload` — **the payload of an event is read off the text**;
* `FinAssist.canonicalJson_inj` — **the line determines what was hashed**.
-/

import FinAssist.AuditHash
import FinAssist.PrefixFree
import FinAssist.Timestamps

set_option relaxedAutoImplicit false
set_option autoImplicit false

namespace FinAssist

/-! ### Hexadecimal digits -/

theorem hexDigit_inj {m n : ℕ} (hm : m < 16) (hn : n < 16)
    (h : Sha256.hexDigit m = Sha256.hexDigit n) : m = n := by
  have hall : ∀ i j : Fin 16, Sha256.hexDigit i = Sha256.hexDigit j → i = j := by decide
  have heq := hall ⟨m, hm⟩ ⟨n, hn⟩ h
  simpa using heq

theorem hexDigits_inj : ∀ {k m n : ℕ}, m < 16 ^ k → n < 16 ^ k →
    Sha256.hexDigits k m = Sha256.hexDigits k n → m = n := by
  have hlow : ∀ k m n : ℕ, Sha256.hexDigits k m = Sha256.hexDigits k n →
      m % 16 ^ k = n % 16 ^ k := by
    intro k
    induction k with
    | zero => intro m n _; simp [Nat.mod_one]
    | succ k ih =>
        intro m n h
        have hpow : 2 ^ (4 * k) = 16 ^ k := Nat.pow_mul 2 4 k
        simp only [Sha256.hexDigits, List.cons.injEq, Nat.shiftRight_eq_div_pow, hpow] at h
        obtain ⟨hdigit, hrest⟩ := h
        have htop := hexDigit_inj (Nat.mod_lt _ (by omega)) (Nat.mod_lt _ (by omega)) hdigit
        rw [Nat.pow_succ, Nat.mod_mul, Nat.mod_mul (x := n), ih m n hrest, htop]
  intro k m n hm hn h
  have hmod := hlow k m n h
  rwa [Nat.mod_eq_of_lt hm, Nat.mod_eq_of_lt hn] at hmod

/-! ### Strings -/

theorem toNat_valid (c : Char) :
    c.toNat < 55296 ∨ 57343 < c.toNat ∧ c.toNat < 1114112 := c.valid

theorem eq_of_toNat_eq {c d : Char} (h : c.toNat = d.toNat) : c = d :=
  Char.ext (UInt32.toNat_inj.1 h)

/-- The escapes of two characters, with what they stand for. -/
def shortEscapes : List (Char × Char) :=
  [('"', '"'), ('\\', '\\'), ('n', '\n'), ('r', '\r'), ('t', '\t'), ('b', Char.ofNat 8),
    ('f', Char.ofNat 12)]

/-- **How a character is written**, case by case. -/
inductive Escaped (c : Char) : List Char → Prop
  | plain (hquote : c ≠ '"') (hslash : c ≠ '\\') : Escaped c [c]
  | short (e : Char) (h : (e, c) ∈ shortEscapes) : Escaped c ['\\', e]
  | unit (h : c.toNat < 65536) : Escaped c ('\\' :: 'u' :: hexDigits4 c.toNat)
  | pair (h : 65536 ≤ c.toNat) : Escaped c
      ('\\' :: 'u' :: (hexDigits4 (55296 + (c.toNat - 65536) / 1024) ++
        '\\' :: 'u' :: hexDigits4 (56320 + (c.toNat - 65536) % 1024)))

theorem escapeChar_cases (c : Char) : Escaped c (escapeChar c) := by
  rw [escapeChar]
  split
  next h => subst h; exact .short _ (by decide)
  next hquote =>
    split
    next h => subst h; exact .short _ (by decide)
    next hslash =>
      split
      next h => subst h; exact .short _ (by decide)
      next =>
        split
        next h => subst h; exact .short _ (by decide)
        next =>
          split
          next h => subst h; exact .short _ (by decide)
          next =>
            split
            next h => exact .short _ (eq_of_toNat_eq (d := Char.ofNat 8) h ▸ by decide)
            next =>
              split
              next h => exact .short _ (eq_of_toNat_eq (d := Char.ofNat 12) h ▸ by decide)
              next =>
                split
                next => exact .plain hquote hslash
                next =>
                  split
                  next h => exact .unit h
                  next h => simpa using Escaped.pair (c := c) (by omega)

theorem hexDigits4_append_inj {m n : ℕ} {r s : List Char} (hm : m < 65536) (hn : n < 65536)
    (h : hexDigits4 m ++ r = hexDigits4 n ++ s) : m = n ∧ r = s := by
  obtain ⟨hd, hrs⟩ := List.append_inj h
    ((Sha256.hexDigits_length 4 m).trans (Sha256.hexDigits_length 4 n).symm)
  exact ⟨hexDigits_inj hm hn hd, hrs⟩

/-- No two characters are written so that one begins the other. -/
theorem Escaped.inj {c d : Char} {u v r s : List Char} (hc : Escaped c u) (hd : Escaped d v)
    (h : u ++ r = v ++ s) : c = d ∧ r = s := by
  have hshort : ∀ e : Char, ('u', e) ∉ shortEscapes := by simp [shortEscapes]
  have hvalid := toNat_valid c
  have hvalid' := toNat_valid d
  cases hc with
  | plain hquote hslash =>
      cases hd with
      | plain _ _ => simpa using h
      | short e _ => exact absurd (List.cons.inj h).1 hslash
      | unit _ => exact absurd (List.cons.inj h).1 hslash
      | pair _ => exact absurd (List.cons.inj h).1 hslash
  | short e he =>
      cases hd with
      | plain _ hslash => exact absurd (List.cons.inj h).1.symm hslash
      | short e' he' =>
          simp only [List.cons_append, List.nil_append, List.cons.injEq, true_and] at h
          obtain ⟨rfl, rfl⟩ := h
          simp only [shortEscapes, List.mem_cons, Prod.mk.injEq, List.not_mem_nil, or_false]
            at he he'
          refine ⟨?_, rfl⟩
          rcases he with ⟨rfl, rfl⟩ | ⟨rfl, rfl⟩ | ⟨rfl, rfl⟩ | ⟨rfl, rfl⟩ | ⟨rfl, rfl⟩ | ⟨rfl, rfl⟩ |
            ⟨rfl, rfl⟩ <;> simpa [eq_comm] using he'
      | unit _ =>
          simp only [List.cons_append, List.cons.injEq, true_and] at h
          exact absurd (h.1 ▸ he) (hshort c)
      | pair _ =>
          simp only [List.cons_append, List.cons.injEq, true_and] at h
          exact absurd (h.1 ▸ he) (hshort c)
  | unit hlt =>
      cases hd with
      | plain _ hslash => exact absurd (List.cons.inj h).1.symm hslash
      | short e' he' =>
          simp only [List.cons_append, List.cons.injEq, true_and] at h
          exact absurd (h.1 ▸ he') (hshort d)
      | unit hlt' =>
          simp only [List.cons_append, List.cons.injEq, true_and] at h
          obtain ⟨hn, hrs⟩ := hexDigits4_append_inj hlt hlt' h
          exact ⟨eq_of_toNat_eq hn, hrs⟩
      | pair hge =>
          simp only [List.cons_append, List.append_assoc, List.cons.injEq, true_and] at h
          -- the first half of a pair is no character
          have hn := (hexDigits4_append_inj hlt (by omega) h).1
          omega
  | pair hge =>
      cases hd with
      | plain _ hslash => exact absurd (List.cons.inj h).1.symm hslash
      | short e' he' =>
          simp only [List.cons_append, List.cons.injEq, true_and] at h
          exact absurd (h.1 ▸ he') (hshort d)
      | unit hlt' =>
          simp only [List.cons_append, List.append_assoc, List.cons.injEq, true_and] at h
          have hn := (hexDigits4_append_inj (by omega) hlt' h).1
          omega
      | pair hge' =>
          simp only [List.cons_append, List.append_assoc, List.cons.injEq, true_and] at h
          obtain ⟨hhigh, h⟩ := hexDigits4_append_inj (by omega) (by omega) h
          simp only [List.cons.injEq, true_and] at h
          obtain ⟨hlow, hrs⟩ := hexDigits4_append_inj (by omega) (by omega) h
          exact ⟨eq_of_toNat_eq (by omega), hrs⟩

theorem prefixFree_escapeChar : PrefixFree escapeChar :=
  fun c d _ _ h => (escapeChar_cases c).inj (escapeChar_cases d) h

theorem escapeChar_ne_quote (c : Char) (r s : List Char) : escapeChar c ++ r ≠ '"' :: s := by
  intro h
  have hc := escapeChar_cases c
  generalize escapeChar c = u at h hc
  cases hc with
  | plain hquote _ => exact hquote (List.cons.inj h).1
  | short _ _ => simp at h
  | unit _ => simp at h
  | pair _ => simp at h

/-- **A quoted string says where it ends.** -/
theorem prefixFree_quoteJson : PrefixFree fun s : String => (quoteJson s).toList := by
  have hbody := (prefixFree_escapeChar.flatMap '"' escapeChar_ne_quote).comp
    (g := String.toList) fun s t h => String.toList_inj.1 h
  have hall := hbody.after ['"']
  simpa only [quoteJson, String.toList_ofList, List.cons_append, List.nil_append] using hall

/-! ### Payloads -/

/-- A number says where it ends, when something else than a digit comes behind it. -/
theorem prefixFree_number (stop : Char) (hstop : stop.isDigit = false) :
    PrefixFree fun n : ℕ => (toString n).toList ++ [stop] := by
  have hdigits : ∀ n : ℕ, (toString n).toList = Nat.toDigits 10 n := fun _ => Nat.toList_repr
  refine PrefixFree.of_stop stop (fun n hmem => ?_) fun m n h => ?_
  · rw [hdigits] at hmem
    have hdigit := Nat.isDigit_of_mem_toDigits (by omega) (by omega) hmem
    exact absurd (hstop.symm.trans hdigit) (by decide)
  · have hval := congrArg (fun s => Nat.ofDigitChars 10 s 0) h
    simpa only [hdigits, Nat.ofDigitChars_ten_toDigits] using hval

theorem dump_created (productId : String) :
    (Payload.dump [("product_id", .text productId)]).toList =
      "\x7b\"product_id\":".toList ++ (quoteJson productId).toList ++ ['}'] := by
  have hkey : quoteJson "product_id" = "\"product_id\"" := rfl
  simp [Payload.dump, PayloadValue.dump, dumpObject, insertKey, hkey]

theorem dump_uploaded (documentId documentType objectKey : String) :
    (Payload.dump [("document_id", .text documentId), ("document_type", .text documentType),
      ("object_key", .text objectKey)]).toList =
      "\x7b\"document_id\":".toList ++ (quoteJson documentId).toList ++
      (",\"document_type\":".toList ++ (quoteJson documentType).toList ++
      (",\"object_key\":".toList ++ (quoteJson objectKey).toList ++ ['}'])) := by
  have hid : quoteJson "document_id" = "\"document_id\"" := rfl
  have htype : quoteJson "document_type" = "\"document_type\"" := rfl
  have hobject : quoteJson "object_key" = "\"object_key\"" := rfl
  simp [Payload.dump, PayloadValue.dump, dumpObject, insertKey, keyLt, hid, htype, hobject]

theorem dump_stateChanged (previousStatus newStatus reason : String) (version : ℕ) :
    (Payload.dump [("previous_status", .text previousStatus), ("new_status", .text newStatus),
      ("reason", .text reason), ("version", .integer version)]).toList =
      "\x7b\"new_status\":".toList ++ (quoteJson newStatus).toList ++
      (",\"previous_status\":".toList ++ (quoteJson previousStatus).toList ++
      (",\"reason\":".toList ++ (quoteJson reason).toList ++
      (",\"version\":".toList ++ ((toString version).toList ++ ['}'])))) := by
  have hnew : quoteJson "new_status" = "\"new_status\"" := rfl
  have hprevious : quoteJson "previous_status" = "\"previous_status\"" := rfl
  have hreason : quoteJson "reason" = "\"reason\"" := rfl
  have hversion : quoteJson "version" = "\"version\"" := rfl
  have hnumber : (version : ℤ).repr.toList = Nat.toDigits 10 version := Nat.toList_repr
  simp [Payload.dump, PayloadValue.dump, dumpObject, insertKey, keyLt, hnew, hprevious, hreason,
    hversion, hnumber]

/-- What the outbox and the audit log store of some event. -/
def IsEventPayload (payload : Payload) : Prop := ∃ event : DomainEvent, event.payload = payload

/-- **The payload of an event is read off the text.** -/
theorem dump_payload (event event' : DomainEvent) (r s : List Char)
    (h : event.payload.dump.toList ++ r = event'.payload.dump.toList ++ s) :
    event.payload = event'.payload ∧ r = s := by
  have hquote := prefixFree_quoteJson
  have hcreated := (hquote.after "\x7b\"product_id\":".toList).before ['}']
  have huploaded := (hquote.after "\x7b\"document_id\":".toList).append
    ((hquote.after ",\"document_type\":".toList).append
      ((hquote.after ",\"object_key\":".toList).before ['}']))
  have hchanged := (hquote.after "\x7b\"new_status\":".toList).append
    ((hquote.after ",\"previous_status\":".toList).append
      ((hquote.after ",\"reason\":".toList).append
        ((prefixFree_number '}' rfl).after ",\"version\":".toList)))
  -- objects of different shapes have different first keys
  cases event with
  | applicationCreated _ _ _ p =>
      cases event' with
      | applicationCreated _ _ _ p' =>
          simp only [DomainEvent.payload, dump_created] at h ⊢
          obtain ⟨rfl, hrs⟩ := hcreated p p' r s h
          exact ⟨rfl, hrs⟩
      | applicationStateChanged => simp [DomainEvent.payload, dump_created, dump_stateChanged] at h
      | documentUploaded => simp [DomainEvent.payload, dump_created, dump_uploaded] at h
  | applicationStateChanged _ _ _ previous new reason version =>
      cases event' with
      | applicationCreated => simp [DomainEvent.payload, dump_created, dump_stateChanged] at h
      | applicationStateChanged _ _ _ previous' new' reason' version' =>
          simp only [DomainEvent.payload, dump_stateChanged] at h ⊢
          obtain ⟨heq, hrs⟩ := hchanged (new.value, previous.value, reason, version)
            (new'.value, previous'.value, reason', version') r s h
          simp only [Prod.mk.injEq] at heq
          obtain ⟨hnew, hprevious, rfl, rfl⟩ := heq
          exact ⟨by rw [hnew, hprevious], hrs⟩
      | documentUploaded => simp [DomainEvent.payload, dump_stateChanged, dump_uploaded] at h
  | documentUploaded _ _ _ id type key =>
      cases event' with
      | applicationCreated => simp [DomainEvent.payload, dump_created, dump_uploaded] at h
      | applicationStateChanged =>
          simp [DomainEvent.payload, dump_stateChanged, dump_uploaded] at h
      | documentUploaded _ _ _ id' type' key' =>
          simp only [DomainEvent.payload, dump_uploaded] at h ⊢
          obtain ⟨heq, hrs⟩ := huploaded (id, type, key) (id', type', key') r s h
          simp only [Prod.mk.injEq] at heq
          obtain ⟨rfl, rfl, rfl⟩ := heq
          exact ⟨rfl, hrs⟩

theorem prefixFree_payload :
    PrefixFree fun payload : { p : Payload // IsEventPayload p } => payload.val.dump.toList := by
  rintro ⟨p, event, rfl⟩ ⟨p', event', rfl⟩ r s h
  obtain ⟨hp, hrs⟩ := dump_payload event event' r s h
  exact ⟨Subtype.ext hp, hrs⟩

/-! ### The line that is hashed -/

theorem canonicalJson_toList (prevHash eventId eventType aggregateId : String)
    (occurredAt : DateTime) (payload : Payload) :
    (canonicalJson prevHash eventId eventType aggregateId occurredAt payload).toList =
      "\x7b\"aggregate_id\":".toList ++ (quoteJson aggregateId).toList ++
      (",\"event_id\":".toList ++ (quoteJson eventId).toList ++
      (",\"event_type\":".toList ++ (quoteJson eventType).toList ++
      (",\"occurred_at\":".toList ++ (quoteJson occurredAt.isoformat).toList ++
      (",\"payload\":".toList ++ payload.dump.toList ++
      (",\"prev_hash\":".toList ++ (quoteJson prevHash).toList ++ ['}']))))) := by
  have haggregate : quoteJson "aggregate_id" = "\"aggregate_id\"" := rfl
  have hid : quoteJson "event_id" = "\"event_id\"" := rfl
  have htype : quoteJson "event_type" = "\"event_type\"" := rfl
  have hoccurred : quoteJson "occurred_at" = "\"occurred_at\"" := rfl
  have hpayload : quoteJson "payload" = "\"payload\"" := rfl
  have hprev : quoteJson "prev_hash" = "\"prev_hash\"" := rfl
  simp [canonicalJson, dumpObject, insertKey, keyLt, haggregate, hid, htype, hoccurred, hpayload,
    hprev]

/-- **The line determines what was hashed.** -/
theorem canonicalJson_inj {prevHash eventId eventType aggregateId prevHash' eventId' eventType'
    aggregateId' : String} {occurredAt occurredAt' : DateTime} {payload payload' : Payload}
    (hp : IsEventPayload payload) (hp' : IsEventPayload payload')
    (h : canonicalJson prevHash eventId eventType aggregateId occurredAt payload =
      canonicalJson prevHash' eventId' eventType' aggregateId' occurredAt' payload') :
    prevHash = prevHash' ∧ eventId = eventId' ∧ eventType = eventType' ∧
      aggregateId = aggregateId' ∧ occurredAt = occurredAt' ∧ payload = payload' := by
  have hquote := prefixFree_quoteJson
  have htime : PrefixFree fun t : DateTime => (quoteJson t.isoformat).toList :=
    hquote.comp fun _ _ => DateTime.isoformat_inj
  have hline := (hquote.after "\x7b\"aggregate_id\":".toList).append
    ((hquote.after ",\"event_id\":".toList).append
      ((hquote.after ",\"event_type\":".toList).append
        ((htime.after ",\"occurred_at\":".toList).append
          ((prefixFree_payload.after ",\"payload\":".toList).append
            ((hquote.after ",\"prev_hash\":".toList).before ['}'])))))
  have hlist := congrArg String.toList h
  rw [canonicalJson_toList, canonicalJson_toList] at hlist
  have heq := (hline (aggregateId, eventId, eventType, occurredAt, ⟨payload, hp⟩, prevHash)
    (aggregateId', eventId', eventType', occurredAt', ⟨payload', hp'⟩, prevHash') [] []
    (congrArg (· ++ []) hlist)).1
  simp only [Prod.mk.injEq, Subtype.mk.injEq] at heq
  obtain ⟨rfl, rfl, rfl, rfl, rfl, rfl⟩ := heq
  exact ⟨rfl, rfl, rfl, rfl, rfl, rfl⟩

end FinAssist
