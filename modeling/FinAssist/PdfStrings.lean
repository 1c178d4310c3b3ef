/-
**Literal strings of PDF, and the tokens of a content stream.**

A literal string stands in parentheses.  Inside, parentheses that are balanced stand for themselves,
a backslash begins an escape, and the end of a line, however it is written, is a line feed.  A content
stream is a sequence of operands and operators with blanks between them; `Tj` shows the string before
it.

Main definitions:

* `Pdf.readLiteral` — a literal string after its opening parenthesis, and what follows;
* `Pdf.tokens` — the tokens of a content stream;
* `Pdf.shownStrings` — the strings that are shown by `Tj`;
* `Pdf.escapeByte` — a byte, escaped if it has a meaning in a string.

Main results:

* `Pdf.readLiteral_escaped` — **an escaped text is read back**;
* `Pdf.tokensFrom_word`, `Pdf.tokensFrom_literal` — how a stream begins with a token.
-/

import Mathlib.Data.List.TakeWhile

set_option relaxedAutoImplicit false
set_option autoImplicit false

namespace Pdf

abbrev Bytes := List UInt8

/-! ### Literal strings -/

def isOctal (b : UInt8) : Bool := 48 ≤ b && b ≤ 55

/-- The byte that an octal number stands for; what is too high is ignored. -/
def octalByte (digits : Bytes) : UInt8 :=
  UInt8.ofNat (digits.foldl (fun n digit => 8 * n + (digit.toNat - 48)) 0)

/-- What a backslash makes of the byte after it. -/
def unescape (b : UInt8) : UInt8 :=
  if b = 110 then 10
  else if b = 114 then 13
  else if b = 116 then 9
  else if b = 98 then 8
  else if b = 102 then 12
  else b

/-- The bytes of a literal string, after its opening parenthesis and `depth` more, as they are written,
and what follows its closing parenthesis. -/
def rawLiteral : ℕ → Bytes → Option (Bytes × Bytes)
  | _, [] => none
  | depth, 92 :: b :: s => (rawLiteral depth s).map fun r => (92 :: b :: r.1, r.2)
  | 0, 41 :: s => some ([], s)
  | depth + 1, 41 :: s => (rawLiteral depth s).map fun r => (41 :: r.1, r.2)
  | depth, 40 :: s => (rawLiteral (depth + 1) s).map fun r => (40 :: r.1, r.2)
  | depth, b :: s => (rawLiteral depth s).map fun r => (b :: r.1, r.2)

/-- **What the bytes between the parentheses mean.** -/
def decode : Bytes → Bytes
  | [] => []
  | 92 :: 13 :: 10 :: s => decode s
  | 92 :: 13 :: s => decode s
  | 92 :: 10 :: s => decode s
  | 92 :: a :: s =>
      if isOctal a then
        match s with
        | [] => [octalByte [a]]
        | b :: t =>
            if isOctal b then
              match t with
              | [] => [octalByte [a, b]]
              | c :: u =>
                  if isOctal c then octalByte [a, b, c] :: decode u
                  else octalByte [a, b] :: decode (c :: u)
            else octalByte [a] :: decode (b :: t)
      else unescape a :: decode s
  | [92] => []
  | 13 :: 10 :: s => 10 :: decode s
  | 13 :: s => 10 :: decode s
  | b :: s => b :: decode s

/-- A literal string after its opening parenthesis, and what follows it. -/
def readLiteral (s : Bytes) : Option (Bytes × Bytes) :=
  (rawLiteral 0 s).map fun r => (decode r.1, r.2)

/-! ### Content streams -/

def isWhite (b : UInt8) : Bool := [0, 9, 10, 12, 13, 32].contains b

def isDelimiter (b : UInt8) : Bool := [40, 41, 60, 62, 91, 93, 123, 125, 47, 37].contains b

def isRegular (b : UInt8) : Bool := !isWhite b && !isDelimiter b

/-- A literal string, or a number, a name or an operator. -/
inductive Token
  | literal (s : Bytes)
  | word (s : Bytes)
  deriving DecidableEq

/-- The tokens of a content stream, of which there are no more than `fuel`.  Strings in hexadecimal,
arrays, dictionaries and comments are not read. -/
def tokensFrom : ℕ → Bytes → Option (List Token)
  | _, [] => some []
  | 0, _ :: _ => none
  | fuel + 1, b :: s =>
      if isWhite b then tokensFrom fuel s
      else if b = 40 then
        (readLiteral s).bind fun r => (tokensFrom fuel r.2).map (.literal r.1 :: ·)
      else if isDelimiter b && b != 47 then none
      else (tokensFrom fuel (s.dropWhile isRegular)).map (.word (b :: s.takeWhile isRegular) :: ·)

/-- **The tokens of a content stream.** -/
def tokens (s : Bytes) : Option (List Token) := tokensFrom s.length s

/-- The operator `Tj`. -/
def showOperator : Bytes := [84, 106]

/-- **The strings that a content stream shows.** -/
def shownStrings : List Token → List Bytes
  | .literal s :: .word w :: ts =>
      if w = showOperator then s :: shownStrings ts else shownStrings (.word w :: ts)
  | _ :: ts => shownStrings ts
  | [] => []

/-! ### Escaped texts -/

/-- A byte, escaped if it has a meaning in a string. -/
def escapeByte (b : UInt8) : Bytes := if b = 92 ∨ b = 40 ∨ b = 41 then [92, b] else [b]

/-- The ends of lines as they are read. -/
def lineFeeds : Bytes → Bytes
  | [] => []
  | 13 :: 10 :: s => 10 :: lineFeeds s
  | 13 :: s => 10 :: lineFeeds s
  | b :: s => b :: lineFeeds s

theorem lineFeeds_eq_self : ∀ {s : Bytes}, 13 ∉ s → lineFeeds s = s := by
  intro s
  fun_induction lineFeeds s with
  | case1 => exact fun _ => rfl
  | case2 s ih => exact fun h => absurd List.mem_cons_self h
  | case3 s hs ih => exact fun h => absurd List.mem_cons_self h
  | case4 b s hno hs ih =>
      intro h
      rw [ih fun hmem => h (List.mem_cons_of_mem _ hmem)]

theorem rawLiteral_escaped (rest : Bytes) : ∀ s : Bytes,
    rawLiteral 0 (s.flatMap escapeByte ++ 41 :: rest) = some (s.flatMap escapeByte, rest) := by
  intro s
  induction s with
  | nil => rfl
  | cons b s ih =>
      rw [List.flatMap_cons, escapeByte]
      split
      · simp only [List.cons_append, List.nil_append, rawLiteral, ih, Option.map_some]
      next h =>
        simp only [not_or] at h
        simp only [List.cons_append, List.nil_append]
        rw [rawLiteral, ih, Option.map_some]
        · exact fun _ _ heq => absurd heq h.1
        · exact h.2.1
        · exact fun _ => h.2.2
        · exact fun _ hdepth => nomatch hdepth

/-- An escaped text begins with a line feed only where the text does. -/
theorem begins_of_escaped {s t : Bytes} (h : s.flatMap escapeByte = 10 :: t) :
    ∃ s', s = 10 :: s' := by
  cases s with
  | nil => cases h
  | cons b s =>
      rw [List.flatMap_cons, escapeByte] at h
      split at h
      · cases (List.cons.inj h).1
      · exact ⟨s, by rw [(List.cons.inj h).1]⟩

theorem decode_escape {b : UInt8} (h : b = 92 ∨ b = 40 ∨ b = 41) (s : Bytes) :
    decode (92 :: b :: s) = b :: decode s := by
  rcases h with rfl | rfl | rfl
  all_goals
    rw [decode.eq_def]
    simp [isOctal, unescape]

theorem decode_plain {b : UInt8} (hescape : b ≠ 92) (hcr : b ≠ 13) (s : Bytes) :
    decode (b :: s) = b :: decode s := by
  rw [decode]
  all_goals intros; contradiction

theorem decode_escaped : ∀ s : Bytes, decode (s.flatMap escapeByte) = lineFeeds s := by
  intro s
  fun_induction lineFeeds s with
  | case1 => rfl
  | case2 s ih =>
      have hcrlf : (13 :: 10 :: s).flatMap escapeByte = 13 :: 10 :: s.flatMap escapeByte := rfl
      rw [hcrlf, decode, ih]
  | case3 s hs ih =>
      have hcr : (13 :: s).flatMap escapeByte = 13 :: s.flatMap escapeByte := rfl
      rw [hcr, decode, ih]
      intro t ht
      obtain ⟨s', rfl⟩ := begins_of_escaped ht
      exact hs s' rfl
  | case4 b s hno hcr ih =>
      rw [List.flatMap_cons, escapeByte]
      split
      next h =>
        rw [← ih]
        exact decode_escape h _
      next h =>
        rw [← ih]
        exact decode_plain (fun hb => h (.inl hb)) hcr _

/-- **An escaped text is read back**, with its ends of lines as line feeds. -/
theorem readLiteral_escaped (s rest : Bytes) :
    readLiteral (s.flatMap escapeByte ++ 41 :: rest) = some (lineFeeds s, rest) := by
  rw [readLiteral, rawLiteral_escaped, Option.map_some, decode_escaped]

/-! ### Tokens -/

theorem rawLiteral_length : ∀ {s : Bytes} {depth : ℕ} {r : Bytes × Bytes},
    rawLiteral depth s = some r → r.2.length < s.length := by
  intro s depth
  fun_induction rawLiteral depth s with
  | case1 => nofun
  | case3 s =>
      rintro r h
      cases h
      exact Nat.lt_succ_self _
  | case2 depth b s ih | case4 depth s ih | case5 depth s ih | case6 depth b s _ _ _ _ ih =>
      intro r h
      obtain ⟨r', hr', rfl⟩ := Option.map_eq_some_iff.1 h
      have hlt := ih hr'
      simp only [List.length_cons]
      omega

theorem readLiteral_length {s : Bytes} {r : Bytes × Bytes} (h : readLiteral s = some r) :
    r.2.length < s.length := by
  obtain ⟨r', hr', rfl⟩ := Option.map_eq_some_iff.1 h
  exact rawLiteral_length (r := r') hr'

theorem tokensFrom_congr : ∀ (n m : ℕ) (s : Bytes), s.length ≤ n → s.length ≤ m →
    tokensFrom n s = tokensFrom m s := by
  intro n
  induction n with
  | zero =>
      intro m s hn _
      obtain rfl := List.length_eq_zero_iff.1 (Nat.le_zero.1 hn)
      simp only [tokensFrom]
  | succ n ih =>
      intro m s hn hm
      cases s with
      | nil => simp only [tokensFrom]
      | cons b s =>
          obtain _ | m := m
          · exact absurd hm (Nat.not_succ_le_zero _)
          have hn' := Nat.le_of_succ_le_succ hn
          have hm' := Nat.le_of_succ_le_succ hm
          have hdrop : (s.dropWhile isRegular).length ≤ s.length :=
            List.length_dropWhile_le _ s
          simp only [tokensFrom]
          rw [ih m s hn' hm', ih m (s.dropWhile isRegular) (by omega) (by omega)]
          cases hread : readLiteral s with
          | none => rfl
          | some r =>
              have hlt := readLiteral_length hread
              simp only [Option.bind_some]
              rw [ih m r.2 (by omega) (by omega)]

theorem tokensFrom_eq {n : ℕ} {s : Bytes} (h : s.length ≤ n) : tokensFrom n s = tokens s :=
  tokensFrom_congr n s.length s h le_rfl

theorem tokens_nil : tokens [] = some [] := rfl

theorem tokens_white {b : UInt8} (h : isWhite b = true) (s : Bytes) :
    tokens (b :: s) = tokens s := by
  rw [tokens, List.length_cons, tokensFrom, if_pos h, tokensFrom_eq le_rfl]

theorem tokens_literal {s value rest : Bytes} (h : readLiteral s = some (value, rest)) :
    tokens (40 :: s) = (tokens rest).map (.literal value :: ·) := by
  have hlt := readLiteral_length h
  rw [tokens, List.length_cons, tokensFrom, if_neg (by decide), if_pos rfl, h, Option.bind_some,
    tokensFrom_eq hlt.le]

/-- What is read as one name, number or operator. -/
def isWord : Bytes → Bool
  | [] => false
  | b :: w => !isWhite b && b != 40 && !(isDelimiter b && b != 47) && w.all isRegular

theorem takeWhile_eq_nil {s : Bytes} (h : ∀ c ∈ s.head?, isRegular c = false) :
    s.takeWhile isRegular = [] := by
  cases s with
  | nil => rfl
  | cons c s => exact List.takeWhile_cons_of_neg (by simp [h c rfl])

theorem dropWhile_eq_self {s : Bytes} (h : ∀ c ∈ s.head?, isRegular c = false) :
    s.dropWhile isRegular = s := by
  cases s with
  | nil => rfl
  | cons c s => exact List.dropWhile_cons_of_neg (by simp [h c rfl])

theorem tokens_word {w s : Bytes} (hw : isWord w = true) (hs : ∀ c ∈ s.head?, isRegular c = false) :
    tokens (w ++ s) = (tokens s).map (.word w :: ·) := by
  cases w with
  | nil => exact absurd hw Bool.false_ne_true
  | cons b w =>
      simp only [isWord, Bool.and_eq_true, Bool.not_eq_true', bne_iff_ne, List.all_eq_true] at hw
      obtain ⟨⟨⟨hwhite, hopen⟩, hdelimiter⟩, hregular⟩ := hw
      have htake : (w ++ s).takeWhile isRegular = w := by
        rw [List.takeWhile_append_of_pos hregular, takeWhile_eq_nil hs, List.append_nil]
      have hdrop : (w ++ s).dropWhile isRegular = s := by
        rw [List.dropWhile_append_of_pos hregular, dropWhile_eq_self hs]
      have hlength : s.length ≤ (w ++ s).length := by simp
      rw [List.cons_append, tokens, List.length_cons, tokensFrom, if_neg (by simp [hwhite]),
        if_neg hopen, if_neg (by simp [hdelimiter]), htake, hdrop, tokensFrom_eq hlength]

/-! ### Parts of a stream -/

/-- **A part of a stream reads as `ts`**, whatever follows it. -/
def Reads (part : Bytes) (ts : List Token) : Prop :=
  ∀ rest, (∀ c ∈ rest.head?, isRegular c = false) →
    tokens (part ++ rest) = (tokens rest).map (ts ++ ·)

theorem reads_nil : Reads [] [] := by
  intro rest _
  simp

theorem reads_word {w : Bytes} (h : isWord w = true) : Reads w [.word w] :=
  fun _ hrest => tokens_word h hrest

/-- An escaped text in parentheses is a literal. -/
theorem reads_escaped (s : Bytes) :
    Reads (40 :: (s.flatMap escapeByte ++ [41])) [.literal (lineFeeds s)] := by
  intro rest _
  have hread := readLiteral_escaped s rest
  rw [List.cons_append, List.append_assoc]
  exact tokens_literal hread

theorem Reads.white {p q : Bytes} {ps qs : List Token} (hp : Reads p ps) (hq : Reads q qs) {b : UInt8}
    (hb : isWhite b = true) : Reads (p ++ b :: q) (ps ++ qs) := by
  intro rest hrest
  have hregular : ∀ c ∈ (b :: (q ++ rest)).head?, isRegular c = false := by
    rintro _ ⟨⟩
    simp [isRegular, hb]
  rw [List.append_assoc, List.cons_append, hp _ hregular, tokens_white hb, hq _ hrest,
    Option.map_map]
  exact congrArg (fun f => (tokens rest).map f) (funext fun ts => (List.append_assoc ps qs ts).symm)

/-- Parts with a blank between each two of them. -/
theorem reads_intercalate {b : UInt8} (hb : isWhite b = true) {p : List (Bytes × List Token)}
    (h : ∀ part ∈ p, Reads part.1 part.2) :
    Reads ([b].intercalate (p.map Prod.fst)) (p.map Prod.snd).flatten := by
  induction p with
  | nil => exact reads_nil
  | cons part parts ih =>
      have hpart := h part List.mem_cons_self
      have hparts := ih fun next hnext => h next (List.mem_cons_of_mem _ hnext)
      cases parts with
      | nil => simpa [List.intercalate] using hpart
      | cons next parts =>
          have hsplit := hpart.white hparts hb
          simpa [List.intercalate] using hsplit

theorem reads_words {ws : List Bytes} (h : ∀ w ∈ ws, isWord w = true) :
    Reads ([32].intercalate ws) (ws.map .word) := by
  have hreads := reads_intercalate (b := 32) (p := ws.map fun w => (w, [.word w])) (by decide)
    (by
      intro p hp
      obtain ⟨w, hw, rfl⟩ := List.mem_map.1 hp
      exact reads_word (h w hw))
  rw [List.map_eq_flatMap, List.flatMap_def]
  simpa [Function.comp_def] using hreads

/-! ### What is shown -/

theorem shownStrings_words (ws : List Bytes) (ts : List Token) :
    shownStrings (ws.map .word ++ ts) = shownStrings ts := by
  induction ws with
  | nil => rfl
  | cons w ws ih => rw [List.map_cons, List.cons_append, shownStrings, ih]; nofun

theorem shownStrings_shown (s : Bytes) (ts : List Token) :
    shownStrings (.literal s :: .word showOperator :: ts) = s :: shownStrings ts := by
  rw [shownStrings, if_pos rfl]

end Pdf
